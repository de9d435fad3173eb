import ServiceRegistry.Text.Parts
import ServiceRegistry.Text.Number
import Mathlib.Data.List.DropRight

/-!
# Beginnings, pieces and numbers

What is left of a text without the characters at its end is its longest beginning that ends in none of them,
what is left without the blanks around it is the one part of it that neither begins nor ends in a blank and
has nothing but blanks on either side, and the pieces between the separators are the only texts without a
separator that can be joined to the text again. A number is read from just those texts that are a run of
digits, with at most a plus sign in front, and have a value below the bound.
-/
namespace ServiceRegistry.Text

/-! ## The end of a text -/

/-- The longest beginning of a text that does not end in a character of a class. -/
def IsLongestStart (p : Char → Bool) (cs start : List Char) : Prop :=
  start <+: cs ∧ (∀ c ∈ start.getLast?, p c = false) ∧
    ∀ other, other <+: cs → (∀ c ∈ other.getLast?, p c = false) → other <+: start

theorem dropTrailing_eq_rdropWhile (p : Char → Bool) (cs : List Char) :
    dropTrailing p cs = cs.rdropWhile p := rfl

theorem not_of_mem_getLast?_dropTrailing {p : Char → Bool} {cs : List Char} {c : Char}
    (h : c ∈ (dropTrailing p cs).getLast?) : p c = false := by
  obtain ⟨hne, rfl⟩ := List.mem_getLast?_eq_getLast h
  exact Bool.eq_false_iff.2 (List.rdropWhile_last_not p cs hne)

/-- A beginning that does not end in the class is not touched by what is taken away. -/
theorem prefix_dropTrailing {p : Char → Bool} {cs other : List Char} (h : other <+: cs)
    (hlast : ∀ c ∈ other.getLast?, p c = false) : other <+: dropTrailing p cs := by
  rw [dropTrailing_eq_rdropWhile]
  induction cs using List.reverseRecOn with
  | nil => simpa using h
  | append_singleton cs c ih =>
    rcases List.prefix_concat_iff.1 h with rfl | h
    · have hc : ¬ p c = true := by simpa using hlast c (by simp)
      simp [List.rdropWhile_concat_neg p cs c hc]
    · by_cases hc : p c = true
      · rw [List.rdropWhile_concat_pos p cs c hc]
        exact ih h
      · rw [List.rdropWhile_concat_neg p cs c hc]
        exact h.trans (List.prefix_append cs [c])

theorem isLongestStart_iff {p : Char → Bool} {cs start : List Char} :
    IsLongestStart p cs start ↔ start = dropTrailing p cs := by
  have hlongest : IsLongestStart p cs (dropTrailing p cs) :=
    ⟨List.rdropWhile_prefix p cs, fun c hc => not_of_mem_getLast?_dropTrailing hc,
      fun other hother hlast => prefix_dropTrailing hother hlast⟩
  constructor
  · rintro ⟨hstart, hlast, hmax⟩
    have hle := (prefix_dropTrailing hstart hlast).length_le
    have hge := hmax _ hlongest.1 hlongest.2.1
    exact (hge.eq_of_length (by have := hge.length_le; omega)).symm
  · rintro rfl
    exact hlongest

/-- What stands at the end of a text goes if it is of the class throughout. -/
theorem dropTrailing_append {p : Char → Bool} (cs : List Char) {back : List Char}
    (h : ∀ c ∈ back, p c = true) : dropTrailing p (cs ++ back) = dropTrailing p cs := by
  simp only [dropTrailing, List.reverse_append]
  rw [List.dropWhile_append_of_pos (by simpa using h)]

theorem dropTrailing_eq_self {p : Char → Bool} {cs : List Char} (h : ∀ c ∈ cs.getLast?, p c = false) :
    dropTrailing p cs = cs := by
  rw [dropTrailing_eq_rdropWhile, List.rdropWhile_eq_self_iff]
  intro hne
  simpa using h _ (List.getLast?_eq_getLast_of_ne_nil hne)

/-! ## The blanks around a text -/

/-- What is left of a text without the blanks around it. -/
def IsTrimmed (cs core : List Char) : Prop :=
  ∃ front back, cs = front ++ core ++ back ∧ (∀ c ∈ front ++ back, isBlank c = true) ∧
    ∀ c, c ∈ core.head? ∨ c ∈ core.getLast? → isBlank c = false

theorem trim_eq_nil {cs : List Char} (h : ∀ c ∈ cs, isBlank c = true) : trim cs = [] := by
  rw [trim, List.dropWhile_eq_nil_iff.2 h]
  rfl

/-- A text that neither begins nor ends in a blank is not trimmed any further. -/
theorem trim_eq_self {cs : List Char} (h : ∀ c, c ∈ cs.head? ∨ c ∈ cs.getLast? → isBlank c = false) :
    trim cs = cs := by
  cases cs with
  | nil => rfl
  | cons c cs =>
    have hc : ¬ isBlank c = true := by simpa using h c (by simp)
    rw [trim, List.dropWhile_cons_of_neg hc]
    exact dropTrailing_eq_self fun last hlast => h last (.inr hlast)

theorem isTrimmed_trim (cs : List Char) : IsTrimmed cs (trim cs) := by
  have hback : cs.dropWhile isBlank = trim cs ++ (cs.dropWhile isBlank).rtakeWhile isBlank :=
    List.rdropWhile_append_rtakeWhile.symm
  refine ⟨cs.takeWhile isBlank, (cs.dropWhile isBlank).rtakeWhile isBlank, ?_, ?_, ?_⟩
  · rw [List.append_assoc, ← hback, List.takeWhile_append_dropWhile]
  · intro c hc
    rcases List.mem_append.1 hc with hc | hc
    · exact List.mem_takeWhile_imp hc
    · exact List.mem_rtakeWhile_imp hc
  · rintro c (hc | hc)
    · have hhead : c ∈ (cs.dropWhile isBlank).head? := by
        rw [hback, List.head?_append]
        simp [Option.mem_def.1 hc]
      have hfirst := List.head?_dropWhile_not isBlank cs
      rw [Option.mem_def.1 hhead] at hfirst
      exact hfirst
    · exact not_of_mem_getLast?_dropTrailing hc

theorem isTrimmed_iff {cs core : List Char} : IsTrimmed cs core ↔ core = trim cs := by
  constructor
  · rintro ⟨front, back, rfl, hblank, hcore⟩
    have hfront : ∀ c ∈ front, isBlank c = true := fun c hc => hblank c (List.mem_append_left _ hc)
    have hback : ∀ c ∈ back, isBlank c = true := fun c hc => hblank c (List.mem_append_right _ hc)
    cases core with
    | nil => exact (trim_eq_nil (by simpa using hblank)).symm
    | cons c core =>
      have hc : ¬ isBlank c = true := by simpa using hcore c (by simp)
      rw [trim, List.append_assoc, List.dropWhile_append_of_pos hfront, List.cons_append,
        List.dropWhile_cons_of_neg hc, ← List.cons_append, dropTrailing_append _ hback,
        dropTrailing_eq_self fun last hlast => hcore last (.inr hlast)]
  · rintro rfl
    exact isTrimmed_trim cs

theorem subset_of_isTrimmed {cs core : List Char} (h : IsTrimmed cs core) : core ⊆ cs := by
  obtain ⟨front, back, rfl, -, -⟩ := h
  intro c hc
  simp [hc]

/-! ## The pieces between separators -/

/-- The pieces of a text are the only texts without a separator that can be joined to it. -/
theorem eq_pieces_iff {sep : Char} {cs : List Char} {parts : List (List Char)} :
    parts = pieces sep cs ↔
      parts ≠ [] ∧ [sep].intercalate parts = cs ∧ ∀ part ∈ parts, sep ∉ part := by
  constructor
  · rintro rfl
    exact ⟨pieces_ne_nil sep cs, join_pieces sep cs, fun part => not_mem_of_mem_pieces⟩
  · rintro ⟨hne, hjoin, hsep⟩
    have hpieces := List.splitOn_intercalate sep (fun part => @not_mem_of_mem_pieces sep cs part)
      (pieces_ne_nil sep cs)
    rw [join_pieces] at hpieces
    rw [← hpieces, ← hjoin, List.splitOn_intercalate sep hsep hne]

/-! ## Numbers -/

namespace Decimal

/-- The text is a run of digits, perhaps with a plus sign in front, and has the value. -/
def Spells (bound : Nat) (cs : List Char) (n : Nat) : Prop :=
  ∃ ds, (cs = ds ∨ cs = '+' :: ds) ∧ ds ≠ [] ∧ (∀ d ∈ ds, d.isDigit = true) ∧
    Nat.ofDigitChars 10 ds 0 = n ∧ n < bound

theorem value?_eq_some_iff {acc n : Nat} {cs : List Char} :
    value? acc cs = some n ↔ (∀ c ∈ cs, c.isDigit = true) ∧ Nat.ofDigitChars 10 cs acc = n := by
  induction cs generalizing acc with
  | nil => simp [value?]
  | cons c cs ih =>
    by_cases hc : c.isDigit = true
    · simp [value?, hc, ih, Nat.ofDigitChars_cons]
    · simp [value?, hc]

theorem natural?_eq_some_iff {n : Nat} {cs : List Char} :
    natural? cs = some n ↔ cs ≠ [] ∧ (∀ c ∈ cs, c.isDigit = true) ∧ Nat.ofDigitChars 10 cs 0 = n := by
  cases cs with
  | nil => simp [natural?]
  | cons c cs => simp [natural?, value?_eq_some_iff]

/-- A number is read just if the text spells it. -/
theorem read?_eq_some_iff {bound n : Nat} {cs : List Char} :
    read? bound cs = some n ↔ Spells bound cs n := by
  constructor
  · intro h
    obtain ⟨hread, hlt⟩ := Option.filter_eq_some_iff.1 h
    split at hread
    · rename_i rest
      obtain ⟨hne, hdigits, hvalue⟩ := natural?_eq_some_iff.1 hread
      exact ⟨rest, .inr rfl, hne, hdigits, hvalue, by simpa using hlt⟩
    · obtain ⟨hne, hdigits, hvalue⟩ := natural?_eq_some_iff.1 hread
      exact ⟨cs, .inl rfl, hne, hdigits, hvalue, by simpa using hlt⟩
  · rintro ⟨ds, hcs, hne, hdigits, hvalue, hlt⟩
    have hread := natural?_eq_some_iff.2 ⟨hne, hdigits, hvalue⟩
    rcases hcs with rfl | rfl
    · obtain ⟨d, ds, rfl⟩ := List.exists_cons_of_ne_nil hne
      have hplus : d ≠ '+' := by
        rintro rfl
        exact absurd (hdigits '+' (by simp)) (by decide)
      simp [read?, hplus, hread, hlt]
    · simp [read?, hread, hlt]

end Decimal

end ServiceRegistry.Text
