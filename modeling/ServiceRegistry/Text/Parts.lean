/-!
# Parts of texts

`startsWith` tells whether a text continues another one, and `trim` takes the blanks away from the two
ends of a text. `cutLast` divides a text at the last occurrence of a separator and `pieces` at every
occurrence: `eq_of_cutLast` and `cutLast_append` say that the cut is the only one with no separator behind
it, and `join_pieces` that writing the separators back restores the text.
-/
namespace ServiceRegistry.Text

/-! ## Starts -/

/-- Whether `text` continues `start`. -/
def startsWith (start text : String) : Bool := start.toList.isPrefixOf text.toList

theorem startsWith_iff {start text : String} :
    startsWith start text = true ↔ start.toList <+: text.toList := by
  simp [startsWith]

/-! ## Blanks -/

/-- The 25 characters with the Unicode property White_Space. -/
def blanks : List Char :=
  ['\u0009', '\u000a', '\u000b', '\u000c', '\u000d', '\u0020', '\u0085', '\u00a0', '\u1680',
    '\u2000', '\u2001', '\u2002', '\u2003', '\u2004', '\u2005', '\u2006', '\u2007', '\u2008',
    '\u2009', '\u200a', '\u2028', '\u2029', '\u202f', '\u205f', '\u3000']

/-- White space as Unicode has it, which is more than the standard library takes for it. -/
def isBlank (c : Char) : Bool := blanks.contains c

/-- The text without the run of such characters at its end. -/
def dropTrailing (p : Char → Bool) (cs : List Char) : List Char :=
  (cs.reverse.dropWhile p).reverse

/-- The text without the blanks at its two ends. -/
def trim (cs : List Char) : List Char := dropTrailing isBlank (cs.dropWhile isBlank)

example : trim [' ', 'a', ' ', 'b', '\u3000'] = ['a', ' ', 'b'] := by decide

/-! ## Separators -/

/-- The texts before and after the last `sep`, if there is one. -/
def cutLast (sep : Char) : List Char → Option (List Char × List Char)
  | [] => none
  | c :: cs =>
    match cutLast sep cs with
    | some (before, after) => some (c :: before, after)
    | none => if c = sep then some ([], cs) else none

theorem cutLast_eq_none_iff {sep : Char} {cs : List Char} : cutLast sep cs = none ↔ sep ∉ cs := by
  induction cs with
  | nil => simp [cutLast]
  | cons c cs ih =>
    cases hcut : cutLast sep cs with
    | some cut => simp_all [cutLast]
    | none =>
      have hn : sep ∉ cs := ih.1 hcut
      by_cases hc : c = sep
      · simp [cutLast, hcut, hc]
      · simp [cutLast, hcut, hc, hn, Ne.symm hc]

theorem cutLast_append {sep : Char} (before : List Char) {after : List Char} (h : sep ∉ after) :
    cutLast sep (before ++ sep :: after) = some (before, after) := by
  induction before with
  | nil => simp [cutLast, cutLast_eq_none_iff.2 h]
  | cons c before ih => simp [cutLast, ih]

/-- The cut falls at a separator behind which there is no other. -/
theorem eq_of_cutLast {sep : Char} {cs before after : List Char}
    (h : cutLast sep cs = some (before, after)) : cs = before ++ sep :: after ∧ sep ∉ after := by
  induction cs generalizing before with
  | nil => simp [cutLast] at h
  | cons c cs ih =>
    cases hcut : cutLast sep cs with
    | some cut =>
      simp only [cutLast, hcut, Option.some.injEq, Prod.mk.injEq] at h
      obtain ⟨rfl, rfl⟩ := h
      exact ⟨by rw [(ih hcut).1, List.cons_append], (ih hcut).2⟩
    | none =>
      simp only [cutLast, hcut] at h
      split at h
      · simp_all [cutLast_eq_none_iff]
      · simp at h

/-- The texts between the separators, one more than there are separators. -/
def pieces (sep : Char) : List Char → List (List Char)
  | [] => [[]]
  | c :: cs =>
    if c = sep then [] :: pieces sep cs
    else match pieces sep cs with
      | [] => [[c]]
      | piece :: rest => (c :: piece) :: rest

theorem pieces_ne_nil (sep : Char) (cs : List Char) : pieces sep cs ≠ [] := by
  cases cs with
  | nil => simp [pieces]
  | cons c cs =>
    simp only [pieces]
    split
    · simp
    · split <;> simp

/-- Writing the separators back between the pieces restores the text. -/
theorem join_pieces (sep : Char) (cs : List Char) : [sep].intercalate (pieces sep cs) = cs := by
  induction cs with
  | nil => simp [pieces]
  | cons c cs ih =>
    cases hp : pieces sep cs with
    | nil => exact absurd hp (pieces_ne_nil sep cs)
    | cons piece rest =>
      rw [hp] at ih
      by_cases hc : c = sep
      · simp only [pieces, hc, if_true, hp]
        rw [← ih]
        simp [List.intercalate]
      · cases rest <;> simp_all [pieces, List.intercalate]

/-- No piece holds the separator. -/
theorem not_mem_of_mem_pieces {sep : Char} {cs piece : List Char} (h : piece ∈ pieces sep cs) :
    sep ∉ piece := by
  induction cs generalizing piece with
  | nil => simp_all [pieces]
  | cons c cs ih =>
    by_cases hc : c = sep
    · simp only [pieces, hc, if_true, List.mem_cons] at h
      rcases h with rfl | h
      · simp
      · exact ih h
    · cases hp : pieces sep cs with
      | nil => exact absurd hp (pieces_ne_nil sep cs)
      | cons first rest =>
        simp only [pieces, hc, if_false, hp, List.mem_cons] at h
        rcases h with rfl | h
        · exact fun hmem => ((List.mem_cons.1 hmem).elim (fun he => hc he.symm) (@ih first (by simp [hp])))
        · exact ih (by simp [hp, h])

end ServiceRegistry.Text
