import Mathlib.Data.String.Basic

/-!
# The bytes of a text

A text is stored as the bytes of its UTF-8 encoding, and a store compares and cuts its keys byte by
byte. That comes to the same as comparing and cutting them character by character: the bytes of a
smaller character are smaller at the first place where the two differ, and no encoding of a character
continues another one.
-/
namespace ServiceRegistry.Text

/-- The bytes in which a text is stored. -/
def bytes (text : String) : List UInt8 := text.toList.flatMap String.utf8EncodeChar

theorem toByteArray_bytes (text : String) : (bytes text).toByteArray = text.toByteArray :=
  String.utf8Encode_toList

/-! ## Bytes of one character -/

theorem ofNat_cons_lt {m n : Nat} (hm : m < 256) (hn : n < 256) (ms ns : List UInt8) :
    UInt8.ofNat m :: ms < UInt8.ofNat n :: ns ↔ m < n ∨ m = n ∧ ms < ns := by
  rw [List.cons_lt_cons_iff, UInt8.ofNat_lt_iff_lt hm hn, ← UInt8.toNat_inj,
    UInt8.toNat_ofNat_of_lt' hm, UInt8.toNat_ofNat_of_lt' hn]

theorem toNat_val_lt (c : Char) : c.val.toNat < 1114112 := by
  rcases c.valid with h | h <;> omega

/-- The bytes of a smaller character are smaller, whatever follows them. -/
theorem utf8EncodeChar_append_lt {c d : Char} (h : c < d) (cs ds : List UInt8) :
    String.utf8EncodeChar c ++ cs < String.utf8EncodeChar d ++ ds := by
  have hc := toNat_val_lt c
  have hd := toNat_val_lt d
  have h : c.val.toNat < d.val.toNat := h
  unfold String.utf8EncodeChar
  generalize c.val.toNat = m at *
  generalize d.val.toNat = n at *
  -- The bytes after the first carry the digits to base 64, and the first one what is left.
  have hm : m / 64 / 64 = m / 4096 ∧ m / 4096 / 64 = m / 262144 ∧ m / 262144 % 8 = m / 262144 := by
    omega
  have hn : n / 64 / 64 = n / 4096 ∧ n / 4096 / 64 = n / 262144 ∧ n / 262144 % 8 = n / 262144 := by
    omega
  dsimp only
  split_ifs
  all_goals
    simp (disch := omega) only [List.cons_append, List.nil_append, ofNat_cons_lt]
    omega

/-! ## Bytes of a text -/

theorem flatMap_utf8EncodeChar_lt {cs ds : List Char} (h : cs < ds) :
    cs.flatMap String.utf8EncodeChar < ds.flatMap String.utf8EncodeChar := by
  induction cs generalizing ds with
  | nil =>
    cases ds with
    | nil => exact absurd h (List.lt_irrefl [])
    | cons d ds =>
      obtain ⟨first, rest, hbytes⟩ := List.exists_cons_of_ne_nil (@String.utf8EncodeChar_ne_nil d)
      simp only [List.flatMap_nil, List.flatMap_cons, hbytes, List.cons_append, List.nil_lt_cons]
  | cons c cs ih =>
    cases ds with
    | nil => exact absurd h (List.not_lt_nil _)
    | cons d ds =>
      simp only [List.flatMap_cons]
      rcases List.cons_lt_cons_iff.1 h with hlt | ⟨rfl, hlt⟩
      · exact utf8EncodeChar_append_lt hlt _ _
      · exact List.append_left_lt (ih hlt)

/-- Texts are ordered as their bytes are. -/
theorem bytes_lt_bytes_iff {first second : String} : bytes first < bytes second ↔ first < second := by
  have hmono : ∀ {first second : String}, first < second → bytes first < bytes second :=
    fun h => flatMap_utf8EncodeChar_lt (String.lt_iff.1 h)
  refine ⟨fun h => ?_, hmono⟩
  rcases lt_trichotomy first second with hlt | rfl | hlt
  · exact hlt
  · exact absurd h (List.lt_irrefl _)
  · exact absurd h (List.lt_asymm (hmono hlt))

/-- The bytes of a text continue those of another one just if its characters do. -/
theorem bytes_prefix_bytes_iff {start text : String} :
    bytes start <+: bytes text ↔ start.toList <+: text.toList := by
  constructor
  · rintro ⟨rest, hrest⟩
    refine List.isPrefix_of_utf8Encode_append_eq_utf8Encode rest.toByteArray ?_
    rw [String.utf8Encode_toList, String.utf8Encode_toList, ← toByteArray_bytes, ← toByteArray_bytes,
      ← hrest, List.toByteArray_append]
  · rintro ⟨rest, hrest⟩
    exact ⟨rest.flatMap String.utf8EncodeChar, by rw [bytes, bytes, ← hrest, List.flatMap_append]⟩

end ServiceRegistry.Text
