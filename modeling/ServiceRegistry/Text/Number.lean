/-!
# Numbers in texts

The numbers that a word of 64 bits holds, with and without a sign, and how numbers are written and read.

`Decimal.read?` accepts an optional plus sign and ASCII digits whose value stays below a bound, and
nothing else: no blank, no minus sign, no group mark. `Decimal.digits` writes a number without leading
zeros, and `Decimal.read?_digits` says that reading undoes writing. In base sixteen the digits are in lower
case, and a negative number is written as the bits of its two's complement.
-/
namespace ServiceRegistry

namespace Word

/-- How many words there are. -/
def count : Nat := 18446744073709551616

/-- The largest number of a word with a sign. -/
def maxSigned : Nat := 9223372036854775807

/-- The word that stands for an integer in two's complement. -/
def ofInt (i : Int) : Nat := (i % count).toNat

end Word

namespace Text.Decimal

/-- The decimal digits of a number, the most significant first. -/
def digits (n : Nat) : List Char := Nat.toDigits 10 n

/-- The value of a run of digits that continues a number whose digits so far have value `acc`. -/
def value? (acc : Nat) : List Char → Option Nat
  | [] => some acc
  | c :: cs => if c.isDigit then value? (10 * acc + (c.toNat - '0'.toNat)) cs else none

/-- The value of a nonempty run of digits. -/
def natural? : List Char → Option Nat
  | [] => none
  | cs => value? 0 cs

/-- The number below `bound` that a text spells, a plus sign in front being allowed. -/
def read? (bound : Nat) (cs : List Char) : Option Nat :=
  let unsigned := match cs with
    | '+' :: rest => natural? rest
    | _ => natural? cs
  unsigned.filter (· < bound)

theorem value?_append (acc : Nat) (cs ds : List Char) :
    value? acc (cs ++ ds) = (value? acc cs).bind fun n => value? n ds := by
  induction cs generalizing acc with
  | nil => rfl
  | cons c cs ih => by_cases hc : c.isDigit <;> simp [value?, hc, ih]

theorem value?_digits (n : Nat) : value? 0 (digits n) = some n := by
  induction n using Nat.strongRecOn with
  | ind n ih =>
    have digit : ∀ d, d < 10 → (Nat.digitChar d).isDigit = true ∧
        (Nat.digitChar d).toNat - '0'.toNat = d := by decide
    by_cases hn : n < 10
    · rw [digits, Nat.toDigits_of_lt_base hn]
      simp only [value?, digit n hn, if_true, Nat.mul_zero, Nat.zero_add]
    · have hd := digit (n % 10) (Nat.mod_lt _ (by omega))
      rw [digits, Nat.toDigits_of_base_le (by omega) (by omega), value?_append,
        show value? 0 (Nat.toDigits 10 (n / 10)) = some (n / 10) from ih (n / 10) (by omega)]
      simp only [Option.bind_some, value?, hd, if_true, Option.some.injEq]
      omega

theorem head?_digits (n : Nat) : ∃ c cs, digits n = c :: cs ∧ c ≠ '+' := by
  have hv := value?_digits n
  cases hd : digits n with
  | nil => exact absurd hd (by simp [digits])
  | cons c cs =>
    refine ⟨c, cs, rfl, ?_⟩
    rintro rfl
    simp [hd, value?] at hv

/-- Reading undoes writing. -/
theorem read?_digits {bound n : Nat} (h : n < bound) : read? bound (digits n) = some n := by
  obtain ⟨c, cs, hd, hc⟩ := head?_digits n
  have hv := value?_digits n
  rw [hd] at hv ⊢
  simp [read?, natural?, hv, hc, h]

example : read? 256 "+007".toList = some 7 := by decide
example : read? 256 "255".toList = some 255 ∧ read? 256 "256".toList = none := by decide
example : read? 256 "++1".toList = none ∧ read? 256 "+".toList = none := by decide

end Text.Decimal

namespace Text.Hexadecimal

/-- The lower-case digits of a number in base sixteen. -/
def digits (n : Nat) : List Char := Nat.toDigits 16 n

/-- The two's complement of an integer in base sixteen. -/
def ofInt (i : Int) : List Char := digits (Word.ofInt i)

example : String.ofList (ofInt (-1)) = "ffffffffffffffff" := by decide

end Text.Hexadecimal

end ServiceRegistry
