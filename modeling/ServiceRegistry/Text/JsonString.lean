import ServiceRegistry.Text.Number

/-!
# Strings of the JSON format

`escape` writes the inside of a JSON string and `unescape` reads one, from after the opening quote
to behind the closing one. The writer leaves every character alone that the format allows to stand,
has short forms for seven characters and writes the other control characters by number.
-/
namespace ServiceRegistry.Text.JsonString

/-- The two lower-case hexadecimal digits of a number below 256. -/
def twoDigits (n : Nat) : List Char := [Nat.digitChar (n / 16), Nat.digitChar (n % 16)]

/-- How one character stands inside a JSON string. -/
def escapeChar (c : Char) : List Char :=
  match c with
  | '"' => ['\\', '"']
  | '\\' => ['\\', '\\']
  | '\x08' => ['\\', 'b']
  | '\x0c' => ['\\', 'f']
  | '\n' => ['\\', 'n']
  | '\r' => ['\\', 'r']
  | '\t' => ['\\', 't']
  | c => if c.toNat < 32 then ['\\', 'u', '0', '0'] ++ twoDigits c.toNat else [c]

/-- The inside of the JSON string for a text. -/
def escape (cs : List Char) : List Char := cs.flatMap escapeChar

/-- The value of a hexadecimal digit of either case. -/
def digitValue? (c : Char) : Option Nat :=
  if '0' ≤ c ∧ c ≤ '9' then some (c.toNat - '0'.toNat)
  else if 'a' ≤ c ∧ c ≤ 'f' then some (c.toNat - 'a'.toNat + 10)
  else if 'A' ≤ c ∧ c ≤ 'F' then some (c.toNat - 'A'.toNat + 10)
  else none

/-- The number that four hexadecimal digits spell. -/
def unit? (a b c d : Char) : Option Nat := do
  return ((← digitValue? a) * 16 + (← digitValue? b)) * 256 + (← digitValue? c) * 16 +
    (← digitValue? d)

/-- The character with a given code point, unless that is half of a surrogate pair. -/
def scalar? (n : Nat) : Option Char := if n.isValidChar then some (Char.ofNat n) else none

/-- The character of a high and a low surrogate. -/
def pair? (high low : Nat) : Option Char :=
  if 0xd800 ≤ high ∧ high < 0xdc00 ∧ 0xdc00 ≤ low ∧ low < 0xe000 then
    scalar? (0x10000 + (high - 0xd800) * 0x400 + (low - 0xdc00))
  else none

/-- The short escapes of the format. -/
def shortEscape? : Char → Option Char
  | '"' => some '"'
  | '\\' => some '\\'
  | '/' => some '/'
  | 'b' => some '\x08'
  | 'f' => some '\x0c'
  | 'n' => some '\n'
  | 'r' => some '\r'
  | 't' => some '\t'
  | _ => none

/-- Reads the hexadecimal digits of one or, for a character outside the basic plane, two escapes
that stand behind a backslash and a `u`. -/
def unescapeNumber : List Char → Option (Char × List Char)
  | a :: b :: c :: d :: rest => do
    let unit ← unit? a b c d
    match scalar? unit, rest with
    | some ch, rest => some (ch, rest)
    | none, '\\' :: 'u' :: e :: f :: g :: h :: rest =>
      return (← pair? unit (← unit? e f g h), rest)
    | none, _ => none
  | _ => none

/-- Reads one character of a JSON string. -/
def unescapeChar : List Char → Option (Char × List Char)
  | '\\' :: 'u' :: rest => unescapeNumber rest
  | '\\' :: c :: rest => (shortEscape? c).map fun ch => (ch, rest)
  | c :: rest => if c.toNat < 32 ∨ c = '"' ∨ c = '\\' then none else some (c, rest)
  | [] => none

/-- Reads at most `fuel` characters of a JSON string and its closing quote. -/
def unescapeUpTo : Nat → List Char → Option (List Char × List Char)
  | _, '"' :: rest => some ([], rest)
  | 0, _ => none
  | fuel + 1, cs => do
    let (c, rest) ← unescapeChar cs
    let (text, rest) ← unescapeUpTo fuel rest
    return (c :: text, rest)

/-- Reads a JSON string from behind its opening quote. The result is the text and what stands behind
the closing quote. No string has more characters than it takes to write it. -/
def unescape (cs : List Char) : Option (List Char × List Char) := unescapeUpTo cs.length cs

theorem length_escape_le (cs : List Char) : cs.length ≤ (escape cs).length := by
  induction cs with
  | nil => simp
  | cons c cs ih =>
    have hc : 1 ≤ (escapeChar c).length := by
      unfold escapeChar
      split <;> simp
      split <;> simp
    simp only [escape, List.flatMap_cons, List.length_append, List.length_cons] at ih ⊢
    omega

end ServiceRegistry.Text.JsonString
