import ServiceRegistry.Text.JsonString

/-!
# Values of the JSON format

`Json.Spells` is the grammar of the format, read from left to right: which value a text spells, blanks
being allowed around every part of it. `Json.spells_unique` says that a text spells one value at most,
so that what a value is written as determines what any reader of the format gets.
-/
namespace ServiceRegistry.Text

/-- A value of the format. A number is kept as it is spelled. -/
inductive Json where
  | null
  | boolean (value : Bool)
  | number (spelling : String)
  | string (text : String)
  | array (items : List Json)
  | object (members : List (String × Json))

namespace Json

/-- The four blanks of the format. -/
def isBlank (c : Char) : Bool := c = ' ' || c = '\t' || c = '\n' || c = '\r'

def skipBlanks (cs : List Char) : List Char := cs.dropWhile isBlank

/-! ## Numbers -/

def isDigits (cs : List Char) : Bool := !cs.isEmpty && cs.all Char.isDigit

/-- No zero stands in front of other digits. -/
def isWhole (cs : List Char) : Bool := isDigits cs && (cs.length = 1 || cs.head? != some '0')

/-- Nothing or an exponent. -/
def isScale : List Char → Bool
  | [] => true
  | mark :: '+' :: cs | mark :: '-' :: cs | mark :: cs => (mark = 'e' || mark = 'E') && isDigits cs

/-- A fraction and an exponent, each of which may be missing. -/
def isFraction : List Char → Bool
  | '.' :: cs => isDigits (cs.takeWhile Char.isDigit) && isScale (cs.dropWhile Char.isDigit)
  | cs => isScale cs

/-- Behind a sign, which may be missing, stand whole digits, a fraction and an exponent. -/
def isNumber (cs : List Char) : Bool :=
  let unsigned := match cs with
    | '-' :: rest => rest
    | _ => cs
  isWhole (unsigned.takeWhile Char.isDigit) && isFraction (unsigned.dropWhile Char.isDigit)

/-- The characters of numbers. None of them may follow a number. -/
def isNumberChar (c : Char) : Bool := c.isDigit || "+-.eE".toList.contains c

example : ["0", "-0.5e+3", "12E4"].all (isNumber ·.toList) = true ∧
    ["", "-", "01", "1.", ".5", "1e", "+1"].any (isNumber ·.toList) = false := by decide

/-! ## Values -/

mutual

/-- The value that a text spells from its first character on, and what is left of the text. -/
inductive Value : List Char → Json → List Char → Prop
  | null (rest : List Char) : Value ('n' :: 'u' :: 'l' :: 'l' :: rest) .null rest
  | yes (rest : List Char) : Value ('t' :: 'r' :: 'u' :: 'e' :: rest) (.boolean true) rest
  | no (rest : List Char) : Value ('f' :: 'a' :: 'l' :: 's' :: 'e' :: rest) (.boolean false) rest
  | number {cs : List Char} (h : isNumber (cs.takeWhile isNumberChar) = true) :
      Value cs (.number (String.ofList (cs.takeWhile isNumberChar))) (cs.dropWhile isNumberChar)
  | string {cs text rest : List Char} (h : JsonString.unescape cs = some (text, rest)) :
      Value ('"' :: cs) (.string (String.ofList text)) rest
  | empty {cs rest : List Char} (h : skipBlanks cs = ']' :: rest) : Value ('[' :: cs) (.array []) rest
  | array {cs rest : List Char} {items : List Json} (h : Items (skipBlanks cs) items rest) :
      Value ('[' :: cs) (.array items) rest
  | bare {cs rest : List Char} (h : skipBlanks cs = '\x7d' :: rest) :
      Value ('\x7b' :: cs) (.object []) rest
  | object {cs rest : List Char} {members : List (String × Json)}
      (h : Members (skipBlanks cs) members rest) : Value ('\x7b' :: cs) (.object members) rest

/-- The items of an array up to its end. -/
inductive Items : List Char → List Json → List Char → Prop
  | last {cs mid rest : List Char} {item : Json} (hitem : Value cs item mid)
      (hend : skipBlanks mid = ']' :: rest) : Items cs [item] rest
  | more {cs mid later rest : List Char} {item : Json} {items : List Json} (hitem : Value cs item mid)
      (hcomma : skipBlanks mid = ',' :: later) (hitems : Items (skipBlanks later) items rest) :
      Items cs (item :: items) rest

/-- A name and its value. -/
inductive Member : List Char → String × Json → List Char → Prop
  | mk {cs name mid later rest : List Char} {value : Json}
      (hname : JsonString.unescape cs = some (name, mid)) (hcolon : skipBlanks mid = ':' :: later)
      (hvalue : Value (skipBlanks later) value rest) :
      Member ('"' :: cs) (String.ofList name, value) rest

/-- The members of an object up to its end. -/
inductive Members : List Char → List (String × Json) → List Char → Prop
  | last {cs mid rest : List Char} {member : String × Json} (hmember : Member cs member mid)
      (hend : skipBlanks mid = '\x7d' :: rest) : Members cs [member] rest
  | more {cs mid later rest : List Char} {member : String × Json} {members : List (String × Json)}
      (hmember : Member cs member mid) (hcomma : skipBlanks mid = ',' :: later)
      (hmembers : Members (skipBlanks later) members rest) : Members cs (member :: members) rest

end

/-- The text spells the value, and nothing else stands in it but blanks. -/
def Spells (text : String) (json : Json) : Prop :=
  ∃ rest, Value (skipBlanks text.toList) json rest ∧ skipBlanks rest = []

/-! ## A text spells one value at most -/

theorem not_items_bracket {rest rest' : List Char} {items : List Json} :
    ¬ Items (']' :: rest) items rest' := by
  have hvalue : ∀ json mid, ¬ Value (']' :: rest) json mid := by
    intro json mid h
    cases h with
    | number h => cases h
  intro h
  cases h with
  | last hitem => exact hvalue _ _ hitem
  | more hitem => exact hvalue _ _ hitem

theorem not_members_brace {rest rest' : List Char} {members : List (String × Json)} :
    ¬ Members ('\x7d' :: rest) members rest' := by
  intro h
  cases h with
  | last hmember | more hmember => cases hmember

mutual

theorem Value.unique {cs rest rest' : List Char} {a b : Json} (h : Value cs a rest)
    (h' : Value cs b rest') : a = b ∧ rest = rest' := by
  cases h with
  | null | yes | no =>
    cases h' with
    | number h' => cases h'
    | _ => exact ⟨rfl, rfl⟩
  | number h =>
    cases h' with
    | number => exact ⟨rfl, rfl⟩
    | _ => cases h
  | string h =>
    cases h' with
    | number h' => cases h'
    | string h' =>
      cases h.symm.trans h'
      exact ⟨rfl, rfl⟩
  | empty h =>
    cases h' with
    | number h' => cases h'
    | empty h' =>
      cases h.symm.trans h'
      exact ⟨rfl, rfl⟩
    | array hitems' => exact absurd (h ▸ hitems') not_items_bracket
  | array hitems =>
    cases h' with
    | number h' => cases h'
    | empty h' => exact absurd (h' ▸ hitems) not_items_bracket
    | array hitems' =>
      obtain ⟨rfl, rfl⟩ := hitems.unique hitems'
      exact ⟨rfl, rfl⟩
  | bare h =>
    cases h' with
    | number h' => cases h'
    | bare h' =>
      cases h.symm.trans h'
      exact ⟨rfl, rfl⟩
    | object hmembers' => exact absurd (h ▸ hmembers') not_members_brace
  | object hmembers =>
    cases h' with
    | number h' => cases h'
    | bare h' => exact absurd (h' ▸ hmembers) not_members_brace
    | object hmembers' =>
      obtain ⟨rfl, rfl⟩ := hmembers.unique hmembers'
      exact ⟨rfl, rfl⟩

theorem Items.unique {cs rest rest' : List Char} {a b : List Json} (h : Items cs a rest)
    (h' : Items cs b rest') : a = b ∧ rest = rest' := by
  cases h with
  | last hitem hend =>
    cases h' with
    | last hitem' hend' =>
      obtain ⟨rfl, rfl⟩ := hitem.unique hitem'
      cases hend.symm.trans hend'
      exact ⟨rfl, rfl⟩
    | more hitem' hcomma' =>
      obtain ⟨rfl, rfl⟩ := hitem.unique hitem'
      cases hend.symm.trans hcomma'
  | more hitem hcomma hitems =>
    cases h' with
    | last hitem' hend' =>
      obtain ⟨rfl, rfl⟩ := hitem.unique hitem'
      cases hcomma.symm.trans hend'
    | more hitem' hcomma' hitems' =>
      obtain ⟨rfl, rfl⟩ := hitem.unique hitem'
      cases hcomma.symm.trans hcomma'
      obtain ⟨rfl, rfl⟩ := hitems.unique hitems'
      exact ⟨rfl, rfl⟩

theorem Member.unique {cs rest rest' : List Char} {a b : String × Json} (h : Member cs a rest)
    (h' : Member cs b rest') : a = b ∧ rest = rest' := by
  cases h with
  | mk hname hcolon hvalue =>
    cases h' with
    | mk hname' hcolon' hvalue' =>
      cases hname.symm.trans hname'
      cases hcolon.symm.trans hcolon'
      obtain ⟨rfl, rfl⟩ := hvalue.unique hvalue'
      exact ⟨rfl, rfl⟩

theorem Members.unique {cs rest rest' : List Char} {a b : List (String × Json)} (h : Members cs a rest)
    (h' : Members cs b rest') : a = b ∧ rest = rest' := by
  cases h with
  | last hmember hend =>
    cases h' with
    | last hmember' hend' =>
      obtain ⟨rfl, rfl⟩ := hmember.unique hmember'
      cases hend.symm.trans hend'
      exact ⟨rfl, rfl⟩
    | more hmember' hcomma' =>
      obtain ⟨rfl, rfl⟩ := hmember.unique hmember'
      cases hend.symm.trans hcomma'
  | more hmember hcomma hmembers =>
    cases h' with
    | last hmember' hend' =>
      obtain ⟨rfl, rfl⟩ := hmember.unique hmember'
      cases hcomma.symm.trans hend'
    | more hmember' hcomma' hmembers' =>
      obtain ⟨rfl, rfl⟩ := hmember.unique hmember'
      cases hcomma.symm.trans hcomma'
      obtain ⟨rfl, rfl⟩ := hmembers.unique hmembers'
      exact ⟨rfl, rfl⟩

end

theorem spells_unique {text : String} {a b : Json} (h : Spells text a) (h' : Spells text b) :
    a = b := by
  obtain ⟨rest, hvalue, -⟩ := h
  obtain ⟨rest', hvalue', -⟩ := h'
  exact (hvalue.unique hvalue').1

end Json

end ServiceRegistry.Text
