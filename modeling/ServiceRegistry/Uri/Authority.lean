/-!
# Authorities

The part of a URI that names a host: perhaps a user in front of an `@`, then a name, a number or an
address in brackets, then perhaps a port. The check reads the text once, from left to right. What it
has counted is forgotten at an `@`, because it belonged to the user, and at the end of an address in
brackets, because the colons of the address are not the one in front of a port.
-/
namespace ServiceRegistry.Uri

/-- What is known of the part of an authority that has been read. -/
structure Scan where
  /-- Colons since the last `@` or closing bracket. -/
  colons : Nat
  /-- A bracket was opened. -/
  opened : Bool
  /-- A bracket was closed. -/
  closed : Bool
  /-- A percent sign stands outside of user and brackets. -/
  percent : Bool
  /-- The last character is an `@`. -/
  atUserEnd : Bool
  deriving DecidableEq, Repr

namespace Scan

def start : Scan := ⟨0, false, false, false, false⟩

/-- An address in brackets has up to eight colons. -/
def maxColons : Nat := 8

/-- Characters that stand for themselves: letters, digits, and the marks that have no meaning in a URI or
separate the parts of a name. -/
def isPlain (c : Char) : Bool := c.isAlphanum || "!$&'()*+,-.;=_~".toList.contains c

/-- Reads one more character, unless it cannot stand here. -/
def step (scan : Scan) (c : Char) : Option Scan :=
  let scan := { scan with atUserEnd := c = '@' }
  if isPlain c then some scan
  else if c = ':' then
    if scan.colons < maxColons then some { scan with colons := scan.colons + 1 } else none
  -- an address in brackets comes once, and not behind a percent sign of the name
  else if c = '[' then
    if scan.percent || scan.opened then none else some { scan with opened := true }
  else if c = ']' then
    if !scan.opened || scan.closed then none
    else some { scan with closed := true, colons := 0, percent := false }
  else if c = '@' then some { scan with colons := 0, percent := false }
  -- encoded characters may stand in the user and in an address in brackets, and nowhere else
  else if c = '%' then some { scan with percent := true }
  else none

/-- Whether an authority can end here. -/
def isComplete (scan : Scan) : Bool :=
  scan.opened = scan.closed && decide (scan.colons ≤ 1) && !scan.atUserEnd && !scan.percent

end Scan

/-- Whether a text is an authority. -/
def isAuthority (cs : List Char) : Bool :=
  cs ≠ [] && match cs.foldlM Scan.step Scan.start with
    | some scan => scan.isComplete
    | none => false

example : isAuthority "10.0.0.1:9000".toList = true := by decide
example : isAuthority "[::1]:80".toList = true := by decide
example : isAuthority "a:b:80".toList = false := by decide
example : isAuthority "user:%41@host".toList = true ∧ isAuthority "ho%41st".toList = false := by decide

end ServiceRegistry.Uri
