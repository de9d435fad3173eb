import ServiceRegistry.Config

/-!
# Lease times in machine words

A machine holds a duration as whole seconds, in a word of 64 bits, and the nanoseconds beyond them, in one of
32. `ttlWord` and `intervalWords?` compute the time-to-live of a lease and the interval of its renewals from
such words, with one operation of the machine after the other. A result that its word cannot hold is none.
-/
namespace ServiceRegistry

namespace Word

def add? (a b : UInt64) : Option UInt64 := if a.toNat + b.toNat < count then some (a + b) else none

def mul? (a b : UInt64) : Option UInt64 := if a.toNat * b.toNat < count then some (a * b) else none

/-- The sum of two halves of a word. -/
def addHalves? (a b : UInt32) : Option UInt32 :=
  if a.toNat + b.toNat < UInt32.size then some (a + b) else none

/-- The number as one with a sign, or the largest of these. -/
def toSigned (a : UInt64) : Int64 :=
  if a.toNat ≤ maxSigned then Int64.ofInt a.toNat else Int64.maxValue

/-- The number without a sign, unless it is negative. -/
def toUnsigned? (a : Int64) : Option UInt64 :=
  if 0 ≤ a.toInt then some (UInt64.ofNat a.toInt.toNat) else none

end Word

/-- A duration in machine words. -/
structure Duration.Words where
  secs : UInt64
  nanos : UInt32
  nanos_lt : nanos.toNat < Duration.perSecond

namespace Duration.Words

/-- The duration that the words stand for. -/
def value (d : Words) : Duration := .ofParts d.secs.toNat d.nanos.toNat

def ofSecs (secs : UInt64) : Words := ⟨secs, 0, by decide⟩

/-- Nanoseconds that make whole seconds are carried over to these. -/
def carry? (secs : UInt64) (nanos : UInt32) : Option Words :=
  (Word.add? secs (nanos / 1000000000).toUInt64).map fun secs =>
    ⟨secs, nanos % 1000000000, by
      rw [UInt32.toNat_mod]
      exact Nat.mod_lt _ (by decide)⟩

/-- The seconds are compared before the nanoseconds. -/
def longer (d e : Words) : Words :=
  if d.secs < e.secs ∨ d.secs = e.secs ∧ d.nanos ≤ e.nanos then e else d

/-- The seconds are divided first. What is left of them is divided together with what is left of the
nanoseconds. -/
def dividedBy? (d : Words) (n : UInt32) : Option Words :=
  if n = 0 then none
  else do
    let scaled ← Word.mul? (d.secs % n.toUInt64) 1000000000
    let left ← Word.add? scaled (d.nanos % n).toUInt64
    let nanos ← Word.addHalves? (d.nanos / n) (left / n.toUInt64).toUInt32
    carry? (d.secs / n.toUInt64) nanos

end Duration.Words

namespace Config

/-- The time-to-live that is asked for a lease. -/
def ttlWord (leaseTtl : Duration.Words) : Int64 := Word.toSigned leaseTtl.secs

/-- The interval at which a lease is renewed. A time-to-live that is not positive counts as a second. -/
def intervalWords? (ttl : Int64) : Option Duration.Words :=
  let secs := (Word.toUnsigned? ttl).getD 1
  (Duration.Words.ofSecs (if 1 < secs then secs else 1)).dividedBy? 3

end Config

end ServiceRegistry
