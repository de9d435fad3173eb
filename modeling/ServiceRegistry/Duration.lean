/-!
# Durations

A duration is a number of nanoseconds. Whole seconds and the nanoseconds beyond them are its two
parts, `text` writes it in the largest unit in which it is at least one, and `ceilMillis` is the
time on a clock of milliseconds that is not before it.
-/
namespace ServiceRegistry

/-- A span of time, counted in nanoseconds. -/
structure Duration where
  nanos : Nat
  deriving DecidableEq, Repr, Inhabited

namespace Duration

def perMilli : Nat := 1000000

def perSecond : Nat := 1000000000

def ofSecs (secs : Nat) : Duration := ⟨secs * perSecond⟩

def ofMillis (millis : Nat) : Duration := ⟨millis * perMilli⟩

/-- Seconds and nanoseconds; more than a second of nanoseconds is carried over. -/
def ofParts (secs nanos : Nat) : Duration := ⟨secs * perSecond + nanos⟩

/-- The whole seconds. -/
def secs (d : Duration) : Nat := d.nanos / perSecond

/-- The nanoseconds beyond the whole seconds. -/
def subsecNanos (d : Duration) : Nat := d.nanos % perSecond

/-- The whole milliseconds. -/
def millis (d : Duration) : Nat := d.nanos / perMilli

/-- The first whole millisecond that is not before the end of the duration. -/
def ceilMillis (d : Duration) : Nat := (d.nanos + (perMilli - 1)) / perMilli

/-- The longer of two durations. -/
def longer (d e : Duration) : Duration := if d.nanos ≤ e.nanos then e else d

/-- A whole millisecond is not before the duration just if it is not before `ceilMillis`. -/
theorem ceilMillis_le_iff {d : Duration} {t : Nat} :
    d.ceilMillis ≤ t ↔ d.nanos ≤ t * perMilli := by
  simp only [ceilMillis, perMilli]
  omega

/-- The decimal digits of `n`, with zeros in front up to `width` of them. -/
def padded (width n : Nat) : List Char :=
  let ds := Nat.toDigits 10 n
  List.replicate (width - ds.length) '0' ++ ds

/-- A number of units with the part of one more, in tenths to the power of `width`, as a decimal
fraction without zeros at its end. -/
def decimalText (whole part width : Nat) : List Char :=
  let fraction := ((padded width part).reverse.dropWhile (· = '0')).reverse
  Nat.toDigits 10 whole ++ (if fraction = [] then [] else '.' :: fraction)

/-- The exact duration in seconds if it lasts one, else in the largest smaller unit of a thousand
that it reaches. -/
def text (d : Duration) : String :=
  String.ofList <|
    if perSecond ≤ d.nanos then decimalText d.secs d.subsecNanos 9 ++ ['s']
    else if perMilli ≤ d.nanos then
      decimalText (d.nanos / perMilli) (d.nanos % perMilli) 6 ++ ['m', 's']
    else if 1000 ≤ d.nanos then decimalText (d.nanos / 1000) (d.nanos % 1000) 3 ++ ['µ', 's']
    else decimalText d.nanos 0 0 ++ ['n', 's']

example : (ofParts 2 340000000).text = "2.34s" := by decide +kernel
example : (Duration.mk 120034000).text = "120.034ms" := by decide +kernel
example : (Duration.mk 1500).text = "1.5µs" ∧ (Duration.mk 0).text = "0ns" := by decide +kernel

end Duration

end ServiceRegistry
