import ServiceRegistry.Duration
import ServiceRegistry.Text.Number

/-!
# Leases

A lease is known by a number that the store issues; its text is the number in base sixteen. A lease that
is kept alive is renewed at once and then at fixed intervals. Each renewal is acknowledged on a stream;
acknowledgements that are not read in time are kept for the reader.
-/
namespace ServiceRegistry

/-- The identity of a lease. -/
structure LeaseId where
  number : Int
  deriving DecidableEq, Repr, Inhabited, Hashable

/-- The number in two's complement of 64 bits, in base sixteen. -/
def LeaseId.text (lease : LeaseId) : String := String.ofList (Text.Hexadecimal.ofInt lease.number)

/-- The acknowledgements of the renewals of a lease. -/
structure Renewal where
  lease : LeaseId
  /-- The time-to-live in seconds that every renewal grants. -/
  ttl : Int
  /-- The time of the first renewal in milliseconds. -/
  opened : Nat
  interval : Duration
  /-- How many acknowledgements have been read. -/
  taken : Nat
  deriving DecidableEq, Repr

namespace Renewal

/-- Leases are not renewed more often than once in this time. -/
def shortestInterval : Duration := Duration.ofMillis 1

/-- Renewals of a lease from a time on. -/
def start (lease : LeaseId) (ttl : Int) (opened : Nat) (interval : Duration) : Renewal :=
  ⟨lease, ttl, opened, interval.longer shortestInterval, 0⟩

/-- The millisecond in which the next unread acknowledgement arrives: the clock shows a renewal in
the first millisecond that does not begin before it. -/
def due (renewal : Renewal) : Nat :=
  (Duration.mk ((Duration.ofMillis renewal.opened).nanos
    + renewal.taken * renewal.interval.nanos)).ceilMillis

end Renewal

end ServiceRegistry
