import ServiceRegistry.Store.Basic

/-!
# The heartbeat of a lease

A stream of renewals as it works inside. It waits for two things at once: for a ticker, which rings at fixed
distances and makes up for every ring that came too late, and for the end of the lease. A look at the stream
tries the two branches in either order and takes the first that is ready. When the ticker has rung, it is
asked once more whether the lease is still there. To a reader who looks at whole milliseconds this is the
stream that `Store.pullRenewal` reads.
-/
namespace ServiceRegistry

/-- Rings at a time and then at fixed distances. It is a timer of the runtime, with what is documented of
it: the first ring comes at the time that was given for it, and rings that were missed are made up for in a
burst. -/
structure Ticker where
  /-- The time of the next ring. -/
  next : Duration
  period : Duration
  deriving DecidableEq, Repr

namespace Ticker

/-- Whether the next ring has come. Timers have the resolution of a millisecond: one that is set for a time
within a millisecond goes off in the next whole one, since it must not be early. -/
def hasRung (ticker : Ticker) (now : Duration) : Bool := ticker.next.ceilMillis ≤ now.millis

/-- The ticker after a ring. The next ring comes a period after the time for which this one was set, not
after the time at which it was heard, so one that is already due then comes at once. -/
def advance (ticker : Ticker) : Ticker :=
  { ticker with next := ⟨ticker.next.nanos + ticker.period.nanos⟩ }

end Ticker

/-- An acknowledged renewal of a lease. -/
structure Ack where
  lease : LeaseId
  /-- The time-to-live in seconds that the renewal grants. -/
  ttl : Int
  deriving DecidableEq, Repr

/-- The state of a stream of renewals. -/
structure Heartbeat where
  lease : LeaseId
  ttl : Int
  ticker : Ticker
  deriving DecidableEq, Repr

namespace Heartbeat

/-- What a stream of renewals waits for. -/
inductive Branch where
  | tick
  /-- The end of the lease. -/
  | ending
  deriving DecidableEq, Repr

def Branch.other : Branch → Branch
  | .tick => .ending
  | .ending => .tick

/-- Opens the stream of renewals of a live lease. The first renewal is due at once. -/
def openAt (store : Store) (now : Duration) (lease : LeaseId) (interval : Duration) :
    Except Error Heartbeat := do
  store.check
  match store.ttl? lease with
  | some ttl => return ⟨lease, ttl, now, interval.longer Renewal.shortestInterval⟩
  | none => throw (.leaseNotFound lease.number)

/-- What comes of a branch, if it is ready. -/
def tryBranch (beat : Heartbeat) (store : Store) (now : Duration) :
    Branch → Option (Pull Heartbeat Ack)
  | .tick =>
    if beat.ticker.hasRung now then
      if store.isLive beat.lease then
        some (.item (.ok ⟨beat.lease, beat.ttl⟩) { beat with ticker := beat.ticker.advance })
      else some .finished
    else none
  | .ending => if store.isLive beat.lease then none else some .finished

/-- A look at the stream that tries the given branch first. Which branch that is is drawn by lot, and if both
are ready the other one is not taken. -/
def poll (beat : Heartbeat) (store : Store) (now : Duration) (first : Branch) : Pull Heartbeat Ack :=
  ((beat.tryBranch store now first).or (beat.tryBranch store now first.other)).getD .waiting

end Heartbeat

end ServiceRegistry
