import ServiceRegistry.Client

/-!
# Probing a store

A probe finds out whether a store answers and holds the root key, and may create the key under a short
lease. The whole probe has a limit: a probe that still waits for the store when its time is over ends
there, and asks nothing more.
-/
namespace ServiceRegistry

namespace Probe

/-- How far a probe has come. -/
inductive Stage where
  | starting
  /-- The root key is read. -/
  | reading (flight : Flight .get)
  /-- A lease for the root key is granted. -/
  | granting (flight : Flight .grant)
  /-- The root key is written. -/
  | writing (flight : Flight .put)
  | finished (result : Except Error Unit)

end Probe

/-- A probe of a store. -/
structure Probe where
  root : String
  /-- Whether the root key is created if it does not exist. -/
  create : Bool
  limit : Duration
  /-- The millisecond in which the time of the probe is over. -/
  deadline : Nat
  stage : Probe.Stage

namespace Probe

/-- The time-to-live in seconds of the lease of a created root key. -/
def rootTtlSecs : Int := 10

/-- A probe that begins now. Timers have the resolution of a millisecond and are never early, so its time is
over in the first whole millisecond that does not lie before its limit. -/
def start (clock : Nat) (root : String) (create : Bool) (limit : Duration) : Probe :=
  ⟨root, create, limit, clock + limit.ceilMillis, .starting⟩

def result? (probe : Probe) : Option (Except Error Unit) :=
  match probe.stage with
  | .finished result => some result
  | _ => none

/-- The answer of the store for which the probe waits. -/
def answerDue (probe : Probe) : Option Nat :=
  match probe.stage with
  | .starting => some 0
  | .reading flight => some flight.due
  | .granting flight => some flight.due
  | .writing flight => some flight.due
  | .finished _ => none

/-- The time from which the probe can take a step. -/
def due (probe : Probe) : Option Nat := probe.answerDue.map fun due => min due probe.deadline

/-- What the probe does with an answer of the store. -/
def proceed (probe : Probe) (link : Link) : Stage × Link :=
  match probe.stage with
  | .starting =>
    let (flight, link) := link.send (.get probe.root)
    (.reading flight, link)
  | .reading flight =>
    match link.receive flight with
    | (.ok (some _), link) => (.finished (.ok ()), link)
    | (.ok none, link) =>
      if probe.create then
        let (flight, link) := link.send (.grant rootTtlSecs)
        (.granting flight, link)
      else (.finished (.error (.rootMissing probe.root)), link)
    | (.error e, link) => (.finished (.error e), link)
  | .granting flight =>
    match link.receive flight with
    | (.ok lease, link) =>
      let (flight, link) := link.send (.put probe.root "" (some lease))
      (.writing flight, link)
    | (.error e, link) => (.finished (.error e), link)
  | .writing flight =>
    let (answer, link) := link.receive flight
    (.finished answer, link)
  | .finished result => (.finished result, link)

/-- A step of the probe. An answer that comes in the last moment is still taken. -/
def step (probe : Probe) (link : Link) : Probe × Link :=
  if probe.answerDue.any (· ≤ link.clock) then
    let (stage, link) := probe.proceed link
    ({ probe with stage := stage }, link)
  else ({ probe with stage := .finished (.error (.timeout probe.limit)) }, link)

end Probe

end ServiceRegistry
