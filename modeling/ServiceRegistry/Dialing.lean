import ServiceRegistry.Endpoint
import ServiceRegistry.Store.Basic

/-!
# Dialing

From the rows of a store to connections. The keys that can be read under the root are the instances;
each is built into an endpoint and dialed, and one that cannot be built or is refused is left out, to
the harm of no other. The connections of a service stand in the order of the keys.
-/
namespace ServiceRegistry

/-- The instances that rows are about. Rows with other keys are passed over. -/
def EndpointKey.ofRows (root : String) (rows : List Row) : List EndpointKey :=
  rows.filterMap fun row => (EndpointKey.parse root row.key).toOption

/-- The instances of one service. -/
def ServiceKey.instances (service : ServiceKey) (keys : List EndpointKey) : List EndpointKey :=
  keys.filter fun key => key.service = service

/-- All that a dial depends on apart from the instance. -/
structure Dialing where
  dialer : Dialer
  connectTimeout : Option Duration
  options : List DialOption
  /-- When the dial is made. -/
  time : Nat

namespace Dialing

/-- The endpoint that is dialed for an instance, if one can be built. -/
def endpoint? (dialing : Dialing) (key : EndpointKey) : Option Endpoint :=
  (Endpoint.build key.address dialing.connectTimeout dialing.options).toOption

/-- The connection to an instance, if it can be built and is not refused. -/
def connect? (dialing : Dialing) (key : EndpointKey) : Option Connection :=
  (dialing.endpoint? key).bind fun endpoint =>
    if dialing.dialer.accepts dialing.time endpoint then some ⟨key.address, [endpoint]⟩ else none

/-- An instance is connected to if its endpoint can be built and is not refused. -/
theorem connect?_eq_some_iff {dialing : Dialing} {key : EndpointKey} {connection : Connection} :
    dialing.connect? key = some connection ↔
      ∃ endpoint, Endpoint.build key.address dialing.connectTimeout dialing.options = .ok endpoint ∧
        dialing.dialer.accepts dialing.time endpoint = true ∧
        connection = ⟨key.address, [endpoint]⟩ := by
  unfold connect? endpoint?
  cases Endpoint.build key.address dialing.connectTimeout dialing.options with
  | error e => simp [Except.toOption]
  | ok endpoint =>
    cases h : dialing.dialer.accepts dialing.time endpoint with
    | false => simp [Except.toOption, h]
    | true =>
      simp only [Except.toOption, Option.bind_some, h, if_true, Option.some.injEq, Except.ok.injEq]
      constructor
      · rintro rfl
        exact ⟨endpoint, rfl, h, rfl⟩
      · rintro ⟨built, rfl, -, rfl⟩
        rfl

/-- The connections to the instances of one service. -/
def connections (dialing : Dialing) (keys : List EndpointKey) (service : ServiceKey) :
    List Connection :=
  (service.instances keys).filterMap dialing.connect?

/-- What comes of the dials of instances, all made at once, in the order of the instances. -/
def dialAll (dialing : Dialing) (keys : List EndpointKey) : List (Option Connection) :=
  keys.map dialing.connect?

/-- Adds what came of the dial of an instance to the connections of its service. -/
def file (entries : List (ServiceKey × List Connection)) (dialed : EndpointKey × Option Connection) :
    List (ServiceKey × List Connection) :=
  entries.map fun entry =>
    if entry.1 = dialed.1.service then (entry.1, entry.2 ++ dialed.2.toList) else entry

/-- The connections to all instances, by service. Every service that has an instance has an entry, and
what came of the dials is added to the entries one after the other. -/
def byService (dialing : Dialing) (keys : List EndpointKey) : List (ServiceKey × List Connection) :=
  (keys.zip (dialing.dialAll keys)).foldl file
    ((ServiceKey.sorted (keys.map (·.service))).map fun service => (service, []))

/-- The connections of a service among those of all services. -/
def listed (entries : List (ServiceKey × List Connection)) (service : ServiceKey) : List Connection :=
  (entries.lookup service).getD []

/-- A connection over all instances of a service. It connects on first use, so nothing is dialed. -/
def balanced (dialing : Dialing) (keys : List EndpointKey) (service : ServiceKey) :
    Except Error Connection :=
  match (service.instances keys).filterMap dialing.endpoint? with
  | [] => .error (.noEndpoints service.text)
  | endpoints => .ok ⟨Connection.balancedTarget service, endpoints⟩

/-- What happens while the endpoint of an instance is built. -/
def buildTrail (dialing : Dialing) (key : EndpointKey) : List EndpointEvent :=
  Endpoint.buildTrail key.address dialing.connectTimeout dialing.options

/-- What happens while an instance is dialed. -/
def dialTrail (dialing : Dialing) (key : EndpointKey) : List EndpointEvent :=
  dialing.buildTrail key ++ ((dialing.endpoint? key).map EndpointEvent.dial).toList

/-- Milliseconds until the last of the instances, all dialed at once, is answered. -/
def delay (dialing : Dialing) (keys : List EndpointKey) : Nat :=
  ((keys.filterMap dialing.endpoint?).map (dialing.dialer.delay dialing.time)).foldl max 0

end Dialing

end ServiceRegistry
