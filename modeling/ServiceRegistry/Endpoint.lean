import ServiceRegistry.Config
import ServiceRegistry.Key.Endpoint
import ServiceRegistry.Uri.Basic

/-!
# Endpoints

An endpoint is what a dialer gets: the URI of an instance, a limit for connecting to it and whatever else
can be set. It is built from the address of the instance, the limit of the configuration and the dial
options, which are applied in the order in which they were added, behind the limit: `build_eq_ok_iff` says
so in full. A connection knows what it was made for and the endpoints over which it spreads calls. What a
dialer answers may change with time.
-/
namespace ServiceRegistry

/-- Where and how to connect. -/
structure Endpoint where
  uri : Uri
  connectTimeout : Option Duration
  /-- Everything else that can be set, by name. Only dial options set it, and only dialers look at it. -/
  settings : List (String × String)
  deriving DecidableEq, Repr

/-- A change that is made to every endpoint before it is dialed. -/
structure DialOption where
  tag : String
  apply : Endpoint → Endpoint

namespace DialOption

/-- An option that changes nothing. -/
def observing (tag : String) : DialOption := ⟨tag, id⟩

/-- An option that sets the limit for connecting. -/
def limiting (tag : String) (limit : Duration) : DialOption :=
  ⟨tag, fun endpoint => { endpoint with connectTimeout := some limit }⟩

/-- An option that sets something else, in the place of what was set by that name before. -/
def setting (tag name value : String) : DialOption :=
  ⟨tag, fun endpoint => { endpoint with
    settings := (name, value) :: endpoint.settings.filter fun setting => setting.1 ≠ name }⟩

/-- An option that puts an endpoint of its own, with nothing set, in the place of any other. -/
def redirecting (tag : String) (uri : Uri) : DialOption := ⟨tag, fun _ => ⟨uri, none, []⟩⟩

end DialOption

/-- Something that happens to an endpoint on its way to a connection. -/
inductive EndpointEvent where
  /-- A dial option sees the endpoint. -/
  | option (tag : String) (uri : Uri)
  /-- The endpoint is dialed. -/
  | dial (endpoint : Endpoint)
  deriving DecidableEq, Repr

namespace Endpoint

/-- The endpoint of an address, before any option. -/
def ofAddress (address : String) (connectTimeout : Option Duration) : Except Error Endpoint :=
  (Uri.ofAddress address).map fun uri => ⟨uri, connectTimeout, []⟩

/-- The endpoint after all options. -/
def applyAll (options : List DialOption) (endpoint : Endpoint) : Endpoint :=
  options.foldl (fun endpoint option => option.apply endpoint) endpoint

/-- What each option sees. -/
def optionTrail : List DialOption → Endpoint → List EndpointEvent
  | [], _ => []
  | option :: options, endpoint =>
    .option option.tag endpoint.uri :: optionTrail options (option.apply endpoint)

/-- The endpoint that is dialed for an address. -/
def build (address : String) (connectTimeout : Option Duration) (options : List DialOption) :
    Except Error Endpoint :=
  (ofAddress address connectTimeout).map (applyAll options)

/-- What happens while the endpoint of an address is built. An address that is no authority is met by
no option. -/
def buildTrail (address : String) (connectTimeout : Option Duration) (options : List DialOption) :
    List EndpointEvent :=
  match ofAddress address connectTimeout with
  | .ok endpoint => optionTrail options endpoint
  | .error _ => []

@[simp] theorem applyAll_nil (endpoint : Endpoint) : applyAll [] endpoint = endpoint := rfl

@[simp] theorem applyAll_cons (option : DialOption) (options : List DialOption) (endpoint : Endpoint) :
    applyAll (option :: options) endpoint = applyAll options (option.apply endpoint) := rfl

theorem applyAll_append (options extra : List DialOption) (endpoint : Endpoint) :
    applyAll (options ++ extra) endpoint = applyAll extra (applyAll options endpoint) :=
  List.foldl_append

/-- An endpoint is built just from an address that is an authority. It starts with the URI of the address
and the limit, and goes through the options one after the other. -/
theorem build_eq_ok_iff {address : String} {connectTimeout : Option Duration}
    {options : List DialOption} {endpoint : Endpoint} :
    build address connectTimeout options = .ok endpoint ↔
      ∃ uri, Uri.ofAddress address = .ok uri ∧
        endpoint = options.foldl (fun endpoint option => option.apply endpoint)
          ⟨uri, connectTimeout, []⟩ := by
  unfold build ofAddress
  cases Uri.ofAddress address with
  | error e => simp [Except.map]
  | ok uri => simp [Except.map, applyAll, eq_comm]

end Endpoint

/-- A connection to one instance, or spread over several. -/
structure Connection where
  /-- What the connection was made for. -/
  target : String
  endpoints : List Endpoint
  deriving DecidableEq, Repr

namespace Connection

/-- The target of a connection to all instances of a service. -/
def balancedTarget (service : ServiceKey) : String := "etcd:///" ++ service.text

/-- The description of a connection, which shows its target only. -/
def describe (connection : Connection) : String :=
  "Connection \x7b target: " ++ Text.quote connection.target ++ ", .. \x7d"

end Connection

/-- A dialer lets an endpoint wait and then connects or refuses. What it does depends on the endpoint and
on the time of the dial, so an instance may be refused now and connected to later. -/
structure Dialer where
  /-- Milliseconds until a dial that is made at a time is answered. -/
  delay (time : Nat) (endpoint : Endpoint) : Nat
  accepts (time : Nat) (endpoint : Endpoint) : Bool

namespace Dialer

/-- A dialer that connects on first use, so that no dial fails. -/
def onFirstUse : Dialer := ⟨fun _ _ => 0, fun _ _ => true⟩

/-- A dialer that connects at once where nobody listens, so that every dial fails. -/
def refusing : Dialer := ⟨fun _ _ => 0, fun _ _ => false⟩

/-- The dialer, for some authorities with a delay of their own and for all others with a common one. -/
def delaying (dialer : Dialer) (delays : List (String × Nat)) (delay : Nat) : Dialer :=
  { dialer with delay := fun time endpoint =>
      dialer.delay time endpoint + (delays.lookup endpoint.uri.authority).getD delay }

/-- The dialer, with some authorities refused. -/
def refusingAll (dialer : Dialer) (authorities : List String) : Dialer :=
  { dialer with accepts := fun time endpoint =>
      !authorities.contains endpoint.uri.authority && dialer.accepts time endpoint }

end Dialer

end ServiceRegistry
