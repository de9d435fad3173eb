import ServiceRegistry.Key.Service
import ServiceRegistry.Text.Number

/-!
# Endpoint keys

An instance of a service is known by its service and the address it listens on. Its key in the store
is `root/service/address`; `make` builds the key of a host and a port, and `parse` reads a key of the
store back by cutting it at its last slash.
-/
namespace ServiceRegistry

/-- The identity of one instance of a service. -/
structure EndpointKey where
  service : ServiceKey
  address : String
  deriving DecidableEq

namespace EndpointKey

/-- The address of a port of a host. -/
def addressOf (host : String) (port : Nat) : String :=
  host ++ ":" ++ String.ofList (Text.Decimal.digits port)

/-- The key of the instance of `name` at `host:port`. -/
def make (root name host : String) (port : Nat) : Except Error EndpointKey :=
  (ServiceKey.make root name).map fun service => ⟨service, addressOf host port⟩

/-- The key as it stands in the store. -/
def text (key : EndpointKey) : String := key.service.text ++ "/" ++ key.address

instance : Hashable EndpointKey := ⟨fun key => mixHash (hash key.service) (hash key.address)⟩

/-- The instance whose key in the store is `key`: behind the last slash stands a nonempty address,
before it the root, a slash and a nonempty name without a slash. -/
def parse (root key : String) : Except Error EndpointKey :=
  match Text.cutLast '/' key.toList with
  | none => .error (.malformedKey key)
  | some (service, address) =>
    match root.toList.isPrefixOf? service with
    | some ('/' :: name) =>
      if h : name ≠ [] ∧ '/' ∉ name ∧ address ≠ [] then
        .ok ⟨⟨root, String.ofList name, by simpa using h.1, by simpa using h.2.1⟩,
          String.ofList address⟩
      else .error (.malformedKey key)
    | _ => .error (.malformedKey key)

/-- A key that cannot be read is reported as it stands. -/
theorem parse_eq_error {root key : String} {e : Error} (h : parse root key = .error e) :
    e = .malformedKey key := by
  unfold parse at h
  split at h
  · simpa using h.symm
  · split at h
    · split at h
      · simp at h
      · simpa using h.symm
    · simpa using h.symm

end EndpointKey

end ServiceRegistry
