import ServiceRegistry.Key.Endpoint
import ServiceRegistry.Store.Lease
import ServiceRegistry.Lock

/-!
# Registration

A registry registers at most one instance of a service: the key of the instance is attached to a lease
that is renewed until the instance is unregistered or the lease is lost. The registrar publishes each
status of the registration and changes it under a fair lock. A renewal does not take the lock: it
publishes the loss of its lease, and only while the registration is that of its lease.
-/
namespace ServiceRegistry

/-- The status of the registration of a registry. -/
inductive LeaseStatus where
  | unregistered
  /-- A lease is granted and the key attached. -/
  | registering
  /-- The key is attached and its lease is renewed. -/
  | registered (key : EndpointKey) (lease : LeaseId)
  /-- The key is removed. -/
  | unregistering
  /-- The lease is renewed no more; the store has dropped the key or will drop it. -/
  | lost (key : EndpointKey) (lease : LeaseId)
  deriving DecidableEq

namespace LeaseStatus

/-- The instance of a live or lost registration. -/
def key? : LeaseStatus → Option EndpointKey
  | registered key _ | lost key _ => some key
  | _ => none

/-- The lease of a live or lost registration. -/
def lease? : LeaseStatus → Option LeaseId
  | registered _ lease | lost _ lease => some lease
  | _ => none

def isLost : LeaseStatus → Bool
  | lost _ _ => true
  | _ => false

end LeaseStatus

/-- A registration and the number of the activity that renews its lease. -/
structure Active where
  key : EndpointKey
  lease : LeaseId
  renewal : Nat
  deriving DecidableEq

/-- The registration of a registry. -/
structure Registrar where
  lock : Lock
  active : Option Active
  /-- The statuses that were published, newest first. -/
  published : List LeaseStatus

namespace Registrar

def idle : Registrar := ⟨Lock.free, none, []⟩

/-- The newest status. -/
def status (registrar : Registrar) : LeaseStatus := registrar.published.headD .unregistered

def publish (registrar : Registrar) (status : LeaseStatus) : Registrar :=
  { registrar with published := status :: registrar.published }

/-- The address of a live or lost registration. -/
def target? (registrar : Registrar) : Option String := registrar.status.key?.map (·.address)

/-- The renewal of a lease has stopped. -/
def lose (registrar : Registrar) (key : EndpointKey) (lease : LeaseId) : Registrar :=
  match registrar.status with
  | .registered _ live => if live = lease then registrar.publish (.lost key lease) else registrar
  | _ => registrar

end Registrar

end ServiceRegistry
