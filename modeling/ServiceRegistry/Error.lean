import ServiceRegistry.Duration
import ServiceRegistry.Text.Quoted

/-!
# Errors

The causes for which an operation of the registry or of its store fails, and the wording of each.
-/
namespace ServiceRegistry

/-- Why an operation failed. -/
inductive Error where
  /-- The service name is empty or holds a slash. -/
  | invalidServiceName (name : String)
  /-- The key is not of the form root, service and address. -/
  | malformedKey (key : String)
  /-- A registration is still live. -/
  | alreadyRegistered (endpoint : String)
  /-- There is no registration to remove. -/
  | notRegistered
  /-- No instance of the service can be reached. -/
  | noEndpoints (service : String)
  /-- The root key does not exist and must not be created. -/
  | rootMissing (root : String)
  /-- The store does not know the lease. -/
  | leaseNotFound (lease : Int)
  /-- The subscriber was too slow and lost batches. -/
  | watchLagged (skipped : Nat)
  /-- The operation did not end in time. -/
  | timeout (limit : Duration)
  /-- The registry or the store is closed. -/
  | closed
  /-- An address is no authority of a URI. -/
  | invalidUri
  /-- Any other failure of the store. -/
  | store (text : String)
  deriving DecidableEq, Repr, Inhabited

/-- The wording of an error. -/
def Error.message : Error → String
  | invalidServiceName name => "invalid service name " ++ Text.quote name
  | malformedKey key => "malformed endpoint key: " ++ key
  | alreadyRegistered endpoint => "already registered as " ++ endpoint
  | notRegistered => "no endpoint is registered"
  | noEndpoints service => "no endpoints registered for " ++ service
  | rootMissing root => "root node " ++ root ++ " does not exist"
  | leaseNotFound lease => "lease " ++ toString lease ++ " not found"
  | watchLagged skipped => "watch stream lagged, " ++ toString skipped ++ " batches skipped"
  | timeout limit => "operation timed out after " ++ limit.text
  | closed => "registry is closed"
  | invalidUri => "transport error: invalid URI"
  | store text => "coordination store error: " ++ text

end ServiceRegistry
