import ServiceRegistry.Config
import ServiceRegistry.Text.Parts
import ServiceRegistry.Text.Number

/-!
# Configuration from the environment

Four variables set the root, the members of the cluster, the limit for connecting to the store in
milliseconds and the time-to-live of the lease in seconds. A value that is no text counts as unset,
and so does a number that cannot be read.
-/
namespace ServiceRegistry

/-- The texts of the four variables, `none` for one that is unset. -/
structure Environment where
  root : Option String
  endpoints : Option String
  dialTimeoutMillis : Option String
  leaseTtlSecs : Option String
  deriving DecidableEq, Repr

namespace Environment

def rootName : String := "REGISTRY_ROOT"

def endpointsName : String := "ETCD_ENDPOINTS"

def dialTimeoutName : String := "REGISTRY_DIAL_TIMEOUT_MS"

def leaseTtlName : String := "REGISTRY_LEASE_TTL_SECS"

/-- The environment in which each variable has the given bytes. Bytes that are no UTF-8 count as
unset. -/
def ofBytes (value? : String → Option ByteArray) : Environment :=
  let text? (name : String) : Option String := (value? name).bind String.fromUTF8?
  ⟨text? rootName, text? endpointsName, text? dialTimeoutName, text? leaseTtlName⟩

/-- The bytes of the variables of an environment. -/
def toBytes (env : Environment) (name : String) : Option ByteArray :=
  let text? :=
    if name = rootName then env.root
    else if name = endpointsName then env.endpoints
    else if name = dialTimeoutName then env.dialTimeoutMillis
    else if name = leaseTtlName then env.leaseTtlSecs
    else none
  text?.map String.toUTF8

def defaultRoot : String := "registry"

def defaultEndpoints : String := "127.0.0.1:2379"

/-- The number of 64 bits that a variable spells. -/
def number? (value : Option String) : Option Nat :=
  value.bind fun text => Text.Decimal.read? Word.count text.toList

/-- The addresses in a list separated by commas: blanks around them do not count, and neither do
empty ones. -/
def addresses (list : String) : List String :=
  (((Text.pieces ',' list.toList).map Text.trim).filter (· ≠ [])).map String.ofList

end Environment

/-- The configuration that an environment asks for. -/
def Config.ofEnvironment (env : Environment) : Config :=
  let config := Config.make (env.root.getD Environment.defaultRoot)
    (Environment.addresses (env.endpoints.getD Environment.defaultEndpoints))
  let config := match Environment.number? env.dialTimeoutMillis with
    | some millis => config.withDialTimeout (Duration.ofMillis millis)
    | none => config
  match Environment.number? env.leaseTtlSecs with
  | some secs => config.withLeaseTtl (Duration.ofSecs secs)
  | none => config

/-- The environment that asks for a configuration, as far as the four variables tell. -/
def Config.toEnvironment (config : Config) : Environment where
  root := some config.root
  endpoints := some (String.intercalate "," config.endpoints)
  dialTimeoutMillis := config.dialTimeout.map fun limit =>
    String.ofList (Text.Decimal.digits limit.millis)
  leaseTtlSecs := some (String.ofList (Text.Decimal.digits config.leaseTtl.secs))

end ServiceRegistry
