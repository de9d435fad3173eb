import ServiceRegistry.Duration
import ServiceRegistry.Text.Parts
import ServiceRegistry.Text.Number

/-!
# Configuration

What a registry has to know before it starts: the root of all its keys, the members of the store's
cluster, three timeouts and the time-to-live of its lease. From the latter follow the number of
seconds that the store is asked for and the interval at which the lease is renewed.
-/
namespace ServiceRegistry

/-- The configuration of a registry. -/
structure Config where
  /-- The directory of all services, without a slash at its end. -/
  root : String
  /-- Addresses of the members of the store's cluster. -/
  endpoints : List String
  /-- Limit for connecting to the store. -/
  dialTimeout : Option Duration
  /-- Time-to-live of the lease of a registration. -/
  leaseTtl : Duration
  /-- Limit for connecting to an instance of a service. -/
  connectTimeout : Option Duration
  deriving DecidableEq, Repr

namespace Config

def defaultDialTimeout : Duration := Duration.ofSecs 5

def defaultLeaseTtl : Duration := Duration.ofSecs 30

/-- The shortest time-to-live that the setter accepts. -/
def shortestLeaseTtl : Duration := Duration.ofSecs 1

/-- The directory that a text names: slashes at its end do not count. -/
def rootOf (text : String) : String := String.ofList (Text.dropTrailing (· = '/') text.toList)

/-- The default configuration for a root and the members of a cluster. -/
def make (root : String) (endpoints : List String) : Config where
  root := rootOf root
  endpoints := endpoints
  dialTimeout := some defaultDialTimeout
  leaseTtl := defaultLeaseTtl
  connectTimeout := none

def withDialTimeout (config : Config) (limit : Duration) : Config :=
  { config with dialTimeout := some limit }

/-- A time-to-live below a second is raised to one. -/
def withLeaseTtl (config : Config) (ttl : Duration) : Config :=
  { config with leaseTtl := ttl.longer shortestLeaseTtl }

def withConnectTimeout (config : Config) (limit : Duration) : Config :=
  { config with connectTimeout := some limit }

/-- The time-to-live of the lease in whole seconds, as far as the store can count them. -/
def leaseTtlSecs (config : Config) : Nat := min config.leaseTtl.secs Word.maxSigned

/-- Three renewals fall into the time-to-live of a lease, which is taken to be a second at least. -/
def renewalInterval (ttlSecs : Nat) : Duration := ⟨(Duration.ofSecs (max 1 ttlSecs)).nanos / 3⟩

/-- What the keys of all services start with. -/
def directory (config : Config) : String := config.root ++ "/"

end Config

end ServiceRegistry
