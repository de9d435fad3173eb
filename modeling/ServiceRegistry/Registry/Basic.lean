import ServiceRegistry.Dialing
import ServiceRegistry.Registry.Activity

/-!
# Registries

A registry combines the registration of one's own instance with the discovery of the instances of
others. It follows the changes of the store under its root in an activity that begins with it, the
watcher. A site is a registry together with its link to the store: all that a step of an activity can
read or change.
-/
namespace ServiceRegistry

/-- A registry. Activities are known by their places in the list; those that have ended stay in it. -/
structure Registry where
  config : Config
  dialer : Dialer
  cache : Cache
  /-- Lets one reading of the store at a time into the cache. -/
  gate : Lock
  registrar : Registrar
  closed : Bool
  activities : List Activity

namespace Registry

/-- The number of the watcher. -/
def watcher : Nat := 0

/-- A registry whose watcher has not begun. -/
def start (config : Config) (dialer : Dialer) : Registry where
  config := config
  dialer := dialer
  cache := Cache.empty
  gate := Lock.free
  registrar := Registrar.idle
  closed := false
  activities := [Activity.begin .starting]

/-- How the registry dials with some options at a time. -/
def dialing (registry : Registry) (options : List DialOption) (time : Nat) : Dialing :=
  ⟨registry.dialer, registry.config.connectTimeout, options, time⟩

/-- Fails once the registry is closed. -/
def ensureOpen (registry : Registry) : Except Error Unit :=
  if registry.closed then .error .closed else .ok ()

/-- Adds an activity. Its number is that of the activities before. -/
def begin (registry : Registry) (progress : Progress) : Registry :=
  { registry with activities := registry.activities ++ [Activity.begin progress] }

/-- Asks an activity to end. One that has ended is not concerned. -/
def cancel (registry : Registry) (who : Nat) : Registry :=
  { registry with activities := registry.activities.modify who fun activity =>
      { activity with cancelled := true } }

/-- Moves an activity on to a point. -/
def move (registry : Registry) (who : Nat) (progress : Progress) : Registry :=
  { registry with activities := registry.activities.modify who fun activity =>
      { activity with progress := progress } }

end Registry

/-- A registry and its link to the store. -/
structure Site extends Link where
  registry : Registry

namespace Site

variable {m : Method}

/-- Sends a request to the store. -/
def send (site : Site) (request : Request m) : Flight m × Site :=
  let (flight, link) := site.toLink.send request
  (flight, { site with toLink := link })

/-- Takes the answer to a request. -/
def receive (site : Site) (flight : Flight m) : Except Error (Answer m) × Site :=
  let (answer, link) := site.toLink.receive flight
  (answer, { site with toLink := link })

/-- Records what happens to endpoints. -/
def recordTrail (site : Site) (trail : List EndpointEvent) : Site :=
  { site with toLink := site.toLink.recordAll (trail.map .endpoint) }

def mapRegistry (site : Site) (f : Registry → Registry) : Site :=
  { site with registry := f site.registry }

def mapRegistrar (site : Site) (f : Registrar → Registrar) : Site :=
  site.mapRegistry fun registry => { registry with registrar := f registry.registrar }

def withCache (site : Site) (cache : Cache) : Site :=
  site.mapRegistry fun registry => { registry with cache := cache }

def publish (site : Site) (status : LeaseStatus) : Site :=
  site.mapRegistrar fun registrar => registrar.publish status

def enterGate (site : Site) (who : Nat) : Site :=
  site.mapRegistry fun registry => { registry with gate := registry.gate.enter who }

def releaseGate (site : Site) : Site :=
  site.mapRegistry fun registry => { registry with gate := registry.gate.release }

def enterRegistrar (site : Site) (who : Nat) : Site :=
  site.mapRegistrar fun registrar => { registrar with lock := registrar.lock.enter who }

def releaseRegistrar (site : Site) : Site :=
  site.mapRegistrar fun registrar => { registrar with lock := registrar.lock.release }

def setActive (site : Site) (active : Option Active) : Site :=
  site.mapRegistrar fun registrar => { registrar with active := active }

end Site

end ServiceRegistry
