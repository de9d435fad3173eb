import ServiceRegistry.Key.Descriptor
import ServiceRegistry.Registry.Basic

/-!
# Steps of activities

A step takes an activity from one point to the next: it takes the answer for which the activity waited,
does what can be done with it at once, and stops where something else may come in between. `due` says
when the next step of an activity can be taken, and `step` takes it. Each part of a registry has its own
steps: the reading of the store into the cache, the watcher, the registrar and the calls.
-/
namespace ServiceRegistry

namespace Site

/-! ## Reading the store into the cache -/

/-- What the keys that an errand asks for start with. -/
def directoryOf (site : Site) : Errand → String
  | .refresh key _ _ => key.directory
  | .resolve _ | .rebuild _ => site.registry.config.directory

/-- The watcher waits for the next batch. -/
def listen (site : Site) (changes : Changes) : Progress × Site :=
  (.listening (changes.ask site.clock), site)

/-- The watcher goes on with the services of a batch, one after the other. -/
def refreshNext (site : Site) (who : Nat) (changes : Changes) :
    List ServiceKey → Progress × Site
  | [] => site.listen changes
  | key :: rest => (.building (.refresh key rest changes) .queued, site.enterGate who)

/-- The watcher goes on after a failure: it ends with its registry, and any other failure leaves the
cache as it is until the next batch. -/
def listenAfter (site : Site) (changes : Changes) (e : Error) : Progress × Site :=
  if e = .closed then (.finished (.ok .done), site) else site.listen changes

/-- An errand is done, with the list of the service that it was made for. The gate is left. -/
def conclude (site : Site) (who : Nat) (errand : Errand) (result : Except Error Listing) :
    Progress × Site :=
  let site := site.releaseGate
  match errand, result with
  | .resolve _, result => (.finished (result.map .connections), site)
  | .refresh _ rest changes, .ok _ => site.refreshNext who changes rest
  | .rebuild changes, .ok _ => site.listen changes
  | .refresh _ _ changes, .error e | .rebuild changes, .error e => site.listenAfter changes e

/-- Puts what a reading found into the cache. The list that a caller waits for is handed out even if
its generation has passed. -/
def install (site : Site) (errand : Errand) (stamp : Stamp) (reading : Reading)
    (keys : List EndpointKey) : Except Error (Listing × Site) :=
  let dialing := site.registry.dialing stamp.options reading.time
  match errand with
  | .refresh key _ _ =>
    let listing := ⟨reading, dialing.connections keys key⟩
    (site.registry.cache.replace key listing).map fun cache => (listing, site.withCache cache)
  | .resolve key =>
    let entries := dialing.byService keys
    (site.registry.cache.install reading entries).map fun cache =>
      (⟨reading, Dialing.listed entries key⟩, site.withCache cache)
  | .rebuild _ =>
    (site.registry.cache.install reading (dialing.byService keys)).map fun cache =>
      (⟨reading, []⟩, site.withCache cache)

/-- A step of a reading. A caller who has come through the gate looks again: another one may have filled
the cache meanwhile. -/
def stepBuild (site : Site) (who : Nat) (errand : Errand) : Build → Progress × Site
  | .queued =>
    match errand with
    | .resolve key =>
      match site.registry.cache.lookup key with
      | .ok none => (.building errand .stamping, site)
      | .ok (some listing) => site.conclude who errand (.ok listing)
      | .error e => site.conclude who errand (.error e)
    | _ => (.building errand .stamping, site)
  | .stamping =>
    match site.registry.cache.stamp with
    | .ok stamp =>
      let (flight, site) := site.send (.getPrefix (site.directoryOf errand))
      (.building errand (.scanning stamp flight), site)
    | .error e => site.conclude who errand (.error e)
  | .scanning stamp flight =>
    let reading : Reading := ⟨stamp.generation, site.store.scans, site.store.revision, site.clock⟩
    match site.receive flight with
    | (.ok rows, site) =>
      let decoded := EndpointKey.ofRows site.registry.config.root rows
      let keys := match errand with
        | .refresh key _ _ => key.instances decoded
        | .resolve _ | .rebuild _ => decoded
      let dialing := site.registry.dialing stamp.options reading.time
      let due := site.clock + dialing.delay keys
      (.building errand (.dialing stamp reading keys due),
        site.recordTrail (keys.flatMap dialing.dialTrail))
    | (.error e, site) => site.conclude who errand (.error e)
  | .dialing stamp reading keys _ =>
    match site.install errand stamp reading keys with
    | .ok (listing, site) => site.conclude who errand (.ok listing)
    | .error e => site.conclude who errand (.error e)

/-! ## The watcher -/

/-- The watcher has taken a batch from the stream. -/
def stepDiscarding (site : Site) (who : Nat) (changes : Changes) (concern : Attribution) :
    Progress × Site :=
  match site.registry.cache.discardPending with
  | some cache => (site.withCache cache).listen changes
  | none =>
    match concern with
    | .services keys => site.refreshNext who changes keys
    | .everything => (.building (.rebuild changes) .queued, site.enterGate who)

/-- The watcher looks at the stream. -/
def stepListening (site : Site) (changes : Changes) : Progress × Site :=
  match changes.pull site.store site.clock with
  | .waiting => (.listening changes, site)
  | .skipped rest => (.listening rest, site)
  | .item item rest =>
    (.discarding rest (Attribution.ofItem site.registry.config.root item), site)
  | .finished => (.finished (.ok .done), site)

/-! ## The registrar -/

/-- The registrar is free for a registration: a lease is asked for. -/
def startGranting (site : Site) (key : EndpointKey) : Progress × Site :=
  let (flight, site) := (site.publish .registering).send (.grant site.registry.config.leaseTtlSecs)
  (.registering key (.granting flight), site)

/-- The key could not be attached to the lease, so the lease is revoked. -/
def startAbandoning (site : Site) (key : EndpointKey) (lease : LeaseId) (cause : Error) :
    Progress × Site :=
  let (flight, site) := site.send (.revoke lease)
  (.registering key (.abandoning cause flight), site)

/-- A step of a registration. Only a lost registration is replaced. -/
def stepRegistering (site : Site) (key : EndpointKey) : Registering → Progress × Site
  | .queued =>
    match site.registry.registrar.active with
    | none => site.startGranting key
    | some current =>
      if site.registry.registrar.status.isLost then
        let site := (site.setActive none).mapRegistry fun registry => registry.cancel current.renewal
        let (flight, site) := site.send (.revoke current.lease)
        (.registering key (.replacing flight), site)
      else (.registering key (.leaving (.error (.alreadyRegistered current.key.text))), site)
  | .replacing flight => (site.receive flight).2.startGranting key
  | .granting flight =>
    match site.receive flight with
    | (.ok lease, site) =>
      let (flight, site) := site.send (.put key.text key.descriptor (some lease))
      (.registering key (.attaching lease flight), site)
    | (.error e, site) => (.registering key (.leaving (.error e)), site.publish .unregistered)
  | .attaching lease flight =>
    match site.receive flight with
    | (.ok _, site) =>
      let interval := Config.renewalInterval site.registry.config.leaseTtlSecs
      let (flight, site) := site.send (.keepAlive lease interval)
      (.registering key (.opening lease flight), site)
    | (.error e, site) => site.startAbandoning key lease e
  | .opening lease flight =>
    match site.receive flight with
    | (.ok renewals, site) =>
      let renewal := site.registry.activities.length
      let site := (site.publish (.registered key lease)).mapRegistry fun registry =>
        registry.begin (.renewing key lease (renewals.ask site.clock))
      (.registering key (.leaving (.ok ())), site.setActive (some ⟨key, lease, renewal⟩))
    | (.error e, site) => site.startAbandoning key lease e
  | .abandoning cause flight =>
    (.registering key (.leaving (.error cause)), (site.receive flight).2.publish .unregistered)
  | .leaving outcome =>
    (.finished (outcome.map fun _ => .done), site.releaseRegistrar)

/-- What comes of an unregistration: a failed deletion is reported before a failed revocation, and a
lease that is gone is no failure. -/
def removal : Except Error Unit → Except Error Unit → Except Error Unit
  | .error e, _ => .error e
  | .ok _, .error (.leaseNotFound _) => .ok ()
  | .ok _, .error e => .error e
  | .ok _, .ok _ => .ok ()

/-- A step of an unregistration. A registry that closes goes on, whatever came of it. -/
def stepUnregistering (site : Site) (closing : Bool) : Unregistering → Progress × Site
  | .queued =>
    match site.registry.registrar.active with
    | none => (.unregistering closing (.leaving (.error .notRegistered)), site)
    | some current =>
      let site := ((site.setActive none).publish .unregistering).mapRegistry fun registry =>
        registry.cancel current.renewal
      let (flight, site) := site.send (.delete current.key.text)
      (.unregistering closing (.deleting current.lease flight), site)
  | .deleting lease flight =>
    let (deleted, site) := site.receive flight
    let (flight, site) := site.send (.revoke lease)
    (.unregistering closing (.revoking deleted flight), site)
  | .revoking deleted flight =>
    let (revoked, site) := site.receive flight
    (.unregistering closing (.leaving (removal deleted revoked)), site.publish .unregistered)
  | .leaving outcome =>
    (if closing then .sealing else .finished (outcome.map fun _ => .done), site.releaseRegistrar)

/-- The renewal of a lease looks at the stream. It stops at anything but a positive time-to-live. -/
def stepRenewing (site : Site) (key : EndpointKey) (lease : LeaseId) (renewals : Renewals) :
    Progress × Site :=
  let stopped := (Progress.finished (.ok .done), site.mapRegistrar fun registrar =>
    registrar.lose key lease)
  match renewals.pull site.store site.clock with
  | .waiting => (.renewing key lease renewals, site)
  | .skipped rest => (.renewing key lease rest, site)
  | .item (.ok ttl) rest =>
    if 0 < ttl then (.renewing key lease (rest.ask site.clock), site) else stopped
  | .item (.error _) _ => stopped
  | .finished => stopped

/-! ## Calls -/

/-- The first step of a call. -/
def stepCalling (site : Site) (who : Nat) : Call → Progress × Site
  | .register service host port =>
    match site.registry.ensureOpen, EndpointKey.make site.registry.config.root service host port with
    | .error e, _ | .ok _, .error e => (.finished (.error e), site)
    | .ok _, .ok key => (.registering key .queued, site.enterRegistrar who)
  | .unregister =>
    match site.registry.ensureOpen with
    | .error e => (.finished (.error e), site)
    | .ok _ => (.unregistering false .queued, site.enterRegistrar who)
  | .getConnections service =>
    match site.registry.ensureOpen, ServiceKey.make site.registry.config.root service with
    | .error e, _ | .ok _, .error e => (.finished (.error e), site)
    | .ok _, .ok key => (.looking key, site)
  | .getConnection service options =>
    match site.registry.ensureOpen, ServiceKey.make site.registry.config.root service with
    | .error e, _ | .ok _, .error e => (.finished (.error e), site)
    | .ok _, .ok key =>
      let (flight, sent) := site.send (.getPrefix key.directory)
      (.locating key (site.registry.cache.options ++ options) flight, sent)
  | .addOptions options =>
    (.finished (.ok .done), site.withCache (site.registry.cache.addOptions options))
  | .invalidate => (.finished (.ok .done), site.withCache site.registry.cache.invalidate)
  | .close =>
    if site.registry.closed then (.finished (.ok .done), site)
    else
      let site := site.mapRegistry fun registry =>
        { registry with closed := true }.cancel Registry.watcher
      (.unregistering true .queued, site.enterRegistrar who)

/-- A caller looks into the cache, and goes to the gate if the cache is to be filled. -/
def stepLooking (site : Site) (who : Nat) (key : ServiceKey) : Progress × Site :=
  match site.registry.cache.lookup key with
  | .ok (some listing) => (.finished (.ok (.connections listing)), site)
  | .ok none => (.building (.resolve key) .queued, site.enterGate who)
  | .error e => (.finished (.error e), site)

/-- The instances of a service have been read for one connection over all of them. -/
def stepLocating (site : Site) (key : ServiceKey) (options : List DialOption)
    (flight : Flight .getPrefix) : Progress × Site :=
  match site.receive flight with
  | (.ok rows, site) =>
    let keys := key.instances (EndpointKey.ofRows site.registry.config.root rows)
    let dialing := site.registry.dialing options site.clock
    (.finished ((dialing.balanced keys key).map .connection),
      site.recordTrail (keys.flatMap dialing.buildTrail))
  | (.error e, site) => (.finished (.error e), site)

/-! ## Any activity -/

/-- The step of an activity that stands at a point. -/
def stepFrom (site : Site) (who : Nat) : Progress → Progress × Site
  | .calling call => site.stepCalling who call
  | .looking key => site.stepLooking who key
  | .building errand build => site.stepBuild who errand build
  | .locating key options flight => site.stepLocating key options flight
  | .registering key stage => site.stepRegistering key stage
  | .unregistering closing stage => site.stepUnregistering closing stage
  | .sealing =>
    (.finished (.ok .done),
      { site.withCache site.registry.cache.close with toLink := site.toLink.close })
  | .starting =>
    let (flight, site) := site.send (.watch site.registry.config.directory)
    (.subscribing flight, site)
  | .subscribing flight =>
    match site.receive flight with
    | (.ok changes, site) => site.listen changes
    | (.error e, site) => (.finished (.error e), site)
  | .listening changes => site.stepListening changes
  | .discarding changes concern => site.stepDiscarding who changes concern
  | .renewing key lease renewals => site.stepRenewing key lease renewals
  | .finished outcome => (.finished outcome, site)

/-- An activity that was asked to end lets go of every lock and place in a queue. -/
def drop (site : Site) (who : Nat) : Site :=
  (site.mapRegistrar fun registrar => { registrar with lock := registrar.lock.leave who }).mapRegistry
    fun registry => { registry with gate := registry.gate.leave who }.move who (.finished (.ok .done))

/-- The next step of an activity. -/
def step (site : Site) (who : Nat) : Site :=
  match site.registry.activities[who]? with
  | none => site
  | some activity =>
    if activity.isDropped then site.drop who
    else
      let (progress, after) := site.stepFrom who activity.progress
      after.mapRegistry fun registry => registry.move who progress

/-! ## When a step can be taken -/

/-- Who holds a lock can go on, and who waits for it cannot. -/
def dueBehind (lock : Lock) (who : Nat) : Option Nat := if lock.holder? = some who then some 0 else none

/-- The time from which an activity that stands at a point can take a step if nothing else happens,
`none` if it waits for another activity or for the store. -/
def dueFrom (site : Site) (who : Nat) : Progress → Option Nat
  | .building _ .queued => dueBehind site.registry.gate who
  | .building _ .stamping => some 0
  | .building _ (.scanning _ flight) => some flight.due
  | .building _ (.dialing _ _ _ due) => some due
  | .locating _ _ flight => some flight.due
  | .registering _ .queued => dueBehind site.registry.registrar.lock who
  | .registering _ (.replacing flight) => some flight.due
  | .registering _ (.granting flight) => some flight.due
  | .registering _ (.attaching _ flight) => some flight.due
  | .registering _ (.opening _ flight) => some flight.due
  | .registering _ (.abandoning _ flight) => some flight.due
  | .registering _ (.leaving _) => some 0
  | .unregistering _ .queued => dueBehind site.registry.registrar.lock who
  | .unregistering _ (.deleting _ flight) => some flight.due
  | .unregistering _ (.revoking _ flight) => some flight.due
  | .unregistering _ (.leaving _) => some 0
  | .subscribing flight => some flight.due
  | .listening changes => changes.due site.store
  | .renewing _ _ renewals => renewals.due site.store
  | .calling _ | .looking _ | .sealing | .starting | .discarding _ _ => some 0
  | .finished _ => none

/-- The time from which an activity can take a step. -/
def due (site : Site) (who : Nat) : Option Nat :=
  match site.registry.activities[who]? with
  | none => none
  | some activity =>
    if activity.isDropped then some 0
    else site.dueFrom who activity.progress

/-- Whether an activity can take a step now. -/
def canStep (site : Site) (who : Nat) : Bool := (site.due who).any fun due => due ≤ site.clock

end Site

end ServiceRegistry
