import ServiceRegistry.Scenario.World
import ServiceRegistry.Text.Number

/-!
# Carrying out commands

Every command is planned as a job, and most are carried out in the first step of it by `perform`. The
others wait: for time to pass, for an acknowledgement or for the store. A name that a command mentions is
looked up in that first step, so it means what it means then. `World.step` takes the next step of any
task.
-/
namespace ServiceRegistry

namespace World

/-- A numbered key. -/
def numbered (front back : String) (number : Nat) : String :=
  front ++ String.ofList (Text.Decimal.digits number) ++ back

/-- Changes a store at `count` numbered keys, until a change fails. -/
def changeRange (change : String → Store → Except Error Store) (front back : String) :
    Nat → Nat → Store → Reply × Store
  | _, 0, store => (.done, store)
  | first, count + 1, store =>
    match change (numbered front back first) store with
    | .ok store => changeRange change front back (first + 1) count store
    | .error e => (.failed e, store)

/-- The registry with a name and its link to the store. -/
def namedSite? (world : World) (name : String) : Option (Nat × Site) :=
  (world.names.lookup name).bind fun number =>
    (world.site? number).map fun site => (number, site)

/-- Plans a job for a command. Its number is that of the jobs before. -/
def plan (world : World) (command : Command) : World :=
  { world with jobs := world.jobs ++ [.planned command] }

/-- Makes a call of a named registry. -/
def makeCall (world : World) (name : String) (call : Call) : Job × World :=
  match world.namedSite? name with
  | some (number, site) =>
    (.calling number site.registry.activities.length,
      world.withSite number (site.mapRegistry fun registry => registry.begin (.calling call)))
  | none => (.finished .pending, world)

/-- Takes what a named subscription has to deliver. -/
def drain (world : World) (stream : String) : Reply × World :=
  match world.subscriptions.lookup stream with
  | none => (.pending, world)
  | some sub =>
    let (items, rest) := world.store.feed.drain sub
    let ended := match world.store.feed.pull rest with
      | .finished => true
      | _ => false
    (.drained items ended,
      { world with subscriptions := assign stream rest world.subscriptions })

/-- What is known of a registry. -/
def query (world : World) (name : String) (reply : Registry → Reply) : Reply × World :=
  match world.named? name with
  | some (_, registry) => (reply registry, world)
  | none => (.pending, world)

/-- Carries out a command that does not wait. -/
def perform (world : World) : Command → Reply × World
  | .ask request =>
    match world.store.serve world.clock request with
    | .ok (answer, store) => (.answer answer, { world with store := store })
    | .error e => (.failed e, world)
  | .leaseOf key => (.lease (world.store.leaseOf key), world)
  | .hasLease lease => (.truth (world.store.isLive lease), world)
  | .setUnavailable value =>
    (.done, { world with store := { world.store with unavailable := value } })
  | .closeStore => (.done, { world with store := world.store.close })
  | .putRange front back first count =>
    let (reply, store) :=
      changeRange (fun key store => store.put key "" none) front back first count world.store
    (reply, { world with store := store })
  | .deleteRange front back first count =>
    let (reply, store) :=
      changeRange (fun key store => store.delete key) front back first count world.store
    (reply, { world with store := store })
  | .keepAlive stream lease interval =>
    match world.store.keepAlive world.clock lease interval with
    | .ok renewal => (.done, { world with renewals := assign stream renewal world.renewals })
    | .error e => (.failed e, world)
  | .watch stream directory =>
    match world.store.watch directory with
    | .ok sub => (.done, { world with subscriptions := assign stream sub world.subscriptions })
    | .error e => (.failed e, world)
  | .drain stream => world.drain stream
  | .fault client fault =>
    let link := world.link client
    (.done, world.withLink client
      { link with client := { link.client with faults := link.client.faults.add fault } })
  | .clearFaults client =>
    let link := world.link client
    (.done, world.withLink client { link with client := { link.client with faults := Faults.none } })
  | .spawn name command =>
    (.done, { world.plan command with tasks := assign name world.jobs.length world.tasks })
  | .join name =>
    match (world.tasks.lookup name).bind world.reply? with
    | some reply => (reply, { world with tasks := world.tasks.filter fun entry => entry.1 ≠ name })
    | none => (.pending, world)
  | .start name config dialer =>
    (.config config,
      { world with
        registries := world.registries ++ [(name, Registry.start config dialer)]
        names := assign name world.registries.length world.names })
  | .clone name byname =>
    match world.names.lookup name with
    | some number => (.done, { world with names := assign byname number world.names })
    | none => (.pending, world)
  | .selfTarget name => world.query name fun registry => .target registry.registrar.target?
  | .status name => world.query name fun registry => .status registry.registrar.status
  | .subscribe receiver name =>
    match world.named? name with
    | some (number, registry) =>
      let published := registry.registrar.published.length
      (.done, { world with receivers := assign receiver (number, published) world.receivers })
    | none => (.pending, world)
  | .changed receiver =>
    match world.receivers.lookup receiver with
    | none => (.pending, world)
    | some (number, seen) =>
      match world.registries[number]? with
      | none => (.pending, world)
      | some (_, registry) =>
        let published := registry.registrar.published.length
        (.changed (seen < published) registry.registrar.status,
          { world with receivers := assign receiver (number, published) world.receivers })
  | .settle | .wait _ | .nextAck _ _ | .probe _ _ _ _ | .call _ _ => (.done, world)

/-- A reader of a named stream of renewals looks at it. -/
def lookAtRenewal (world : World) (stream : String) (deadline : Nat) : Job × World :=
  match world.renewals.lookup stream with
  | none => (.finished .ended, world)
  | some renewal =>
    match world.store.pullRenewal renewal world.clock with
    | .item (.ok ttl) rest =>
      (.finished (.ack renewal.lease ttl),
        { world with renewals := assign stream rest world.renewals })
    | .item (.error e) rest =>
      (.finished (.failed e), { world with renewals := assign stream rest world.renewals })
    | .finished => (.finished .ended, world)
    | .waiting | .skipped _ =>
      if deadline ≤ world.clock then (.finished .pending, world)
      else (.awaiting stream deadline, world)

/-- The step of a job. -/
def stepJob (world : World) : Job → Job × World
  | .planned (.wait millis) => (.sleeping (world.clock + millis), world)
  | .planned (.nextAck stream millis) => (.awaiting stream (world.clock + millis), world)
  | .planned (.probe client root create limit) =>
    (.probing client (Probe.start world.clock root create limit), world)
  | .planned (.call name call) => world.makeCall name call
  | .planned command =>
    let (reply, world) := world.perform command
    (.finished reply, world)
  | .probing client probe =>
    let (probe, link) := probe.step (world.link client)
    (match probe.result? with
      | some result => .finished (Reply.ofExcept (fun _ => .done) result)
      | none => .probing client probe,
      world.withLink client link)
  | .awaiting stream deadline => world.lookAtRenewal stream deadline
  | .sleeping _ => (.finished .done, world)
  | .calling registry number => (.calling registry number, world)
  | .finished reply => (.finished reply, world)

/-- The next step of a task. -/
def step (world : World) : Task → World
  | .activity registry number =>
    match world.site? registry with
    | some site => world.withSite registry (site.step number)
    | none => world
  | .job number =>
    match world.jobs[number]? with
    | some job =>
      let (job, world) := world.stepJob job
      { world with jobs := world.jobs.set number job }
    | none => world

end World

end ServiceRegistry
