import ServiceRegistry.Scenario.Perform

/-!
# Playing scenarios

A scenario is a list of commands that are played one after the other. A task that has been given its
turn goes on until it has to wait. The job of the command comes first; the other tasks have their turns in
the order of the queue, and time moves on, to the next moment at which a task can take a step, only when
the queue is empty. Behind a command the world settles: a millisecond passes, and all tasks have their
turns before and after it.
-/
namespace ServiceRegistry

/-- A command, and whether the world settles behind it. -/
structure Scenario.Step where
  command : Command
  settles : Bool

/-- What is reported of a command. -/
structure Scenario.Report where
  reply : Reply
  /-- What each client did since the last report, without those who did nothing. -/
  log : List (String × List ClientEvent)
  scans : Nat
  clock : Nat
  /-- The keys of the store, if they are not those of the last report. -/
  keys : Option (List String)

namespace World

/-- More turns and steps than a command can take before the world is idle again. -/
def patience : Nat := 10000000

/-- A task goes on until it has to wait. If it is a job that makes a call, the activity of the call goes
on at once. -/
def run : Nat → Task → World → World
  | 0, _, world => world
  | fuel + 1, task, world =>
    if world.canStep task then
      let world := world.step task
      let task := match task with
        | .job job => world.actor job
        | .activity _ _ => task
      run fuel task (world.enqueue (some task))
    else world.rest task

/-- The tasks of the queue have their turns until none is left. -/
def idle : Nat → World → World
  | 0, world => world
  | fuel + 1, world =>
    match world.queue with
    | [] => world
    | task :: queue => idle fuel (run patience task { world with queue := queue })

/-- Time moves on. -/
def moveTo (world : World) (clock : Nat) : World := { world with clock := clock }.enqueue none

/-- The tasks have their turns and time moves on until a job has ended. -/
def await (job : Nat) : Nat → World → World
  | 0, world => world
  | fuel + 1, world =>
    let world := run patience (world.actor job) world
    if (world.reply? job).isSome then world
    else
      let world := idle patience world
      if world.canStep (world.actor job) then await job fuel world
      else match world.nextDue with
        | some clock => await job fuel (world.moveTo clock)
        | none => world

/-- A millisecond passes. -/
def settle (world : World) : World :=
  let world := idle patience world
  idle patience (world.moveTo (world.clock + 1))

/-- Reports what has happened since the last report. -/
def report (world : World) (reply : Reply) : Scenario.Report × World :=
  let keys := world.store.keys
  ({ reply := reply
     log := (world.clients.map fun client => (client.1, client.2.log.reverse)).filter fun client =>
       !client.2.isEmpty
     scans := world.store.scans
     clock := world.clock
     keys := if keys = world.reported then none else some keys },
    { world with
      clients := world.clients.map fun client => (client.1, { client.2 with log := [] })
      reported := keys })

/-- Plays a command. -/
def play (world : World) (step : Scenario.Step) : Scenario.Report × World :=
  let job := world.jobs.length
  let world := await job patience { world.plan step.command with foreground := some job }
  let reply := (world.reply? job).getD .pending
  let world := { world with foreground := none }
  (if step.settles then world.settle else world).report reply

/-- Plays commands one after the other. -/
def playAll : List Scenario.Step → World → List Scenario.Report
  | [], _ => []
  | step :: steps, world =>
    let (report, world) := world.play step
    report :: playAll steps world

end World

/-- The reports of a scenario. -/
def Scenario.play (steps : List Scenario.Step) : List Scenario.Report := World.empty.playAll steps

end ServiceRegistry
