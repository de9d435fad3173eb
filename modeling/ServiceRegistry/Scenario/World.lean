import ServiceRegistry.Probe
import ServiceRegistry.Registry.Step
import ServiceRegistry.Scenario.Command

/-!
# Worlds

A world holds one store, any number of registries and other clients of the store, and a clock that
moves only when nothing else can. Tasks are the activities of the registries and the jobs that commands
make. A task that can take a step stands in a queue, in the order in which the tasks came to that. Of the
tasks that came to it together, the one that has waited longest is first.
-/
namespace ServiceRegistry

/-- What a command is waiting for. -/
inductive Job where
  /-- The command has not begun. -/
  | planned (command : Command)
  | probing (client : String) (probe : Probe)
  /-- The next acknowledgement of a named stream, until the time that is given. -/
  | awaiting (stream : String) (deadline : Nat)
  | sleeping (deadline : Nat)
  /-- The command has made a call, and the activity of the call goes on in place of the job. -/
  | calling (registry number : Nat)
  | finished (reply : Reply)

/-- Something that takes steps of its own. -/
inductive Task where
  /-- An activity of a registry, by their numbers. -/
  | activity (registry number : Nat)
  | job (number : Nat)
  deriving DecidableEq, Repr

/-- A store and all who use it. -/
structure World where
  /-- Milliseconds since the start. -/
  clock : Nat
  store : Store
  clients : List (String × Client)
  /-- Each registry with the name of its client. -/
  registries : List (String × Registry)
  /-- The numbers of the registries by their names. -/
  names : List (String × Nat)
  renewals : List (String × Renewal)
  subscriptions : List (String × Subscription)
  /-- For each receiver of statuses the number of its registry and how many statuses it has seen. -/
  receivers : List (String × Nat × Nat)
  jobs : List Job
  /-- The numbers of the jobs whose replies have not been taken, by the names of their tasks. -/
  tasks : List (String × Nat)
  /-- The tasks that can take a step. -/
  queue : List Task
  /-- The tasks that have had a turn, in the order of their last turns. -/
  rested : List Task
  /-- The job of the command that is being played. It does not stand in the queue. -/
  foreground : Option Nat
  /-- The keys of the store as they were last reported. -/
  reported : List String

/-- Puts a named thing in the place of the one with its name. -/
def assign {α : Type} (name : String) (value : α) (things : List (String × α)) : List (String × α) :=
  (name, value) :: things.filter fun thing => thing.1 ≠ name

namespace World

def empty : World where
  clock := 0
  store := Store.empty
  clients := []
  registries := []
  names := []
  renewals := []
  subscriptions := []
  receivers := []
  jobs := []
  tasks := []
  queue := []
  rested := []
  foreground := none
  reported := []

/-- A client begins when it is first named. -/
def client (world : World) (name : String) : Client := (world.clients.lookup name).getD Client.fresh

def link (world : World) (client : String) : Link := ⟨world.clock, world.store, world.client client⟩

def withLink (world : World) (client : String) (link : Link) : World :=
  { world with store := link.store, clients := assign client link.client world.clients }

/-- A registry with its link to the store. -/
def site? (world : World) (number : Nat) : Option Site :=
  world.registries[number]?.map fun entry => ⟨world.link entry.1, entry.2⟩

def withSite (world : World) (number : Nat) (site : Site) : World :=
  match world.registries[number]? with
  | none => world
  | some entry =>
    { world.withLink entry.1 site.toLink with
      registries := world.registries.set number (entry.1, site.registry) }

/-- The number of the registry with a name, and the registry. -/
def named? (world : World) (name : String) : Option (Nat × Registry) :=
  (world.names.lookup name).bind fun number =>
    world.registries[number]?.map fun entry => (number, entry.2)

/-- All tasks there have been, by their numbers. -/
def allTasks (world : World) : List Task :=
  (world.registries.zipIdx.flatMap fun entry =>
      (List.range entry.1.2.activities.length).map (Task.activity entry.2)) ++
    (List.range world.jobs.length).map Task.job

/-- All tasks there have been, the one that has waited longest first and those that had no turn last. -/
def tasksByTurn (world : World) : List Task :=
  world.rested ++ world.allTasks.filter fun task => !world.rested.contains task

/-- The turn of a task has ended. -/
def rest (world : World) (task : Task) : World :=
  { world with rested := (world.rested.filter fun other => other ≠ task) ++ [task] }

/-- The task that takes the steps of a job: the activity of the call that it has made, or the job. -/
def actor (world : World) (job : Nat) : Task :=
  match world.jobs[job]? with
  | some (.calling registry number) => .activity registry number
  | _ => .job job

/-- The time from which a job can take a step. -/
def dueJob (world : World) : Job → Option Nat
  | .planned _ => some 0
  | .probing _ probe => probe.due
  | .awaiting stream deadline =>
    match world.renewals.lookup stream with
    | some renewal => ((Renewals.live renewal).due world.store).map (min deadline)
    | none => some 0
  | .sleeping deadline => some deadline
  | .calling _ _ | .finished _ => none

/-- The time from which a task can take a step if nothing else happens. -/
def due (world : World) : Task → Option Nat
  | .activity registry number => (world.site? registry).bind fun site => site.due number
  | .job number => world.jobs[number]?.bind world.dueJob

def canStep (world : World) (task : Task) : Bool :=
  (world.due task).any fun due => due ≤ world.clock

/-- The next time at which a task can take a step. -/
def nextDue (world : World) : Option Nat := (world.allTasks.filterMap world.due).min?

/-- The reply to a call, if its activity has ended. -/
def callReply? (world : World) (registry number : Nat) : Option Reply := do
  let entry ← world.registries[registry]?
  let activity ← entry.2.activities[number]?
  let outcome ← activity.outcome?
  return Reply.ofExcept (fun | .done => .done | outcome => .outcome outcome) outcome

/-- The reply of a job that has ended. -/
def reply? (world : World) (job : Nat) : Option Reply :=
  match world.jobs[job]? with
  | some (.finished reply) => some reply
  | some (.calling registry number) => world.callReply? registry number
  | _ => none

/-- Puts the tasks that have come to where they can take a step behind the others. -/
def enqueue (world : World) (running : Option Task) : World :=
  let foreground := world.foreground.map world.actor
  let isNew (task : Task) : Bool :=
    world.canStep task && !world.queue.contains task && foreground ≠ some task
      && running ≠ some task
  { world with queue := world.queue ++ world.tasksByTurn.filter isNew }

end World

end ServiceRegistry
