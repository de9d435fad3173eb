import ServiceRegistry.Registry.Activity

/-!
# Commands

What a scenario is made of. Some commands ask the store itself, some control faults, time and tasks, and
some use the registries of the scenario, which are known by names. Each command has one reply.
-/
namespace ServiceRegistry

/-- A command of a scenario. -/
inductive Command where
  /-- The store is asked directly: no client records it and no fault meets it. -/
  | ask {m : Method} (request : Request m)
  | leaseOf (key : String)
  | hasLease (lease : LeaseId)
  | setUnavailable (value : Bool)
  | closeStore
  /-- Numbered keys are stored, one after the other until one fails. -/
  | putRange (front back : String) (first count : Nat)
  /-- Numbered keys are deleted, one after the other until one fails. -/
  | deleteRange (front back : String) (first count : Nat)
  /-- The renewals of a lease get a name. -/
  | keepAlive (stream : String) (lease : LeaseId) (interval : Duration)
  /-- The next acknowledgement of a named stream is awaited for some milliseconds. -/
  | nextAck (stream : String) (millis : Nat)
  /-- A subscription gets a name. -/
  | watch (stream : String) (directory : String)
  /-- All that a named subscription has to deliver is taken. -/
  | drain (stream : String)
  /-- A fault is laid in front of the store for a client. -/
  | fault (client : String) {m : Method} (fault : Fault m)
  | clearFaults (client : String)
  | settle
  | wait (millis : Nat)
  /-- A command is played as a task of its own. -/
  | spawn (task : String) (command : Command)
  /-- The reply of a task is taken, once. -/
  | join (task : String)
  | probe (client : String) (root : String) (create : Bool) (limit : Duration)
  /-- A registry begins, with a client of the same name. -/
  | start (registry : String) (config : Config) (dialer : Dialer)
  /-- A registry gets another name. -/
  | clone (registry byname : String)
  | call (registry : String) (call : Call)
  | selfTarget (registry : String)
  | status (registry : String)
  /-- A receiver of the statuses of a registry gets a name. -/
  | subscribe (receiver registry : String)
  /-- Whether a status was published since the receiver last asked. -/
  | changed (receiver : String)

instance : Inhabited Command := ⟨.settle⟩

/-- What a command comes to. -/
inductive Reply where
  | done
  | failed (e : Error)
  /-- The answer of the store to a request. -/
  | answer {m : Method} (answer : Answer m)
  | lease (lease : Option LeaseId)
  | truth (value : Bool)
  /-- Nothing has come in time. -/
  | pending
  /-- The stream has ended. -/
  | ended
  | ack (lease : LeaseId) (ttl : Int)
  /-- What a subscription delivered, and whether it has ended. -/
  | drained (items : List (Except Error (List Event))) (ended : Bool)
  | config (config : Config)
  | outcome (outcome : Outcome)
  | target (address : Option String)
  | status (status : LeaseStatus)
  | changed (value : Bool) (status : LeaseStatus)

namespace Reply

/-- A failure, or what is made of a success. -/
def ofExcept {α : Type} (reply : α → Reply) : Except Error α → Reply
  | .ok a => reply a
  | .error e => failed e

end Reply

end ServiceRegistry
