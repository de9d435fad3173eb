import ServiceRegistry.Endpoint
import ServiceRegistry.Store.Request

/-!
# Clients of a store

Every registry reaches the store through a client of its own, which keeps a log. A request is sent at
one time and answered at another, and the store sees it when it is answered. Faults may be laid in
front of the store: they make a request wait, fail before or after the store has carried it out, or
give an answer without asking the store.
-/
namespace ServiceRegistry

/-- How a request gets its answer. -/
inductive Treatment (m : Method) where
  /-- The store carries the request out. -/
  | plain
  /-- The store is not asked. -/
  | refused (e : Error)
  /-- The store carries the request out, and its answer is lost. -/
  | lost (e : Error)
  /-- The store is not asked, and the answer is given. -/
  | canned (answer : Answer m)

/-- A fault of a method. -/
structure Fault (m : Method) where
  /-- Milliseconds before the treatment. -/
  delay : Nat
  treatment : Treatment m
  /-- For how many requests the fault stands, without end for `none`. -/
  uses : Option Nat

/-- The faults of each method. The first of them meets the next request. -/
def Faults : Type := (m : Method) → List (Fault m)

namespace Faults

def none : Faults := fun _ => []

/-- Adds a fault behind those of its method. -/
def add (faults : Faults) {m : Method} (fault : Fault m) : Faults := fun other =>
  if h : m = other then faults other ++ [h ▸ fault] else faults other

/-- The faults of a method after the first has met a request. -/
def spent {m : Method} : List (Fault m) → List (Fault m)
  | [] => []
  | fault :: rest =>
    match fault.uses with
    | some uses => if uses ≤ 1 then rest else { fault with uses := some (uses - 1) } :: rest
    | Option.none => fault :: rest

/-- The faults after a request by the method. -/
def spend (faults : Faults) (m : Method) : Faults := fun other =>
  if other = m then spent (faults other) else faults other

end Faults

/-- Something that a client did. -/
inductive ClientEvent where
  | request {m : Method} (request : Request m)
  | close
  | endpoint (event : EndpointEvent)

/-- A client of a store. -/
structure Client where
  /-- What the client did, newest first. -/
  log : List ClientEvent
  faults : Faults

namespace Client

def fresh : Client := ⟨[], Faults.none⟩

def record (client : Client) (event : ClientEvent) : Client :=
  { client with log := event :: client.log }

/-- Records events in their order. -/
def recordAll (client : Client) (events : List ClientEvent) : Client := events.foldl record client

end Client

/-- A request on its way. -/
structure Flight (m : Method) where
  request : Request m
  treatment : Treatment m
  /-- The time at which it is answered. -/
  due : Nat

/-- A client, its store and the time. -/
structure Link where
  /-- Milliseconds since the start. -/
  clock : Nat
  store : Store
  client : Client

namespace Link

variable {m : Method}

/-- Sends a request. -/
def send (link : Link) (request : Request m) : Flight m × Link :=
  let sent := { link with client :=
    { (link.client.record (.request request)) with faults := link.client.faults.spend m } }
  match link.client.faults m with
  | [] => (⟨request, .plain, link.clock⟩, sent)
  | fault :: _ => (⟨request, fault.treatment, link.clock + fault.delay⟩, sent)

/-- The store carries a request out. -/
def serve (link : Link) (request : Request m) : Except Error (Answer m) × Link :=
  match link.store.serve link.clock request with
  | .ok (answer, store) => (.ok answer, { link with store := store })
  | .error e => (.error e, link)

/-- A request on its way is answered. -/
def receive (link : Link) (flight : Flight m) : Except Error (Answer m) × Link :=
  match flight.treatment with
  | .plain => link.serve flight.request
  | .refused e => (.error e, link)
  | .lost e =>
    match link.serve flight.request with
    | (.ok _, link) => (.error e, link)
    | failure => failure
  | .canned answer => (.ok answer, link)

def record (link : Link) (event : ClientEvent) : Link :=
  { link with client := link.client.record event }

def recordAll (link : Link) (events : List ClientEvent) : Link :=
  { link with client := link.client.recordAll events }

/-- Closes the store. -/
def close (link : Link) : Link := { link.record .close with store := link.store.close }

end Link

end ServiceRegistry
