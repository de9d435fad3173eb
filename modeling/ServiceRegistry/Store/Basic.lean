import ServiceRegistry.Store.Feed
import ServiceRegistry.Store.Keyspace
import ServiceRegistry.Store.Lease

/-!
# The coordination store

A store holds values by key, leases, and a feed of all changes. A key may be attached to a lease, and
goes when the lease is revoked. An operation that fails has no new store to show: it changes nothing.
-/
namespace ServiceRegistry

/-- A key and the value that was read for it. -/
structure Row where
  key : String
  value : String
  deriving DecidableEq, Repr

/-- A coordination store. -/
structure Store where
  content : Keyspace
  /-- The live leases and their times-to-live in seconds. -/
  leases : List (LeaseId × Int)
  /-- How many leases were granted. -/
  granted : Nat
  feed : Feed
  /-- How many directories were read. -/
  scans : Nat
  /-- Whether the store cannot be reached. -/
  unavailable : Bool

namespace Store

def empty : Store := ⟨Keyspace.empty, [], 0, Feed.empty, 0, false⟩

/-- A store answers if it can be reached and has not been closed. -/
def check (store : Store) : Except Error Unit :=
  if store.unavailable then .error (.store "store unavailable")
  else if store.feed.closed then .error .closed
  else .ok ()

/-- The number of changes so far. Between two readings with the same number no key changed. -/
def revision (store : Store) : Nat := store.feed.published.length

/-- The time-to-live of a live lease. -/
def ttl? (store : Store) (lease : LeaseId) : Option Int := store.leases.lookup lease

def isLive (store : Store) (lease : LeaseId) : Bool := (store.ttl? lease).isSome

def keys (store : Store) : List String := store.content.keys

/-- The lease to which a key is attached. -/
def leaseOf (store : Store) (key : String) : Option LeaseId :=
  (store.content.get? key).bind fun record => record.lease

def get (store : Store) (key : String) : Except Error (Option Row) := do
  store.check
  return (store.content.get? key).map fun record => ⟨key, record.value⟩

/-- The rows whose keys start with `directory`, in the order of the keys. -/
def rows (store : Store) (directory : String) : List Row :=
  (store.content.under directory).map fun row => ⟨row.1, row.2.value⟩

/-- Reads the rows whose keys start with `directory`. -/
def getPrefix (store : Store) (directory : String) : Except Error (List Row × Store) := do
  store.check
  return (store.rows directory, { store with scans := store.scans + 1 })

/-- Stores a value. Only a live lease can have the key attached to it. -/
def put (store : Store) (key value : String) (lease : Option LeaseId) : Except Error Store := do
  store.check
  match lease with
  | some id => if store.isLive id then pure () else throw (.leaseNotFound id.number)
  | none => pure ()
  return { store with
    content := store.content.insert key ⟨value, lease⟩
    feed := store.feed.publish [⟨.put, key⟩] }

/-- Takes a key away. A key that is not there is no error, and no change. -/
def delete (store : Store) (key : String) : Except Error Store := do
  store.check
  if (store.content.get? key).isSome then
    return { store with
      content := store.content.erase key
      feed := store.feed.publish [⟨.delete, key⟩] }
  else return store

/-- Issues a lease with a new number. -/
def grant (store : Store) (ttl : Int) : Except Error (LeaseId × Store) := do
  store.check
  let lease : LeaseId := ⟨store.granted + 1⟩
  return (lease, { store with leases := (lease, ttl) :: store.leases, granted := store.granted + 1 })

/-- The keys that are attached to a lease. -/
def attached (store : Store) (lease : LeaseId) : List String :=
  (store.content.rows.filter fun row => row.2.lease = some lease).map (·.1)

/-- Ends a lease. The keys that are attached to it go, all in one batch. -/
def revoke (store : Store) (lease : LeaseId) : Except Error Store := do
  store.check
  if store.isLive lease then
    return { store with
      content := store.content.keep fun _ record => record.lease ≠ some lease
      leases := store.leases.filter fun other => other.1 ≠ lease
      feed := store.feed.publish ((store.attached lease).map fun key => ⟨.delete, key⟩) }
  else throw (.leaseNotFound lease.number)

/-- Opens the stream of renewals of a live lease. -/
def keepAlive (store : Store) (clock : Nat) (lease : LeaseId) (interval : Duration) :
    Except Error Renewal := do
  store.check
  match store.ttl? lease with
  | some ttl => return Renewal.start lease ttl clock interval
  | none => throw (.leaseNotFound lease.number)

/-- Subscribes to the changes of all keys that start with `directory`. -/
def watch (store : Store) (directory : String) : Except Error Subscription := do
  store.check
  return store.feed.subscribe directory

/-- Closes the store for good. Open streams end, and no lease is live any more. -/
def close (store : Store) : Store :=
  { store with feed := { store.feed with closed := true }, leases := [] }

/-- What a reader of renewals finds. The stream of a lease that is not live has ended, whatever
was left to read. -/
def pullRenewal (store : Store) (renewal : Renewal) (clock : Nat) : Pull Renewal Int :=
  if store.isLive renewal.lease then
    if renewal.due ≤ clock then .item (.ok renewal.ttl) { renewal with taken := renewal.taken + 1 }
    else .waiting
  else .finished

end Store

end ServiceRegistry
