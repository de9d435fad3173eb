import ServiceRegistry.Store.Basic
import ServiceRegistry.Stream

/-!
# Requests to a store

The methods by which a client reaches a store, what each is asked and what it answers. `serve` carries
out a request; the streams that two of the methods answer are either those of the store or scripts.
-/
namespace ServiceRegistry

/-- The ways to ask a store. -/
inductive Method where
  | get
  | getPrefix
  | put
  | delete
  | grant
  | revoke
  | keepAlive
  | watch
  deriving DecidableEq, Repr

/-- What a method is asked. -/
inductive Request : Method → Type where
  | get (key : String) : Request .get
  | getPrefix (directory : String) : Request .getPrefix
  | put (key value : String) (lease : Option LeaseId) : Request .put
  | delete (key : String) : Request .delete
  | grant (ttl : Int) : Request .grant
  | revoke (lease : LeaseId) : Request .revoke
  | keepAlive (lease : LeaseId) (interval : Duration) : Request .keepAlive
  | watch (directory : String) : Request .watch

/-- A stream of acknowledged times-to-live. -/
inductive Renewals where
  | live (renewal : Renewal)
  | scripted (script : Script Int)

/-- A stream of batches of changes. -/
inductive Changes where
  | live (sub : Subscription)
  | scripted (script : Script (List Event))

/-- What a method answers. -/
def Answer : Method → Type
  | .get => Option Row
  | .getPrefix => List Row
  | .put => Unit
  | .delete => Unit
  | .grant => LeaseId
  | .revoke => Unit
  | .keepAlive => Renewals
  | .watch => Changes

/-- Carries out a request at a time. -/
def Store.serve (store : Store) (clock : Nat) :
    {m : Method} → Request m → Except Error (Answer m × Store)
  | _, .get key => (store.get key).map fun row => (row, store)
  | _, .getPrefix directory => store.getPrefix directory
  | _, .put key value lease => (store.put key value lease).map fun after => ((), after)
  | _, .delete key => (store.delete key).map fun after => ((), after)
  | _, .grant ttl => store.grant ttl
  | _, .revoke lease => (store.revoke lease).map fun after => ((), after)
  | _, .keepAlive lease interval =>
    (store.keepAlive clock lease interval).map fun renewal => (.live renewal, store)
  | _, .watch directory => (store.watch directory).map fun sub => (.live sub, store)

namespace Renewals

/-- The reader asks for the next acknowledgement. -/
def ask (renewals : Renewals) (clock : Nat) : Renewals :=
  match renewals with
  | live renewal => live renewal
  | scripted script => scripted (script.ask clock)

def pull (renewals : Renewals) (store : Store) (clock : Nat) : Pull Renewals Int :=
  match renewals with
  | live renewal => (store.pullRenewal renewal clock).map live
  | scripted script => (script.pull clock).map scripted

/-- When the reader hears of something if the store does not change, if ever. -/
def due (renewals : Renewals) (store : Store) : Option Nat :=
  match renewals with
  | live renewal => some (if store.isLive renewal.lease then renewal.due else 0)
  | scripted script => script.due

end Renewals

namespace Changes

/-- The reader asks for the next batch. -/
def ask (changes : Changes) (clock : Nat) : Changes :=
  match changes with
  | live sub => live sub
  | scripted script => scripted (script.ask clock)

def pull (changes : Changes) (store : Store) (clock : Nat) : Pull Changes (List Event) :=
  match changes with
  | live sub => (store.feed.pull sub).map live
  | scripted script => (script.pull clock).map scripted

/-- When the reader hears of something if the store does not change, if ever. -/
def due (changes : Changes) (store : Store) : Option Nat :=
  match changes with
  | live sub => if store.feed.isNews sub then some 0 else none
  | scripted script => script.due

end Changes

end ServiceRegistry
