import ServiceRegistry.Cache
import ServiceRegistry.Client
import ServiceRegistry.Registration

/-!
# Activities of a registry

A registry does several things at once: it carries out calls, follows the changes of the store, and
renews a lease. Each activity goes on by itself until it has to wait: for an answer of the store, for a
dial, for a lock or for an item of a stream. `Progress` lists the points at which an activity can be
met between two of its steps. The activity that follows the changes goes by their attribution: a key that
belongs to no service may concern any of them, and so may whatever was lost in place of a batch.
-/
namespace ServiceRegistry

/-- The services that a change concerns. -/
inductive Attribution where
  | everything
  /-- Some services, in increasing order. -/
  | services (keys : List ServiceKey)
  deriving DecidableEq

namespace Attribution

/-- The services of the keys of a batch, or everything if a key cannot be read. -/
def ofBatch (root : String) (batch : List Event) : Attribution :=
  match batch.mapM fun event => EndpointKey.parse root event.key with
  | .ok keys => services (ServiceKey.sorted (keys.map (·.service)))
  | .error _ => everything

/-- What an item of a feed concerns. -/
def ofItem (root : String) : Except Error (List Event) → Attribution
  | .ok batch => ofBatch root batch
  | .error _ => everything

end Attribution

/-- A call of a registry. -/
inductive Call where
  | register (service host : String) (port : Nat)
  | unregister
  | getConnections (service : String)
  | getConnection (service : String) (options : List DialOption)
  | addOptions (options : List DialOption)
  | invalidate
  | close

/-- What a call comes to. -/
inductive Outcome where
  | done
  | connections (listing : Listing)
  | connection (connection : Connection)
  deriving DecidableEq

/-- What a reading of the store is made for. -/
inductive Errand where
  /-- A caller wants the connections of a service and finds the cache to be filled. -/
  | resolve (key : ServiceKey)
  /-- The watcher renews the entry of a service; the others of the batch come after it. -/
  | refresh (key : ServiceKey) (rest : List ServiceKey) (changes : Changes)
  /-- The watcher renews all entries. -/
  | rebuild (changes : Changes)

/-- How far a reading has come. The gate is held at every point but the first. -/
inductive Build where
  /-- In front of the gate. -/
  | queued
  /-- Takes a stamp from the cache. -/
  | stamping
  /-- The store is asked. -/
  | scanning (stamp : Stamp) (flight : Flight .getPrefix)
  /-- The instances are dialed, the last of them until `due`. -/
  | dialing (stamp : Stamp) (reading : Reading) (keys : List EndpointKey) (due : Nat)

/-- How far a registration has come. The registrar is locked at every point but the first. -/
inductive Registering where
  /-- In front of the registrar. -/
  | queued
  /-- The lease of a lost registration is revoked. -/
  | replacing (flight : Flight .revoke)
  /-- A lease is granted. -/
  | granting (flight : Flight .grant)
  /-- The key is attached to the lease. -/
  | attaching (lease : LeaseId) (flight : Flight .put)
  /-- The stream of renewals is opened. -/
  | opening (lease : LeaseId) (flight : Flight .keepAlive)
  /-- The lease is revoked, because one of the last two failed. -/
  | abandoning (cause : Error) (flight : Flight .revoke)
  /-- The outcome is known. Whom it concerns is told before the registrar is left, and so is ahead of
  whoever comes to the registrar next. -/
  | leaving (outcome : Except Error Unit)

/-- How far the end of a registration has come. The registrar is locked at every point but the
first. -/
inductive Unregistering where
  /-- In front of the registrar. -/
  | queued
  /-- The key is deleted. -/
  | deleting (lease : LeaseId) (flight : Flight .delete)
  /-- The lease is revoked, whatever came of the deletion. -/
  | revoking (deleted : Except Error Unit) (flight : Flight .revoke)
  /-- The outcome is known, and the registrar is about to be left. -/
  | leaving (outcome : Except Error Unit)

/-- Where an activity stands. -/
inductive Progress where
  /-- A call has been made and not begun. -/
  | calling (call : Call)
  /-- The connections of a service are looked up in the cache. -/
  | looking (key : ServiceKey)
  /-- The store is read into the cache. -/
  | building (errand : Errand) (build : Build)
  /-- The instances of a service are read for one connection over all of them. -/
  | locating (key : ServiceKey) (options : List DialOption) (flight : Flight .getPrefix)
  /-- An instance is registered. -/
  | registering (key : EndpointKey) (step : Registering)
  /-- The registered instance is unregistered, as a call of its own or because the registry closes. -/
  | unregistering (closing : Bool) (step : Unregistering)
  /-- The cache and the store are closed. -/
  | sealing
  /-- The watcher has not begun. -/
  | starting
  /-- The watcher subscribes to the changes under the root. -/
  | subscribing (flight : Flight .watch)
  /-- The watcher waits for a batch. -/
  | listening (changes : Changes)
  /-- The watcher discards what is being read for a cache that is to be filled. -/
  | discarding (changes : Changes) (concern : Attribution)
  /-- A lease is renewed. -/
  | renewing (key : EndpointKey) (lease : LeaseId) (renewals : Renewals)
  /-- The activity has ended. -/
  | finished (outcome : Except Error Outcome)

/-- An activity of a registry. -/
structure Activity where
  progress : Progress
  /-- Whether the activity is to end without another step. -/
  cancelled : Bool

namespace Activity

def begin (progress : Progress) : Activity := ⟨progress, false⟩

/-- What came of the activity, if it has ended. -/
def outcome? (activity : Activity) : Option (Except Error Outcome) :=
  match activity.progress with
  | .finished outcome => some outcome
  | _ => none

/-- Whether the activity was asked to end and has not. -/
def isDropped (activity : Activity) : Bool := activity.cancelled && activity.outcome?.isNone

end Activity

end ServiceRegistry
