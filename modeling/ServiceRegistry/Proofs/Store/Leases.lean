import ServiceRegistry.Proofs.Store.Evolution

/-!
# Leases of a store

A key can be attached to a live lease only, and a revocation takes the keys of its lease away. So in an
open store every key that is attached to a lease is attached to a live one. Nothing but a grant brings a
lease up, and a lease that has been granted once is never granted again. `Served` says what each request
does to the content and the leases, and what is shown of all requests is shown by its rules.
-/
namespace ServiceRegistry

/-- Whether the method only looks at the content and the leases. -/
def Method.isReading : Method → Bool
  | .get | .getPrefix | .keepAlive | .watch => true
  | .put | .delete | .grant | .revoke => false

/-- The key and the lease that a request attaches to each other. -/
def Request.attachment? : {m : Method} → Request m → Option (String × LeaseId)
  | _, .put key _ (some lease) => some (key, lease)
  | _, _ => none

/-- A request that changes what stands under the key. -/
def Request.Changes (key : String) : {m : Method} → Request m → Prop
  | _, .put other _ _ => other = key
  | _, .delete other => other = key
  | _, _ => False

/-- A request that ends the lease. -/
def Request.Ends (lease : LeaseId) : {m : Method} → Request m → Prop
  | _, .revoke other => other = lease
  | _, _ => False

/-- The lease that a revocation is about. -/
def Request.revoked : Request .revoke → LeaseId
  | .revoke lease => lease

theorem Request.revoked_of_ends {request : Request .revoke} {lease : LeaseId}
    (h : request.Ends lease) : request.revoked = lease := by
  cases request
  exact h

theorem Request.eq_of_changes {key : String} {request : Request .delete}
    (h : request.Changes key) : request = .delete key := by
  cases request
  rw [show _ = key from h]

namespace Store

/-- The lease is live, or a key is attached to it. -/
def Involves (store : Store) (lease : LeaseId) : Prop :=
  store.isLive lease = true ∨ ∃ key, store.leaseOf key = some lease

/-- What all stores have in common: leases are numbered as they are granted, and as long as the store is
open the keys that are attached to a lease are attached to a live one. -/
structure Sound (store : Store) : Prop where
  numbered : ∀ lease, store.Involves lease → lease.number ≤ store.granted
  attached : store.feed.closed = false → ∀ key lease, store.leaseOf key = some lease →
    store.isLive lease = true

/-- The stores have the same content and the same leases. -/
structure SameHoldings (before after : Store) : Prop where
  content : after.content = before.content
  leases : after.leases = before.leases
  granted : after.granted = before.granted
  closed : after.feed.closed = before.feed.closed

theorem SameHoldings.refl (store : Store) : store.SameHoldings store := ⟨rfl, rfl, rfl, rfl⟩

theorem SameHoldings.trans {first second third : Store} (h : first.SameHoldings second)
    (h' : second.SameHoldings third) : first.SameHoldings third :=
  ⟨h'.content.trans h.content, h'.leases.trans h.leases, h'.granted.trans h.granted,
    h'.closed.trans h.closed⟩

theorem SameHoldings.isLive {before after : Store} (h : before.SameHoldings after) (lease : LeaseId) :
    after.isLive lease = before.isLive lease := by
  simp only [Store.isLive, ttl?, h.leases]

theorem SameHoldings.leaseOf {before after : Store} (h : before.SameHoldings after) (key : String) :
    after.leaseOf key = before.leaseOf key := by
  simp only [Store.leaseOf, h.content]

theorem SameHoldings.involves {before after : Store} (h : before.SameHoldings after) {lease : LeaseId}
    (hafter : after.Involves lease) : before.Involves lease := by
  rcases hafter with hlive | ⟨key, hkey⟩
  · exact .inl (h.isLive lease ▸ hlive)
  · exact .inr ⟨key, h.leaseOf key ▸ hkey⟩

theorem SameHoldings.ttl?_eq {before after : Store} (h : before.SameHoldings after) (lease : LeaseId) :
    after.ttl? lease = before.ttl? lease := by
  simp only [Store.ttl?, h.leases]

theorem leaseOf_eq_some {store : Store} {key : String} {lease : LeaseId} :
    store.leaseOf key = some lease ↔
      ∃ value, store.content.get? key = some ⟨value, some lease⟩ := by
  constructor
  · intro h
    obtain ⟨⟨value, attached⟩, hrecord, rfl⟩ := Option.bind_eq_some_iff.1 h
    exact ⟨value, hrecord⟩
  · rintro ⟨value, hrecord⟩
    rw [leaseOf, hrecord]
    rfl

/-- What a request that is carried out does to the content and the leases. -/
inductive Served (store : Store) : {m : Method} → Request m → Answer m → Store → Prop
  | read {m : Method} {request : Request m} {answer : Answer m} {after : Store}
      (hreads : m.isReading = true) (hsame : store.SameHoldings after) :
      store.Served request answer after
  | put {key value : String} {lease : Option LeaseId} {after : Store}
      (hlive : ∀ id, lease = some id → store.isLive id = true)
      (hcontent : ∀ other, after.content.get? other =
        if other = key then some ⟨value, lease⟩ else store.content.get? other)
      (hleases : after.leases = store.leases) (hgranted : after.granted = store.granted)
      (hclosed : after.feed.closed = store.feed.closed) :
      store.Served (.put key value lease) () after
  | delete {key : String} {after : Store}
      (hcontent : ∀ other, after.content.get? other =
        if other = key then none else store.content.get? other)
      (hleases : after.leases = store.leases) (hgranted : after.granted = store.granted)
      (hclosed : after.feed.closed = store.feed.closed) :
      store.Served (.delete key) () after
  | grant {ttl : Int} :
      store.Served (.grant ttl) (⟨store.granted + 1⟩ : LeaseId) { store with
        leases := (⟨store.granted + 1⟩, ttl) :: store.leases
        granted := store.granted + 1 }
  | revoke {lease : LeaseId} {after : Store}
      (hcontent : ∀ other, after.content.get? other =
        (store.content.get? other).filter fun record => record.lease ≠ some lease)
      (hleases : after.leases = store.leases.filter fun other => other.1 ≠ lease)
      (hgranted : after.granted = store.granted)
      (hclosed : after.feed.closed = store.feed.closed) :
      store.Served (.revoke lease) () after

@[simp] theorem closed_publish (feed : Feed) (batch : List Event) :
    (feed.publish batch).closed = feed.closed := by
  unfold Feed.publish
  split <;> rfl

/-- Every request that is carried out is served by one of the rules. -/
theorem served_of_serve {store after : Store} {clock : Nat} {m : Method} {request : Request m}
    {answer : Answer m} (h : store.serve clock request = .ok (answer, after)) :
    store.Served request answer after := by
  cases request with
  | get key =>
    obtain ⟨row, -, hrow⟩ := of_map_ok h
    cases hrow
    exact .read rfl (.refl _)
  | getPrefix directory =>
    obtain ⟨-, rfl⟩ := of_getPrefix h
    exact .read rfl ⟨rfl, rfl, rfl, rfl⟩
  | put key value lease =>
    obtain ⟨later, hput, hlater⟩ := of_map_ok h
    cases hlater
    obtain ⟨-, hlive, rfl⟩ := of_put hput
    exact .put hlive (fun other => Keyspace.get?_insert _ _ _ _) rfl rfl (closed_publish _ _)
  | delete key =>
    obtain ⟨later, hdelete, hlater⟩ := of_map_ok h
    cases hlater
    obtain ⟨-, rfl⟩ := of_delete hdelete
    by_cases hkey : (store.content.get? key).isSome = true
    · rw [if_pos hkey]
      exact .delete (fun other => Keyspace.get?_erase _ _ _) rfl rfl (closed_publish _ _)
    · rw [if_neg hkey]
      refine .delete (fun other => ?_) rfl rfl rfl
      split
      · rename_i heq
        rw [heq]
        simpa using hkey
      · rfl
  | grant ttl =>
    obtain ⟨rfl, rfl⟩ := of_grant h
    exact .grant
  | revoke lease =>
    obtain ⟨later, hrevoke, hlater⟩ := of_map_ok h
    cases hlater
    obtain ⟨-, -, rfl⟩ := of_revoke hrevoke
    exact .revoke (fun other => Keyspace.get?_keep _ _ _) rfl rfl (closed_publish _ _)
  | keepAlive lease interval =>
    obtain ⟨renewal, -, hrenewal⟩ := of_map_ok h
    cases hrenewal
    exact .read rfl (.refl _)
  | watch directory =>
    obtain ⟨sub, -, hsub⟩ := of_map_ok h
    cases hsub
    exact .read rfl (.refl _)

/-- A store that does not answer carries out nothing. -/
theorem serve_of_check_error {store : Store} {e : Error} (h : store.check = .error e) (clock : Nat)
    {m : Method} (request : Request m) : store.serve clock request = .error e := by
  cases request <;> simp [serve, get, getPrefix, put, delete, grant, revoke, keepAlive, watch, h] <;> rfl

theorem check_of_serve {store : Store} {clock : Nat} {m : Method} {request : Request m}
    {result : Answer m × Store} (h : store.serve clock request = .ok result) : store.check = .ok () := by
  cases hcheck : store.check with
  | ok => rfl
  | error e =>
    rw [serve_of_check_error hcheck] at h
    cases h

/-- What a store is once it has granted a lease. -/
def leased (store : Store) (ttl : Int) : Store :=
  { store with leases := (⟨store.granted + 1⟩, ttl) :: store.leases, granted := store.granted + 1 }

@[simp] theorem check_leased (store : Store) (ttl : Int) : (store.leased ttl).check = store.check := rfl

@[simp] theorem ttl?_leased (store : Store) (ttl : Int) :
    (store.leased ttl).ttl? ⟨store.granted + 1⟩ = some ttl := by
  simp [leased, ttl?]

theorem isLive_leased (store : Store) (ttl : Int) :
    (store.leased ttl).isLive ⟨store.granted + 1⟩ = true := by
  simp [isLive]

/-- What a store is once a value was put under a key. -/
def written (store : Store) (key value : String) (lease : LeaseId) : Store :=
  { store with
    content := store.content.insert key ⟨value, some lease⟩
    feed := store.feed.publish [⟨.put, key⟩] }

@[simp] theorem check_written (store : Store) (key value : String) (lease : LeaseId) :
    (store.written key value lease).check = store.check := by
  simp only [written, check, closed_publish]

section
variable {store : Store} (hcheck : store.check = .ok ())
include hcheck

/-- A store that answers grants a lease. -/
theorem grant_of_check (ttl : Int) : store.grant ttl = .ok (⟨store.granted + 1⟩, store.leased ttl) := by
  simp only [grant, hcheck]
  rfl

theorem serve_grant_of_check (clock : Nat) (ttl : Int) : store.serve clock (.grant ttl) =
    .ok ((⟨store.granted + 1⟩ : LeaseId), store.leased ttl) := grant_of_check hcheck ttl

/-- It puts a value under a key that is attached to a live lease. -/
theorem serve_put_of_check (clock : Nat) (key value : String) {lease : LeaseId}
    (hlive : store.isLive lease = true) : store.serve clock (.put key value (some lease)) =
      .ok ((), store.written key value lease) := by
  simp only [serve, put, hcheck, hlive, if_true]
  rfl

/-- It opens the stream of renewals of a live lease. -/
theorem keepAlive_of_check {lease : LeaseId} {ttl : Int} (httl : store.ttl? lease = some ttl)
    (clock : Nat) (interval : Duration) :
    store.keepAlive clock lease interval = .ok (Renewal.start lease ttl clock interval) := by
  simp only [keepAlive, hcheck, httl]
  rfl

end

theorem lookup_filter_ne {leases : List (LeaseId × Int)} {lease other : LeaseId} :
    (leases.filter fun entry => entry.1 ≠ lease).lookup other =
      if other = lease then none else leases.lookup other := by
  induction leases with
  | nil => simp
  | cons entry leases ih =>
    by_cases hentry : entry.1 = lease
    · rw [List.filter_cons_of_neg (by simpa using hentry), ih, List.lookup_cons]
      by_cases hother : other = lease
      · rw [if_pos hother, if_pos hother]
      · rw [if_neg hother, if_neg hother, beq_eq_false_iff_ne.2 (hentry ▸ hother)]
    · rw [List.filter_cons_of_pos (by simpa using hentry), List.lookup_cons, List.lookup_cons, ih]
      by_cases hother : other = entry.1
      · have hne : other ≠ lease := fun heq => hentry (hother.symm.trans heq)
        simp only [beq_iff_eq.2 hother, if_neg hne]
      · rw [beq_eq_false_iff_ne.2 hother]

section
variable {store after : Store} {m : Method} {request : Request m} {answer : Answer m}
  (h : store.Served request answer after)
include h

theorem Served.same (hreads : m.isReading = true) : store.SameHoldings after := by
  cases h with
  | read hreading hsame => exact hsame
  | _ => cases hreads

/-- A lease that is live after a request was live before, or has just been granted. -/
theorem Served.isLive_cases {lease : LeaseId} (hlive : after.isLive lease = true) :
    store.isLive lease = true ∨ lease = ⟨store.granted + 1⟩ ∧ after.granted = store.granted + 1 := by
  cases h with
  | read hreads hsame => exact .inl (hsame.isLive lease ▸ hlive)
  | put hbefore hcontent hleases hgranted hclosed =>
    left
    rwa [isLive, ttl?, hleases] at hlive
  | delete hcontent hleases hgranted hclosed =>
    left
    rwa [isLive, ttl?, hleases] at hlive
  | grant =>
    by_cases hnew : lease = ⟨store.granted + 1⟩
    · exact .inr ⟨hnew, rfl⟩
    · left
      simpa [isLive, ttl?, List.lookup_cons, beq_eq_false_iff_ne.2 hnew] using hlive
  | revoke hcontent hleases hgranted hclosed =>
    left
    rw [isLive, ttl?, hleases, lookup_filter_ne] at hlive
    split at hlive
    · cases hlive
    · exact hlive

/-- The time-to-live of a lease is that which it was granted with. -/
theorem Served.ttl?_cases {lease : LeaseId} {ttl : Int} (httl : after.ttl? lease = some ttl) :
    store.ttl? lease = some ttl ∨ lease = ⟨store.granted + 1⟩ := by
  cases h with
  | read hreads hsame => exact .inl (hsame.ttl?_eq lease ▸ httl)
  | put hbefore hcontent hleases hgranted hclosed =>
    left
    rwa [ttl?, hleases] at httl
  | delete hcontent hleases hgranted hclosed =>
    left
    rwa [ttl?, hleases] at httl
  | grant =>
    by_cases hnew : lease = ⟨store.granted + 1⟩
    · exact .inr hnew
    · left
      simpa [ttl?, List.lookup_cons, beq_eq_false_iff_ne.2 hnew] using httl
  | revoke hcontent hleases hgranted hclosed =>
    left
    rw [ttl?, hleases, lookup_filter_ne] at httl
    split at httl
    · cases httl
    · exact httl

/-- A key that is attached to a lease after a request was attached to it before, or has just been
attached to it, and then the lease is live. -/
theorem Served.leaseOf_cases {key : String} {lease : LeaseId} (hkey : after.leaseOf key = some lease) :
    store.leaseOf key = some lease ∨
      request.attachment? = some (key, lease) ∧ store.isLive lease = true := by
  cases h with
  | read hreads hsame => exact .inl (hsame.leaseOf key ▸ hkey)
  | @put other value given _ hbefore hcontent hleases hgranted hclosed =>
    rw [leaseOf, hcontent] at hkey
    split at hkey
    · rename_i heq
      right
      subst heq
      have hgiven : given = some lease := hkey
      exact ⟨by simp [hgiven, Request.attachment?], hbefore lease hgiven⟩
    · exact .inl hkey
  | delete hcontent hleases hgranted hclosed =>
    left
    rw [leaseOf, hcontent] at hkey
    split at hkey
    · cases hkey
    · exact hkey
  | grant => exact .inl hkey
  | revoke hcontent hleases hgranted hclosed =>
    left
    obtain ⟨value, hrecord⟩ := leaseOf_eq_some.1 hkey
    rw [hcontent] at hrecord
    exact leaseOf_eq_some.2 ⟨value, (Option.filter_eq_some_iff.1 hrecord).1⟩

/-- Nothing but a grant brings a lease up. -/
theorem Served.involves_cases {lease : LeaseId} (hafter : after.Involves lease) :
    store.Involves lease ∨ lease = ⟨store.granted + 1⟩ ∧ after.granted = store.granted + 1 := by
  rcases hafter with hlive | ⟨key, hkey⟩
  · exact (h.isLive_cases hlive).imp_left .inl
  · rcases h.leaseOf_cases hkey with hbefore | ⟨-, hlive⟩
    · exact .inl (.inr ⟨key, hbefore⟩)
    · exact .inl (.inl hlive)

theorem Served.granted_le : store.granted ≤ after.granted := by
  cases h with
  | read hreads hsame => exact hsame.granted.ge
  | put hbefore hcontent hleases hgranted hclosed => exact hgranted.ge
  | delete hcontent hleases hgranted hclosed => exact hgranted.ge
  | grant => exact Nat.le_succ _
  | revoke hcontent hleases hgranted hclosed => exact hgranted.ge

theorem Served.closed_eq : after.feed.closed = store.feed.closed := by
  cases h with
  | read hreads hsame => exact hsame.closed
  | put hbefore hcontent hleases hgranted hclosed => exact hclosed
  | delete hcontent hleases hgranted hclosed => exact hclosed
  | grant => rfl
  | revoke hcontent hleases hgranted hclosed => exact hclosed

/-- A lease that is not revoked stays live. -/
theorem Served.isLive_kept {lease : LeaseId} (hother : ¬ request.Ends lease)
    (hlive : store.isLive lease = true) : after.isLive lease = true := by
  cases h with
  | read hreads hsame => exact (hsame.isLive lease).trans hlive
  | put hbefore hcontent hleases hgranted hclosed => rwa [isLive, ttl?, hleases]
  | delete hcontent hleases hgranted hclosed => rwa [isLive, ttl?, hleases]
  | grant =>
    by_cases hnew : lease = ⟨store.granted + 1⟩
    · simp [isLive, ttl?, hnew]
    · simpa [isLive, ttl?, List.lookup_cons, beq_eq_false_iff_ne.2 hnew] using hlive
  | revoke hcontent hleases hgranted hclosed =>
    rw [isLive, ttl?, hleases, lookup_filter_ne, if_neg fun heq => hother heq.symm]
    exact hlive

/-- What stands under a key changes only by a request that is about the key, or about the lease to which it is
attached. -/
theorem Served.get?_cases (key : String) :
    after.content.get? key = store.content.get? key ∨ request.Changes key ∨
      after.content.get? key = none ∧
        ∃ lease, request.Ends lease ∧ store.leaseOf key = some lease := by
  cases h with
  | read hreads hsame => exact .inl (by rw [hsame.content])
  | @put other value lease after hlive hcontent =>
    by_cases hkey : other = key
    · exact .inr (.inl hkey)
    · exact .inl ((hcontent key).trans (if_neg fun heq => hkey heq.symm))
  | @delete other after hcontent =>
    by_cases hkey : other = key
    · exact .inr (.inl hkey)
    · exact .inl ((hcontent key).trans (if_neg fun heq => hkey heq.symm))
  | grant => exact .inl rfl
  | @revoke lease after hcontent =>
    rw [hcontent]
    cases hrecord : store.content.get? key with
    | none => exact .inl rfl
    | some record =>
      by_cases hlease : record.lease = some lease
      · refine .inr (.inr ⟨by simp [Option.filter, hlease], lease, rfl, ?_⟩)
        rw [leaseOf, hrecord]
        exact hlease
      · exact .inl (by simp [Option.filter, hlease])

/-- A key stays attached to a lease as long as no request is about the key or the lease. -/
theorem Served.get?_kept {key value : String} {lease : LeaseId}
    (hkey : ¬ request.Changes key) (hlease : ¬ request.Ends lease)
    (hrecord : store.content.get? key = some ⟨value, some lease⟩) :
    after.content.get? key = some ⟨value, some lease⟩ := by
  rcases h.get?_cases key with hsame | hchanges | ⟨-, other, hends, hheld⟩
  · rw [hsame, hrecord]
  · exact absurd hchanges hkey
  · rw [leaseOf_eq_some.2 ⟨value, hrecord⟩] at hheld
    cases hheld
    exact absurd hends hlease

end

/-! ## Stores in general -/

theorem sound_empty : Store.empty.Sound := by
  constructor
  · rintro lease (hlive | ⟨key, hkey⟩)
    · cases hlive
    · cases hkey
  · rintro - key lease hkey
    cases hkey

theorem Sound.served {store after : Store} {m : Method} {request : Request m} {answer : Answer m}
    (h : store.Sound) (hserved : store.Served request answer after) : after.Sound := by
  constructor
  · intro lease hafter
    rcases hserved.involves_cases hafter with hbefore | ⟨rfl, hgranted⟩
    · exact (h.numbered lease hbefore).trans (Int.ofNat_le.2 hserved.granted_le)
    · rw [hgranted]
      exact le_of_eq (by simp)
  · intro hopen key lease hkey
    have hbefore : store.isLive lease = true := by
      rcases hserved.leaseOf_cases hkey with hbefore | ⟨-, hlive⟩
      · exact h.attached (hserved.closed_eq ▸ hopen) key lease hbefore
      · exact hlive
    refine hserved.isLive_kept (fun hends => ?_) hbefore
    cases hserved with
    | read hreads hsame =>
      cases request with
      | revoke other => cases hreads
      | _ => cases hends
    | revoke hcontent hleases hgranted hclosed =>
      cases hends
      obtain ⟨value, hrecord⟩ := leaseOf_eq_some.1 hkey
      rw [hcontent] at hrecord
      simpa using (Option.filter_eq_some_iff.1 hrecord).2
    | _ => cases hends

theorem involves_of_close {store : Store} {lease : LeaseId} (h : store.close.Involves lease) :
    store.Involves lease := by
  rcases h with hlive | hkey
  · cases hlive
  · exact .inr hkey

theorem Sound.close {store : Store} (h : store.Sound) : store.close.Sound := by
  constructor
  · exact fun lease hlease => h.numbered lease (involves_of_close hlease)
  · exact nofun

theorem Sound.unavailable {store : Store} (h : store.Sound) (value : Bool) :
    Sound { store with unavailable := value } :=
  ⟨h.numbered, h.attached⟩

theorem Sound.same {before after : Store} (h : before.Sound) (hsame : before.SameHoldings after) :
    after.Sound := by
  constructor
  · intro lease hafter
    rw [hsame.granted]
    exact h.numbered lease (hsame.involves hafter)
  · intro hopen key lease hkey
    rw [hsame.isLive]
    exact h.attached (hsame.closed ▸ hopen) key lease (hsame.leaseOf key ▸ hkey)

/-- After its revocation a lease is not live, and no key is attached to it. -/
theorem not_involves_of_revoke {store after : Store} {clock : Nat} {lease : LeaseId} {answer : Unit}
    (h : store.serve clock (.revoke lease) = .ok (answer, after)) : ¬ after.Involves lease := by
  cases served_of_serve h with
  | read hreads => cases hreads
  | revoke hcontent hleases hgranted hclosed =>
    rintro (hlive | ⟨key, hkey⟩)
    · rw [isLive, ttl?, hleases, lookup_filter_ne, if_pos rfl] at hlive
      cases hlive
    · obtain ⟨value, hrecord⟩ := leaseOf_eq_some.1 hkey
      rw [hcontent] at hrecord
      simpa using (Option.filter_eq_some_iff.1 hrecord).2

/-- A lease that the store does not find is not live, and no key is attached to it. -/
theorem Sound.not_involves_of_leaseNotFound {store : Store} (h : store.Sound) {clock : Nat}
    {lease : LeaseId} {number : Int}
    (hserve : store.serve clock (.revoke lease) = .error (.leaseNotFound number)) :
    ¬ store.Involves lease := by
  have hrevoke : store.revoke lease = .error (.leaseNotFound number) := by
    simp only [serve] at hserve
    cases hresult : store.revoke lease with
    | ok after =>
      rw [hresult] at hserve
      cases hserve
    | error e =>
      rw [hresult] at hserve
      cases hserve
      rfl
  have hopen : store.feed.closed = false ∧ store.isLive lease = false := by
    unfold revoke at hrevoke
    cases hcheck : store.check with
    | error e =>
      rw [hcheck] at hrevoke
      unfold check at hcheck
      split at hcheck
      · cases hcheck
        cases hrevoke
      · split at hcheck <;> cases hcheck
        cases hrevoke
    | ok u =>
      rw [hcheck] at hrevoke
      refine ⟨(of_check hcheck).2, ?_⟩
      cases hlive : store.isLive lease with
      | false => rfl
      | true =>
        simp only [hlive] at hrevoke
        cases hrevoke
  rintro (hlive | ⟨key, hkey⟩)
  · rw [hopen.2] at hlive
    cases hlive
  · rw [h.attached hopen.1 key lease hkey] at hopen
    cases hopen.2

end Store

end ServiceRegistry
