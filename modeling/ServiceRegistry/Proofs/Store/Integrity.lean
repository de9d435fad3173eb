import ServiceRegistry.Store.Operation
import ServiceRegistry.Proofs.Store.Leases
import ServiceRegistry.Proofs.Store.Replay

/-!
# Integrity of the leases of a store

A store is worked on in place, so that a failed operation leaves nothing behind is something to show: each
of them either comes to the end that `Store.serve` describes or leaves the store as it was (`on_perform`).
A `Chronicle` is a store together with all that was asked of it since it was new, failures included. From
it one reads which leases were handed out and to which lease each key was attached last, and these agree
with what the store holds (`Consistent`).
-/
namespace ServiceRegistry

namespace Keyspace

theorem ext_rows {ks other : Keyspace} (h : ks.rows = other.rows) : ks = other := by
  cases ks
  cases other
  cases h
  rfl

/-- The erasure of a key that is not there changes nothing. -/
theorem erase_of_get?_eq_none {ks : Keyspace} {key : String} (h : ks.get? key = none) :
    ks.erase key = ks := by
  refine ext_rows (List.filter_eq_self.2 fun row hrow => decide_eq_true fun heq => ?_)
  rw [← heq, get?_of_mem hrow] at h
  cases h

/-- Tests that agree on the rows keep the same rows. -/
theorem keep_congr {ks : Keyspace} {p q : String → Record → Bool}
    (h : ∀ row ∈ ks.rows, p row.1 row.2 = q row.1 row.2) : ks.keep p = ks.keep q :=
  ext_rows (List.filter_congr h)

/-- Keys that are erased one after another. -/
theorem foldl_erase (ks : Keyspace) (keys : List String) :
    keys.foldl erase ks = ks.keep fun key _ => key ∉ keys := by
  induction keys generalizing ks with
  | nil => exact (ext_rows (by simp [keep])).symm
  | cons key keys ih =>
    rw [List.foldl_cons, ih]
    apply ext_rows
    simp only [erase, keep, List.filter_filter, List.mem_cons, not_or, Bool.decide_and]
    exact List.filter_congr fun row _ => Bool.and_comm _ _

end Keyspace

theorem Store.mem_attached {store : Store} {lease : LeaseId} {row : String × Record}
    (h : row ∈ store.content.rows) : row.1 ∈ store.attached lease ↔ row.2.lease = some lease := by
  constructor
  · intro hattached
    obtain ⟨other, hother, hkey⟩ := List.mem_map.1 hattached
    obtain ⟨hmem, hlease⟩ := List.mem_filter.1 hother
    have hrow := Keyspace.get?_of_mem h
    rw [← hkey, Keyspace.get?_of_mem hmem] at hrow
    rw [← Option.some.inj hrow]
    exact of_decide_eq_true hlease
  · exact fun hlease => List.mem_map.2 ⟨row, List.mem_filter.2 ⟨h, decide_eq_true hlease⟩, rfl⟩

/-! ## Operations in place -/

namespace Operation

variable (store : Store)

theorem on_get (key : String) :
    (get key).on store = settled store ((store.get key).map fun row => (row, store)) := by
  simp only [get, on_bind, on_check, on_getThe, on_pure, Store.get]
  cases store.check <;> rfl

theorem on_getPrefix (directory : String) :
    (getPrefix directory).on store = settled store (store.getPrefix directory) := by
  simp only [getPrefix, on_bind, on_check, on_getThe, on_modify, on_pure, Store.getPrefix]
  cases store.check <;> rfl

theorem on_put (key value : String) (lease : Option LeaseId) :
    (put key value lease).on store =
      settled store ((store.put key value lease).map fun after => ((), after)) := by
  simp only [put, on_bind, on_check, Store.put]
  cases store.check with
  | error e => rfl
  | ok u =>
    cases lease with
    | none => rfl
    | some id =>
      simp only [on_bind, on_getThe]
      cases store.isLive id <;> rfl

/-- A key that is not there is erased all the same, and nothing comes of it. -/
theorem on_delete (key : String) :
    (delete key).on store =
      settled store ((store.delete key).map fun after => ((), after)) := by
  simp only [delete, on_bind, on_check, on_getThe, erase, on_modify, Store.delete]
  cases store.check with
  | error e => rfl
  | ok u =>
    cases hkey : store.content.get? key with
    | none =>
      simp only [hkey, Keyspace.erase_of_get?_eq_none hkey]
      rfl
    | some record =>
      simp only [hkey]
      rfl

theorem on_grant (ttl : Int) : (grant ttl).on store = settled store (store.grant ttl) := by
  simp only [grant, on_bind, on_check, on_getThe, on_modify, on_pure, Store.grant]
  cases store.check <;> rfl

theorem on_forM_erase (keys : List String) :
    (keys.forM erase).on store =
      (.ok (), { store with content := keys.foldl Keyspace.erase store.content }) := by
  induction keys generalizing store with
  | nil => rfl
  | cons key keys ih =>
    rw [List.forM, on_bind]
    exact ih _

/-- A lease that is not there is removed all the same, before the operation fails, and nothing comes of
it. The keys of a lease that is there go one by one. -/
theorem on_revoke (lease : LeaseId) :
    (revoke lease).on store =
      settled store ((store.revoke lease).map fun after => ((), after)) := by
  simp only [revoke, on_bind, on_check, on_getThe, on_modify, Store.revoke]
  cases store.check with
  | error e => rfl
  | ok u =>
    cases hlive : store.isLive lease with
    | false =>
      have hleases : (store.leases.filter fun other => decide (other.1 ≠ lease)) = store.leases :=
        List.filter_eq_self.2 fun other hmem => decide_eq_true fun heq => by
          rw [Store.isLive, Store.ttl?, Option.isSome_eq_false_iff, Option.isNone_iff_eq_none,
            List.lookup_eq_none_iff] at hlive
          simpa [heq] using hlive other hmem
      simp only [hleases, hlive]
      rfl
    | true =>
      have hcontent : (store.attached lease).foldl Keyspace.erase store.content =
          store.content.keep fun _ record => record.lease ≠ some lease := by
        rw [Keyspace.foldl_erase]
        exact Keyspace.keep_congr fun row hrow =>
          decide_eq_decide.2 (not_congr (Store.mem_attached hrow))
      simp only [hlive, if_true, on_bind, on_getThe, on_forM_erase, publish, on_modify]
      exact congrArg (fun content => ((Except.ok () : Except Error Unit), { store with
        content := content
        leases := store.leases.filter fun other => decide (other.1 ≠ lease)
        feed := store.feed.publish ((store.attached lease).map fun key => ⟨.delete, key⟩) })) hcontent

theorem on_keepAlive (clock : Nat) (lease : LeaseId) (interval : Duration) :
    (keepAlive clock lease interval).on store =
      settled store ((store.keepAlive clock lease interval).map fun renewal => (renewal, store)) := by
  simp only [keepAlive, on_bind, on_check, on_getThe, Store.keepAlive]
  cases store.check with
  | error e => rfl
  | ok u => cases hlease : store.ttl? lease <;> simp only [hlease] <;> rfl

/-- The check has seen to it that the feed is open. -/
theorem on_watch (directory : String) :
    (watch directory).on store =
      settled store ((store.watch directory).map fun sub => (sub, store)) := by
  simp only [watch, on_bind, on_check, on_getThe, Store.watch]
  cases hcheck : store.check with
  | error e => rfl
  | ok u => simp only [(Store.of_check hcheck).2]; rfl

/-- An operation comes to the end that `Store.serve` describes, or it leaves the store as it was. -/
theorem on_perform (clock : Nat) {m : Method} (request : Request m) :
    (perform clock request).on store = settled store (store.serve clock request) := by
  cases request with
  | get key => exact on_get store key
  | getPrefix directory => exact on_getPrefix store directory
  | put key value lease => exact on_put store key value lease
  | delete key => exact on_delete store key
  | grant ttl => exact on_grant store ttl
  | revoke lease => exact on_revoke store lease
  | keepAlive lease interval =>
    refine (on_map store Renewals.live (keepAlive clock lease interval)).trans ?_
    rw [on_keepAlive]
    simp only [Store.serve]
    cases store.keepAlive clock lease interval <;> rfl
  | watch directory =>
    refine (on_map store Changes.live (watch directory)).trans ?_
    rw [on_watch]
    simp only [Store.serve]
    cases store.watch directory <;> rfl

/-- What fails has left the store as it was. -/
theorem after_of_error {store after : Store} {clock : Nat} {m : Method} {request : Request m} {e : Error}
    (h : (perform clock request).on store = (.error e, after)) : after = store := by
  rw [on_perform] at h
  cases hserve : store.serve clock request with
  | ok served =>
    rw [hserve] at h
    cases congrArg Prod.fst h
  | error found =>
    rw [hserve] at h
    exact (congrArg Prod.snd h).symm

end Operation

/-! ## What was asked of a store since it was new -/

/-- A request and how it ended. -/
structure Exchange where
  {method : Method}
  request : Request method
  result : Except Error (Answer method)

/-- The lease that was handed out. -/
def Exchange.granted? : Exchange → Option LeaseId
  | ⟨.grant _, .ok lease⟩ => some lease
  | _ => none

/-- The lease, if any, to which a put has attached the key. -/
def Exchange.attached? (key : String) : Exchange → Option (Option LeaseId)
  | ⟨.put other _ lease, .ok _⟩ => if other = key then some lease else none
  | _ => none

/-- A store and what was asked of it since it was new, oldest first. -/
structure Chronicle where
  store : Store
  exchanges : List Exchange

namespace Chronicle

def start : Chronicle := ⟨Store.empty, []⟩

def after (past : Chronicle) : Happening → Chronicle
  | .request clock request =>
    let (result, store) := (Operation.perform clock request).on past.store
    ⟨store, past.exchanges ++ [⟨request, result⟩]⟩
  | .outage unavailable => { past with store := { past.store with unavailable := unavailable } }
  | .close => { past with store := past.store.close }
  | .look => past

def run (past : Chronicle) (happenings : List Happening) : Chronicle := happenings.foldl after past

/-- All leases that were handed out, oldest first. -/
def granted (past : Chronicle) : List LeaseId := past.exchanges.filterMap Exchange.granted?

/-- What the latest put of a key has attached it to. -/
def latest? (past : Chronicle) (key : String) : Option (Option LeaseId) :=
  (past.exchanges.filterMap (Exchange.attached? key)).getLast?

/-- The store agrees with what was asked of it. -/
structure Consistent (past : Chronicle) : Prop where
  sound : past.store.Sound
  granted_le : ∀ lease ∈ past.granted, lease.number ≤ past.store.granted
  nodup : past.granted.Nodup
  latest : ∀ key record, past.store.content.get? key = some record →
    past.latest? key = some record.lease

theorem consistent_start : start.Consistent :=
  ⟨Store.sound_empty, nofun, .nil, nofun⟩

theorem granted_append (past : Chronicle) (exchange : Exchange) (store : Store) :
    granted ⟨store, past.exchanges ++ [exchange]⟩ = past.granted ++ exchange.granted?.toList := by
  rw [granted, List.filterMap_append]
  cases hgranted : exchange.granted? <;> simp [granted, hgranted]

theorem latest?_append (past : Chronicle) (exchange : Exchange) (store : Store) (key : String) :
    latest? ⟨store, past.exchanges ++ [exchange]⟩ key =
      (exchange.attached? key).or (past.latest? key) := by
  rw [latest?, List.filterMap_append]
  cases hput : exchange.attached? key <;> simp [latest?, hput]

/-- An exchange that hands out no lease and attaches no key, of a request that has left the content. -/
theorem Consistent.unrelated {past : Chronicle} (h : past.Consistent) {exchange : Exchange} {store : Store}
    (hsound : store.Sound) (hcontent : ∀ key record, store.content.get? key = some record →
      exchange.attached? key = none ∧ past.store.content.get? key = some record)
    (hnumber : past.store.granted ≤ store.granted) (hgranted : exchange.granted? = none) :
    Consistent ⟨store, past.exchanges ++ [exchange]⟩ := by
  have hall : granted ⟨store, past.exchanges ++ [exchange]⟩ = past.granted := by
    rw [granted_append, hgranted, Option.toList_none, List.append_nil]
  refine ⟨hsound, fun lease hlease => ?_, hall ▸ h.nodup, fun key record hrecord => ?_⟩
  · rw [hall] at hlease
    exact (h.granted_le lease hlease).trans (Int.ofNat_le.2 hnumber)
  · obtain ⟨hnone, hbefore⟩ := hcontent key record hrecord
    rw [latest?_append, hnone, Option.none_or]
    exact h.latest key record hbefore

theorem Consistent.failed {past : Chronicle} (h : past.Consistent) {m : Method} (request : Request m)
    (e : Error) : Consistent ⟨past.store, past.exchanges ++ [⟨request, .error e⟩]⟩ := by
  refine h.unrelated h.sound (fun key record hrecord => ⟨?_, hrecord⟩) le_rfl ?_
  · cases request <;> rfl
  · cases request <;> rfl

/-- A request that was carried out: a grant hands out a number that is greater than all before, and a put
is from now on the latest of its key. -/
theorem Consistent.served {past : Chronicle} (h : past.Consistent) {m : Method} {request : Request m}
    {answer : Answer m} {store : Store} (hserved : past.store.Served request answer store) :
    Consistent ⟨store, past.exchanges ++ [⟨request, .ok answer⟩]⟩ := by
  have hsound := h.sound.served hserved
  have hnumber := hserved.granted_le
  cases hserved with
  | read hreads hsame =>
    refine h.unrelated hsound (fun key record hrecord => ⟨?_, hsame.content ▸ hrecord⟩) hnumber ?_
    · cases request <;> first | rfl | cases hreads
    · cases request <;> first | rfl | cases hreads
  | @put key value lease _ hlive hcontent hleases hgranted hclosed =>
    have hall : granted ⟨store, past.exchanges ++ [⟨.put key value lease, .ok ()⟩]⟩ = past.granted := by
      rw [granted_append]
      exact List.append_nil _
    refine ⟨hsound, hall ▸ hgranted ▸ h.granted_le, hall ▸ h.nodup, fun other record hrecord => ?_⟩
    rw [latest?_append]
    rw [hcontent] at hrecord
    by_cases hother : other = key
    · rw [if_pos hother] at hrecord
      cases hrecord
      simp [Exchange.attached?, hother]
    · rw [if_neg hother] at hrecord
      have hnone : Exchange.attached? other ⟨.put key value lease, .ok ()⟩ = none :=
        if_neg (Ne.symm hother)
      rw [hnone, Option.none_or]
      exact h.latest other record hrecord
  | delete hcontent hleases hgranted hclosed =>
    refine h.unrelated hsound (fun other record hrecord => ⟨rfl, ?_⟩) hnumber rfl
    rw [hcontent] at hrecord
    split at hrecord
    · cases hrecord
    · exact hrecord
  | grant =>
    have hnew : ∀ lease ∈ past.granted, lease ≠ ⟨past.store.granted + 1⟩ := fun lease hlease heq => by
      have hle := h.granted_le lease hlease
      rw [heq] at hle
      exact absurd hle (not_le.2 (Int.lt_succ _))
    refine ⟨hsound, fun lease hlease => ?_, ?_, fun key record hrecord => ?_⟩
    · rw [granted_append] at hlease
      rcases List.mem_append.1 hlease with hold | hlast
      · exact (h.granted_le lease hold).trans (Int.ofNat_le.2 (Nat.le_succ _))
      · rw [List.mem_singleton.1 hlast]
        exact le_of_eq (by simp)
    · rw [granted_append]
      exact List.nodup_append.2 ⟨h.nodup, List.nodup_singleton _, fun lease hold last hlast =>
        List.mem_singleton.1 hlast ▸ hnew lease hold⟩
    · rw [latest?_append]
      exact h.latest key record hrecord
  | revoke hcontent hleases hgranted hclosed =>
    refine h.unrelated hsound (fun other record hrecord => ⟨rfl, ?_⟩) hnumber rfl
    rw [hcontent] at hrecord
    exact (Option.filter_eq_some_iff.1 hrecord).1

theorem Consistent.after {past : Chronicle} (h : past.Consistent) (happening : Happening) :
    (past.after happening).Consistent := by
  cases happening with
  | request clock request =>
    simp only [Chronicle.after, Operation.on_perform]
    cases hserve : past.store.serve clock request with
    | ok served => exact h.served (Store.served_of_serve hserve)
    | error e => exact h.failed request e
  | outage unavailable => exact ⟨h.sound.unavailable _, h.granted_le, h.nodup, h.latest⟩
  | close => exact ⟨h.sound.close, h.granted_le, h.nodup, h.latest⟩
  | look => exact h

theorem consistent_run (happenings : List Happening) : (start.run happenings).Consistent := by
  suffices hrun : ∀ past : Chronicle, past.Consistent → (past.run happenings).Consistent from
    hrun start consistent_start
  induction happenings with
  | nil => exact fun past h => h
  | cons happening happenings ih => exact fun past h => ih _ (h.after happening)

/-! ## The end of a lease -/

/-- What the revocation of a lease leaves of a store. -/
structure Revocation (past : Chronicle) (lease : LeaseId) (after : Store) : Prop where
  ended : after.isLive lease = false
  others : ∀ other, other ≠ lease → after.ttl? other = past.store.ttl? other
  /-- The keys whose latest put named the lease go, and nothing else stands differently. -/
  content : ∀ key, after.content.get? key =
    if past.latest? key = some (some lease) then none else past.store.content.get? key
  granted : after.granted = past.store.granted
  scans : after.scans = past.store.scans
  unavailable : after.unavailable = past.store.unavailable
  closed : after.feed.closed = past.store.feed.closed
  /-- The keys that go are published in one batch, if there are any. -/
  published : ∃ gone : List String, gone.Pairwise (· < ·) ∧
    (∀ key, key ∈ gone ↔
      (past.store.content.get? key).isSome ∧ past.latest? key = some (some lease)) ∧
    after.feed.published = past.store.feed.published ++
      if gone = [] then [] else [gone.map fun key => ⟨.delete, key⟩]

theorem serve_revoke {store : Store} (clock : Nat) {lease : LeaseId} (hreach : store.unavailable = false)
    (hopen : store.feed.closed = false) (hlive : store.isLive lease = true) :
    store.serve clock (.revoke lease) = .ok ((), { store with
      content := store.content.keep fun _ record => record.lease ≠ some lease
      leases := store.leases.filter fun other => other.1 ≠ lease
      feed := store.feed.publish ((store.attached lease).map fun key => ⟨.delete, key⟩) }) := by
  have hcheck : store.check = .ok () := by simp [Store.check, hreach, hopen]
  simp only [Store.serve, Store.revoke, hcheck, hlive]
  rfl

theorem Consistent.revocation {past : Chronicle} (h : past.Consistent) {lease : LeaseId}
    (hopen : past.store.feed.closed = false) : past.Revocation lease { past.store with
      content := past.store.content.keep fun _ record => record.lease ≠ some lease
      leases := past.store.leases.filter fun other => other.1 ≠ lease
      feed := past.store.feed.publish ((past.store.attached lease).map fun key => ⟨.delete, key⟩) } where
  ended := by rw [Store.isLive, Store.ttl?, Store.lookup_filter_ne, if_pos rfl]; rfl
  others other hother := by rw [Store.ttl?, Store.lookup_filter_ne, if_neg hother]; rfl
  content key := by
    rw [Keyspace.get?_keep]
    cases hrecord : past.store.content.get? key with
    | none => simp
    | some record =>
      rw [h.latest key record hrecord]
      by_cases hlease : record.lease = some lease <;> simp [Option.filter, hlease]
  granted := rfl
  scans := rfl
  unavailable := rfl
  closed := Store.closed_publish _ _
  published := by
    refine ⟨past.store.attached lease, ?_, fun key => ?_, ?_⟩
    · exact List.pairwise_map.2 (past.store.content.increasing.filter _)
    · constructor
      · intro hkey
        obtain ⟨row, hrow, rfl⟩ := List.mem_map.1 hkey
        obtain ⟨hmem, hlease⟩ := List.mem_filter.1 hrow
        have hget := Keyspace.get?_of_mem hmem
        rw [h.latest _ _ hget, of_decide_eq_true hlease, hget]
        exact ⟨rfl, rfl⟩
      · rintro ⟨hsome, hlatest⟩
        obtain ⟨record, hrecord⟩ := Option.isSome_iff_exists.1 hsome
        rw [h.latest key record hrecord] at hlatest
        exact (Store.mem_attached (Keyspace.mem_of_get? hrecord)).2 (Option.some.inj hlatest)
    · by_cases hnone : past.store.attached lease = []
      · simp [Feed.publish, hnone]
      · simp [Feed.publish, hnone, hopen]

/-- As long as a store is open, every key that names a lease names a live one. No lease is handed out
twice. The revocation of a live lease takes that lease and just the keys away whose latest put named it. And
whatever fails leaves the store, and with it what every stream that watches it still has to deliver, as it
was. -/
theorem leases_keep_integrity (happenings : List Happening) :
    let past := start.run happenings
    (past.store.feed.closed = false → ∀ key lease, past.store.leaseOf key = some lease →
        past.store.isLive lease = true) ∧
      past.granted.Nodup ∧
      (∀ clock lease, past.store.feed.closed = false → past.store.unavailable = false →
        past.store.isLive lease = true →
          ∃ after, (Operation.perform clock (.revoke lease)).on past.store = (.ok (), after) ∧
            past.Revocation lease after) ∧
      (∀ (clock : Nat) (m : Method) (request : Request m) (e : Error) (after : Store),
        (Operation.perform clock request).on past.store = (.error e, after) →
          after.content = past.store.content ∧ after.leases = past.store.leases ∧
            after.granted = past.store.granted ∧ after.scans = past.store.scans ∧
            after.unavailable = past.store.unavailable ∧
            ∀ sub, after.feed.drain sub = past.store.feed.drain sub) := by
  intro past
  have h : past.Consistent := consistent_run happenings
  refine ⟨fun hopen => h.sound.attached hopen, h.nodup, fun clock lease hopen hreach hlive => ?_,
    fun clock m request e after hfails => ?_⟩
  · refine ⟨_, ?_, h.revocation hopen⟩
    rw [Operation.on_perform, serve_revoke clock hreach hopen hlive]
    rfl
  · obtain rfl := Operation.after_of_error hfails
    exact ⟨rfl, rfl, rfl, rfl, rfl, fun _ => rfl⟩

/-- A key that has been taken over by a second lease outlives the first. -/
theorem leases_keep_integrity_taken_over :
    let past := start.run
      [.request 0 (.grant 30), .request 0 (.put "svc/chat/a:1" "" (some ⟨1⟩)),
        .request 0 (.put "svc/chat/b:1" "" (some ⟨1⟩)), .request 0 (.grant 30),
        .request 0 (.put "svc/chat/a:1" "" (some ⟨2⟩)), .request 0 (.put "svc/chat/c:1" "" (some ⟨9⟩))]
    past.granted = [⟨1⟩, ⟨2⟩] ∧ past.store.leaseOf "svc/chat/a:1" = some ⟨2⟩ ∧
      past.store.isLive ⟨2⟩ = true ∧
      (∃ after, (Operation.perform 0 (.revoke ⟨1⟩)).on past.store = (.ok (), after) ∧
        after.isLive ⟨2⟩ = true ∧ after.leaseOf "svc/chat/a:1" = some ⟨2⟩ ∧
        after.leaseOf "svc/chat/b:1" = none) ∧
      ∃ after, (Operation.perform 0 (.revoke ⟨9⟩)).on past.store = (.error (.leaseNotFound 9), after) ∧
        after.scans = past.store.scans := by
  intro past
  obtain ⟨hattached, -, hrevoke, hfails⟩ := leases_keep_integrity
    [.request 0 (.grant 30), .request 0 (.put "svc/chat/a:1" "" (some ⟨1⟩)),
      .request 0 (.put "svc/chat/b:1" "" (some ⟨1⟩)), .request 0 (.grant 30),
      .request 0 (.put "svc/chat/a:1" "" (some ⟨2⟩)), .request 0 (.put "svc/chat/c:1" "" (some ⟨9⟩))]
  have hkey : past.store.leaseOf "svc/chat/a:1" = some ⟨2⟩ := by decide +kernel
  obtain ⟨after, hperform, hafter⟩ := hrevoke 0 ⟨1⟩ rfl rfl (by decide +kernel)
  have hlive : past.store.isLive ⟨2⟩ = true := hattached rfl _ _ hkey
  refine ⟨by decide +kernel, hkey, hlive, ⟨after, hperform, ?_, ?_, ?_⟩, ⟨_, rfl, ?_⟩⟩
  · rw [Store.isLive, hafter.others ⟨2⟩ (by decide)]
    exact hlive
  · rw [Store.leaseOf, hafter.content, if_neg (by decide +kernel)]
    exact hkey
  · rw [Store.leaseOf, hafter.content, if_pos (by decide +kernel)]
    rfl
  · exact (hfails 0 .revoke (.revoke ⟨9⟩) (.leaseNotFound 9) _ rfl).2.2.2.1

end Chronicle

end ServiceRegistry
