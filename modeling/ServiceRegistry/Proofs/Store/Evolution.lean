import ServiceRegistry.Store.Request
import Mathlib.Data.List.Sort

/-!
# Evolution of a store

Nothing that is done to a store rewrites its history: scans are only counted up, batches are only
added behind the published ones, and a key of which no event was published since a revision still
holds what it held then. `Evolves` says this of an earlier and a later store. It holds of every
request that is carried out, and it composes, so it holds between any two sites of a run.
-/
namespace ServiceRegistry

/-- A result that was made from another one was made from a success. -/
theorem of_map_ok {α β : Type} {x : Except Error α} {f : α → β} {b : β} (h : x.map f = .ok b) :
    ∃ a, x = .ok a ∧ f a = b := by
  cases x with
  | error e => cases h
  | ok a =>
    cases h
    exact ⟨a, rfl, rfl⟩

namespace Store

/-- No event of a key was published from a revision on. -/
def Untouched (store : Store) (revision : Nat) (key : String) : Prop :=
  ∀ batch ∈ store.feed.published.drop revision, ∀ event ∈ batch, event.key ≠ key

/-- What relates a store to a later state of it. -/
structure Evolves (before after : Store) : Prop where
  scans_le : before.scans ≤ after.scans
  published_prefix : before.feed.published <+: after.feed.published
  get?_eq : ∀ key, after.Untouched before.revision key →
    after.content.get? key = before.content.get? key

theorem Evolves.refl (store : Store) : store.Evolves store :=
  ⟨le_rfl, List.prefix_rfl, fun _ _ => rfl⟩

theorem Evolves.revision_le {before after : Store} (h : before.Evolves after) :
    before.revision ≤ after.revision := h.published_prefix.length_le

/-- A key that is untouched since a revision was untouched then, as far as the history went. -/
theorem Evolves.untouched {before after : Store} (h : before.Evolves after) {revision : Nat}
    {key : String} (hkey : after.Untouched revision key) : before.Untouched revision key := by
  obtain ⟨batches, hbatches⟩ := h.published_prefix
  intro batch hbatch
  apply hkey batch
  rw [← hbatches, List.drop_append]
  exact List.mem_append_left _ hbatch

theorem untouched_of_le {store : Store} {revision later : Nat} {key : String}
    (h : store.Untouched revision key) (hle : revision ≤ later) : store.Untouched later key := by
  intro batch hbatch
  exact h batch ((List.drop_subset_drop_left _ hle) hbatch)

theorem Evolves.trans {first second third : Store} (h : first.Evolves second)
    (h' : second.Evolves third) : first.Evolves third := by
  refine ⟨h.scans_le.trans h'.scans_le, h.published_prefix.trans h'.published_prefix, ?_⟩
  intro key hkey
  rw [h'.get?_eq key (untouched_of_le hkey h.revision_le), h.get?_eq key (h'.untouched hkey)]

/-! ## What an operation that succeeds has found and done -/

/-- A store that answers can be reached and is open. -/
theorem of_check {store : Store} {u : Unit} (h : store.check = .ok u) :
    store.unavailable = false ∧ store.feed.closed = false := by
  unfold check at h
  split at h
  · cases h
  · split at h
    · cases h
    · simp_all

/-- An operation that checks the store first and succeeds has found it open. -/
theorem of_check_bind {α : Type} {store : Store} {rest : Unit → Except Error α} {a : α}
    (h : store.check >>= rest = .ok a) :
    store.unavailable = false ∧ store.feed.closed = false ∧ rest () = .ok a := by
  cases hcheck : store.check with
  | error e =>
    rw [hcheck] at h
    cases h
  | ok u =>
    rw [hcheck] at h
    obtain ⟨havailable, hopen⟩ := of_check hcheck
    exact ⟨havailable, hopen, h⟩

theorem of_getPrefix {store after : Store} {directory : String} {rows : List Row}
    (h : store.getPrefix directory = .ok (rows, after)) :
    rows = store.rows directory ∧ after = { store with scans := store.scans + 1 } := by
  obtain ⟨-, -, h⟩ := of_check_bind h
  cases h
  exact ⟨rfl, rfl⟩

theorem of_put {store after : Store} {key value : String} {lease : Option LeaseId}
    (h : store.put key value lease = .ok after) :
    store.feed.closed = false ∧ (∀ id, lease = some id → store.isLive id = true) ∧
      after = { store with
        content := store.content.insert key ⟨value, lease⟩
        feed := store.feed.publish [⟨.put, key⟩] } := by
  obtain ⟨-, hopen, h⟩ := of_check_bind h
  refine ⟨hopen, ?_⟩
  cases lease with
  | none =>
    cases h
    exact ⟨nofun, rfl⟩
  | some id =>
    by_cases hlive : store.isLive id = true
    · simp only [hlive, if_true] at h
      cases h
      exact ⟨fun other hother => Option.some.inj hother ▸ hlive, rfl⟩
    · simp only [hlive] at h
      cases h

theorem of_delete {store after : Store} {key : String} (h : store.delete key = .ok after) :
    store.feed.closed = false ∧
      after = if (store.content.get? key).isSome then
        { store with
          content := store.content.erase key
          feed := store.feed.publish [⟨.delete, key⟩] }
      else store := by
  obtain ⟨-, hopen, h⟩ := of_check_bind h
  refine ⟨hopen, ?_⟩
  split at h
  · rename_i hkey
    cases h
    rw [if_pos hkey]
  · rename_i hkey
    cases h
    rw [if_neg hkey]

theorem of_grant {store after : Store} {ttl : Int} {lease : LeaseId}
    (h : store.grant ttl = .ok (lease, after)) :
    lease = ⟨store.granted + 1⟩ ∧
      after = { store with
        leases := (lease, ttl) :: store.leases
        granted := store.granted + 1 } := by
  obtain ⟨-, -, h⟩ := of_check_bind h
  cases h
  exact ⟨rfl, rfl⟩

theorem of_revoke {store after : Store} {lease : LeaseId} (h : store.revoke lease = .ok after) :
    store.feed.closed = false ∧ store.isLive lease = true ∧
      after = { store with
        content := store.content.keep fun _ record => record.lease ≠ some lease
        leases := store.leases.filter fun other => other.1 ≠ lease
        feed := store.feed.publish ((store.attached lease).map fun key => ⟨.delete, key⟩) } := by
  obtain ⟨-, hopen, h⟩ := of_check_bind h
  refine ⟨hopen, ?_⟩
  split at h
  · rename_i hlive
    cases h
    exact ⟨hlive, rfl⟩
  · cases h

/-! ## What an operation keeps of the history -/

/-- A change that publishes the keys it touches is one that a store evolves by. -/
theorem evolves_of_publish {before after : Store} {batch : List Event}
    (hopen : before.feed.closed = false) (hscans : before.scans ≤ after.scans)
    (hfeed : after.feed = before.feed.publish batch)
    (hcontent : ∀ key, (∀ event ∈ batch, event.key ≠ key) →
      after.content.get? key = before.content.get? key) : before.Evolves after := by
  by_cases hbatch : batch = []
  · have hsame : after.feed = before.feed := by simp [hfeed, Feed.publish, hbatch]
    refine ⟨hscans, hsame ▸ List.prefix_rfl, fun key _ => hcontent key ?_⟩
    simp [hbatch]
  · have hadded : after.feed.published = before.feed.published ++ [batch] := by
      simp [hfeed, Feed.publish, hbatch, hopen]
    refine ⟨hscans, by simp [hadded], fun key hkey => hcontent key ?_⟩
    apply hkey
    simp [hadded, revision]

/-- A change that leaves the content and the feed alone. -/
theorem evolves_of_eq {before after : Store} (hscans : before.scans ≤ after.scans)
    (hcontent : after.content = before.content)
    (hfeed : after.feed.published = before.feed.published) : before.Evolves after :=
  ⟨hscans, hfeed ▸ List.prefix_rfl, fun key _ => by rw [hcontent]⟩

theorem evolves_close (store : Store) : store.Evolves store.close :=
  evolves_of_eq le_rfl rfl rfl

theorem evolves_unavailable (store : Store) (value : Bool) :
    store.Evolves { store with unavailable := value } :=
  evolves_of_eq le_rfl rfl rfl

theorem evolves_put {store after : Store} {key value : String} {lease : Option LeaseId}
    (h : store.put key value lease = .ok after) : store.Evolves after := by
  obtain ⟨hopen, -, rfl⟩ := of_put h
  refine evolves_of_publish hopen le_rfl rfl fun other hother => ?_
  have hne : other ≠ key := by
    intro he
    exact hother _ (List.mem_singleton_self _) he.symm
  exact (Keyspace.get?_insert _ _ _ _).trans (if_neg hne)

theorem evolves_delete {store after : Store} {key : String} (h : store.delete key = .ok after) :
    store.Evolves after := by
  obtain ⟨hopen, rfl⟩ := of_delete h
  split
  · refine evolves_of_publish hopen le_rfl rfl fun other hother => ?_
    have hne : other ≠ key := by
      intro he
      exact hother _ (List.mem_singleton_self _) he.symm
    exact (Keyspace.get?_erase _ _ _).trans (if_neg hne)
  · exact Evolves.refl _

/-- What stands under a key that is not attached to a lease stands there after its revocation. -/
theorem get?_keep_of_not_attached {store : Store} {lease : LeaseId} {key : String}
    (h : key ∉ store.attached lease) :
    (store.content.keep fun _ record => record.lease ≠ some lease).get? key =
      store.content.get? key := by
  rw [Keyspace.get?_keep]
  cases hget : store.content.get? key with
  | none => rfl
  | some record =>
    have hlease : record.lease ≠ some lease := by
      intro he
      have hmem := Keyspace.mem_of_get? hget
      exact h (List.mem_map.2 ⟨_, List.mem_filter.2 ⟨hmem, by simp [he]⟩, rfl⟩)
    simp [Option.filter, hlease]

theorem evolves_revoke {store after : Store} {lease : LeaseId}
    (h : store.revoke lease = .ok after) : store.Evolves after := by
  obtain ⟨hopen, -, rfl⟩ := of_revoke h
  refine evolves_of_publish hopen le_rfl rfl fun key hkey => get?_keep_of_not_attached ?_
  intro hattached
  exact hkey _ (List.mem_map_of_mem hattached) rfl

/-- A store evolves by every request that it carries out. -/
theorem evolves_serve {store after : Store} {clock : Nat} {m : Method} {request : Request m}
    {answer : Answer m} (h : store.serve clock request = .ok (answer, after)) :
    store.Evolves after := by
  cases request with
  | get key =>
    obtain ⟨row, -, hrow⟩ := of_map_ok h
    cases hrow
    exact Evolves.refl _
  | getPrefix directory =>
    obtain ⟨-, rfl⟩ := of_getPrefix h
    exact evolves_of_eq (Nat.le_succ _) rfl rfl
  | put key value lease =>
    obtain ⟨later, hput, hlater⟩ := of_map_ok h
    cases hlater
    exact evolves_put hput
  | delete key =>
    obtain ⟨later, hdelete, hlater⟩ := of_map_ok h
    cases hlater
    exact evolves_delete hdelete
  | grant ttl =>
    obtain ⟨-, rfl⟩ := of_grant h
    exact evolves_of_eq le_rfl rfl rfl
  | revoke lease =>
    obtain ⟨later, hrevoke, hlater⟩ := of_map_ok h
    cases hlater
    exact evolves_revoke hrevoke
  | keepAlive lease interval =>
    obtain ⟨renewal, -, hrenewal⟩ := of_map_ok h
    cases hrenewal
    exact Evolves.refl _
  | watch directory =>
    obtain ⟨sub, -, hsub⟩ := of_map_ok h
    cases hsub
    exact Evolves.refl _

end Store

end ServiceRegistry
