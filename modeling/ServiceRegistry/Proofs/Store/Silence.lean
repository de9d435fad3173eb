import ServiceRegistry.Registry.Activity
import ServiceRegistry.Proofs.Store.Instances

/-!
# Silence about a service

Between two places in the history of a store, no batch may be about a service. The instances of the
service are then the same at both ends. A reader of the feed that goes on by one look passes over a
batch that is silent about the service, or is handed something that concerns it.
-/
namespace ServiceRegistry

namespace Store

/-- No batch in the range has an event of an instance of the service. -/
def Silent (store : Store) (root : String) (service : ServiceKey) (first last : Nat) : Prop :=
  ∀ n, first ≤ n → n < last → ∀ batch, store.feed.published[n]? = some batch →
    ∀ event ∈ batch, ∀ key, EndpointKey.parse root event.key = .ok key → key.service ≠ service

section
variable {store : Store} {root : String} {service : ServiceKey} {first mid last : Nat}

theorem silent_of_le (h : last ≤ first) : store.Silent root service first last := by
  intro n hfirst hlast
  omega

theorem Silent.trans (h : store.Silent root service first mid)
    (h' : store.Silent root service mid last) : store.Silent root service first last := by
  intro n hfirst hlast
  by_cases hmid : n < mid
  · exact h n hfirst hmid
  · exact h' n (by omega) hlast

/-- The history up to now stays as it is. -/
theorem Silent.of_evolves {after : Store} (h : store.Silent root service first last)
    (hevolves : store.Evolves after) (hlast : last ≤ store.revision) :
    after.Silent root service first last := by
  intro n hfirst hn batch hbatch
  obtain ⟨batches, hbatches⟩ := hevolves.published_prefix
  have hlength : n < store.feed.published.length := hn.trans_le hlast
  rw [← hbatches, List.getElem?_append_left hlength] at hbatch
  exact h n hfirst hn batch hbatch

/-- A service about which the store is silent from a revision on has the instances that it had then.
-/
theorem Silent.instances_eq {before after : Store} (hevolves : before.Evolves after)
    (h : after.Silent root service before.revision after.revision) :
    after.instances root service = before.instances root service := by
  refine Store.instances_eq fun text key hkey hservice => ?_
  rw [Store.keys, Store.keys, Keyspace.mem_keys_iff, Keyspace.mem_keys_iff, hevolves.get?_eq text]
  intro batch hbatch event hevent htext
  obtain ⟨n, hn⟩ := List.mem_iff_getElem?.1 hbatch
  rw [List.getElem?_drop] at hn
  have hlast := (List.getElem?_eq_some_iff.1 hn).1
  subst htext
  exact h _ (Nat.le_add_right _ _) hlast batch hn event hevent key hkey hservice

end

end Store

/-! ## What a look at the feed is about -/

namespace Attribution

/-- Whether a service is meant. -/
def Concerns (concern : Attribution) (service : ServiceKey) : Prop :=
  match concern with
  | .everything => True
  | .services keys => service ∈ keys

/-- Either every element has a result, or the first one without is reported. -/
theorem mapM_cases {α β ε : Type} (f : α → Except ε β) (xs : List α) :
    (∃ ys, xs.mapM f = .ok ys ∧ xs.map f = ys.map .ok) ∨
      ∃ e, xs.mapM f = .error e ∧ .error e ∈ xs.map f := by
  induction xs with
  | nil => exact .inl ⟨[], rfl, rfl⟩
  | cons x xs ih =>
    rw [List.mapM_cons, List.map_cons]
    cases hx : f x with
    | error e => exact .inr ⟨e, rfl, List.mem_cons_self⟩
    | ok y =>
      rcases ih with ⟨ys, hys, hmap⟩ | ⟨e, he, hmem⟩
      · exact .inl ⟨y :: ys, by rw [hys]; rfl, by rw [hmap]; rfl⟩
      · exact .inr ⟨e, by rw [he]; rfl, List.mem_cons_of_mem _ hmem⟩

theorem mem_of_mapM {α β ε : Type} {f : α → Except ε β} {xs : List α} {ys : List β}
    (h : xs.mapM f = .ok ys) {x : α} (hx : x ∈ xs) : ∃ y ∈ ys, f x = .ok y := by
  rcases mapM_cases f xs with ⟨zs, hzs, hmap⟩ | ⟨e, he, -⟩
  · cases h.symm.trans hzs
    have hmem : f x ∈ ys.map .ok := hmap ▸ List.mem_map_of_mem hx
    obtain ⟨y, hy, hxy⟩ := List.mem_map.1 hmem
    exact ⟨y, hy, hxy.symm⟩
  · cases h.symm.trans he

/-- A batch concerns the services of its keys. -/
theorem concerns_ofBatch {root : String} {batch : List Event} {event : Event} (hevent : event ∈ batch)
    {key : EndpointKey} (hkey : EndpointKey.parse root event.key = .ok key) :
    (ofBatch root batch).Concerns key.service := by
  unfold ofBatch
  split
  · rename_i keys hkeys
    obtain ⟨other, hmem, hother⟩ := mem_of_mapM hkeys hevent
    rw [hkey] at hother
    cases hother
    exact ServiceKey.mem_sorted.2 (List.mem_map_of_mem hmem)
  · trivial

end Attribution

namespace Feed

theorem of_pull_skipped {feed : Feed} {sub rest : Subscription} (h : feed.pull sub = .skipped rest) :
    rest = { sub with next := sub.next + 1 } ∧
      ∃ batch, feed.published[sub.next]? = some batch ∧ relevant sub batch = [] := by
  unfold pull at h
  split at h
  · cases h
  · split at h
    · rename_i batch hbatch
      split at h
      · rename_i hnone
        cases h
        exact ⟨rfl, batch, hbatch, hnone⟩
      · cases h
    · split at h <;> cases h

theorem of_pull_item {feed : Feed} {sub rest : Subscription} {events : List Event}
    (h : feed.pull sub = .item (.ok events) rest) :
    rest = { sub with next := sub.next + 1 } ∧
      ∃ batch, feed.published[sub.next]? = some batch ∧ events = relevant sub batch := by
  unfold pull at h
  split at h
  · cases h
  · split at h
    · rename_i batch hbatch
      split at h
      · cases h
      · cases h
        exact ⟨rfl, batch, hbatch, rfl⟩
    · split at h <;> cases h

theorem directory_of_pull {feed : Feed} {sub rest : Subscription}
    {item : Except Error (List Event)} (h : feed.pull sub = .item item rest) :
    rest.directory = sub.directory := by
  unfold pull at h
  split at h
  · cases h
    rfl
  · split at h
    · split at h
      · cases h
      · cases h
        rfl
    · split at h <;> cases h

end Feed

namespace Store

variable {store : Store} {root : String} {sub rest : Subscription} (service : ServiceKey)

/-- An event of an instance is relevant to a reader of the root. -/
theorem mem_relevant (hdirectory : sub.directory = root ++ "/") {batch : List Event} {event : Event}
    (hevent : event ∈ batch) {key : EndpointKey} (hkey : EndpointKey.parse root event.key = .ok key) :
    event ∈ Feed.relevant sub batch := by
  refine List.mem_filter.2 ⟨hevent, ?_⟩
  rw [hdirectory]
  exact EndpointKey.startsWith_root_of_parse hkey

/-- What a reader of the root skips is silent about every service. -/
theorem silent_of_skipped (hdirectory : sub.directory = root ++ "/")
    (h : store.feed.pull sub = .skipped rest) : store.Silent root service sub.next rest.next := by
  obtain ⟨rfl, batch, hbatch, hnone⟩ := Feed.of_pull_skipped h
  intro n hfirst hlast other hother event hevent key hkey hservice
  obtain rfl : n = sub.next := Nat.le_antisymm (Nat.le_of_lt_succ hlast) hfirst
  rw [hbatch] at hother
  cases hother
  have hmem := mem_relevant hdirectory hevent hkey
  rw [hnone] at hmem
  cases hmem

/-- What a reader of the root takes is silent about every service that it does not concern. -/
theorem silent_or_concerns (hdirectory : sub.directory = root ++ "/")
    {item : Except Error (List Event)} (h : store.feed.pull sub = .item item rest) :
    store.Silent root service sub.next rest.next ∨
      (Attribution.ofItem root item).Concerns service := by
  cases item with
  | error e => exact .inr trivial
  | ok events =>
    by_cases hconcerns : (Attribution.ofItem root (.ok events)).Concerns service
    · exact .inr hconcerns
    · left
      obtain ⟨rfl, batch, hbatch, rfl⟩ := Feed.of_pull_item h
      intro n hfirst hlast other hother event hevent key hkey hservice
      obtain rfl : n = sub.next := Nat.le_antisymm (Nat.le_of_lt_succ hlast) hfirst
      rw [hbatch] at hother
      cases hother
      have hmem := mem_relevant hdirectory hevent hkey
      exact hconcerns (hservice ▸ Attribution.concerns_ofBatch hmem hkey)

end Store

end ServiceRegistry
