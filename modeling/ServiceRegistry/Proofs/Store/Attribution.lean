import ServiceRegistry.Proofs.Store.Addresses
import ServiceRegistry.Proofs.Store.Silence

/-!
# What a batch is about

A batch is about the services of its keys, or about all of them if one of its keys cannot be read. Only the
keys count, and neither their order nor how often they come. A service that the batch is not about has the
same instances in any two stores that differ under keys of the batch only, whichever directory is read, so
nothing is missed by leaving it alone; and none of those that it is about could be left out.
-/
namespace ServiceRegistry

namespace Attribution

variable {root : String} {batch other : List Event} {services : List ServiceKey}

/-- Everything is meant, or the services of the keys are. -/
theorem ofBatch_cases (root : String) (batch : List Event) :
    (∃ keys : List EndpointKey,
      ofBatch root batch = .services (ServiceKey.sorted (keys.map (·.service))) ∧
        batch.map (fun event => EndpointKey.parse root event.key) = keys.map .ok) ∨
    ofBatch root batch = .everything ∧
      ∃ event ∈ batch, ∃ e, EndpointKey.parse root event.key = .error e := by
  unfold ofBatch
  rcases mapM_cases (fun event => EndpointKey.parse root event.key) batch with
    ⟨keys, hkeys, hmap⟩ | ⟨e, he, hmem⟩
  · exact .inl ⟨keys, by rw [hkeys], hmap⟩
  · obtain ⟨event, hevent, herror⟩ := List.mem_map.1 hmem
    exact .inr ⟨by rw [he], event, hevent, e, herror⟩

theorem ofBatch_eq_everything_iff : ofBatch root batch = .everything ↔
    ∃ event ∈ batch, ∃ e, EndpointKey.parse root event.key = .error e := by
  rcases ofBatch_cases root batch with ⟨keys, hservices, hmap⟩ | ⟨heverything, herror⟩
  · simp only [hservices, reduceCtorEq, false_iff]
    rintro ⟨event, hevent, e, herror⟩
    have hmem : Except.error e ∈ batch.map fun event => EndpointKey.parse root event.key :=
      herror ▸ List.mem_map_of_mem hevent
    rw [hmap] at hmem
    obtain ⟨key, -, hkey⟩ := List.mem_map.1 hmem
    cases hkey
  · exact iff_of_true heverything herror

example : ofBatch "svc" [⟨.put, "svc/b/h:1"⟩, ⟨.put, "svc/b"⟩] = .everything := by
  decide +kernel

/-- The services of a batch are those of its keys. -/
theorem mem_services_iff (h : ofBatch root batch = .services services) {service : ServiceKey} :
    service ∈ services ↔
      ∃ event ∈ batch, ∃ key, EndpointKey.parse root event.key = .ok key ∧ key.service = service := by
  rcases ofBatch_cases root batch with ⟨keys, hservices, hmap⟩ | ⟨heverything, -⟩
  · have hread : ∀ key, key ∈ keys ↔ ∃ event ∈ batch, EndpointKey.parse root event.key = .ok key := by
      intro key
      rw [← List.mem_map, hmap, List.mem_map]
      simp
    cases h.symm.trans hservices
    simp only [ServiceKey.mem_sorted, List.mem_map, hread]
    tauto
  · cases h.symm.trans heverything

theorem pairwise_services (h : ofBatch root batch = .services services) :
    services.Pairwise (·.text < ·.text) := by
  rcases ofBatch_cases root batch with ⟨keys, hservices, -⟩ | ⟨heverything, -⟩
  · cases h.symm.trans hservices
    exact ServiceKey.pairwise_sorted _
  · cases h.symm.trans heverything

/-- Strictly increasing services are told by which ones they are. -/
theorem eq_of_mem_iff {others : List ServiceKey} (h : services.Pairwise (·.text < ·.text))
    (hothers : others.Pairwise (·.text < ·.text))
    (hmem : ∀ service, service ∈ services ↔ service ∈ others) : services = others := by
  have htexts : services.map (·.text) = others.map (·.text) := by
    refine List.Pairwise.eq_of_mem_iff (List.pairwise_map.2 h) (List.pairwise_map.2 hothers)
      fun text => ?_
    simp only [List.mem_map, hmem]
  exact List.map_injective_iff.2 (fun _ _ hsame => ServiceKey.text_inj.1 hsame) htexts

/-- Only the keys of a batch count. -/
theorem ofBatch_congr (h : ∀ text, text ∈ batch.map (·.key) ↔ text ∈ other.map (·.key)) :
    ofBatch root batch = ofBatch root other := by
  have hevents : ∀ p : String → Prop, (∃ event ∈ batch, p event.key) ↔ ∃ event ∈ other, p event.key := by
    intro p
    have hkeys : ∀ events : List Event,
        (∃ event ∈ events, p event.key) ↔ ∃ text ∈ events.map (·.key), p text := by simp
    simp only [hkeys, h]
  have heverything : ofBatch root batch = .everything ↔ ofBatch root other = .everything := by
    rw [ofBatch_eq_everything_iff, ofBatch_eq_everything_iff]
    exact hevents fun text => ∃ e, EndpointKey.parse root text = .error e
  cases hbatch : ofBatch root batch with
  | everything => exact (heverything.1 hbatch).symm
  | services services =>
    cases hother : ofBatch root other with
    | everything => rw [heverything.2 hother] at hbatch; cases hbatch
    | services others =>
      congr 1
      refine eq_of_mem_iff (pairwise_services hbatch) (pairwise_services hother) fun service => ?_
      rw [mem_services_iff hbatch, mem_services_iff hother]
      exact hevents fun text => ∃ key, EndpointKey.parse root text = .ok key ∧ key.service = service

end Attribution

/-! ## Instances outside of a batch -/

namespace Store

variable {root : String} {service : ServiceKey}

/-- A reading of any directory shows the instances of a service whose keys lie in the directory. -/
theorem instances_rows_eq_filter (store : Store) (root directory : String) (service : ServiceKey) :
    service.instances (EndpointKey.ofRows root (store.rows directory)) =
      (store.instances root service).filter fun key => Text.startsWith directory key.text := by
  unfold instances EndpointKey.ofRows rows keys Keyspace.keys
  rw [Keyspace.under_eq_filter, List.filterMap_map, List.filterMap_map]
  simp only [ServiceKey.instances, Function.comp_def]
  induction store.content.rows with
  | nil => rfl
  | cons row rest ih =>
    cases hkey : (EndpointKey.parse root row.1).toOption with
    | none => by_cases hstarts : Text.startsWith directory row.1 = true <;> simp [hstarts, hkey, ih]
    | some key =>
      have htext := (EndpointKey.eq_text_of_parse (eq_of_toOption hkey)).1
      by_cases hstarts : Text.startsWith directory row.1 = true <;>
        by_cases hservice : key.service = service <;> simp [hstarts, hkey, ih, hservice, ← htext]

/-- What is read of a service that has no key among some texts does not depend on what stands under these.
-/
theorem instances_rows_congr {before after : Store} {texts : List String}
    (hsame : ∀ text, text ∉ texts → after.content.get? text = before.content.get? text)
    (hother : ∀ text ∈ texts, ∀ key, EndpointKey.parse root text = .ok key → key.service ≠ service)
    (directory : String) :
    service.instances (EndpointKey.ofRows root (after.rows directory)) =
      service.instances (EndpointKey.ofRows root (before.rows directory)) := by
  rw [instances_rows_eq_filter, instances_rows_eq_filter]
  congr 1
  refine instances_eq fun text key hkey hservice => ?_
  rw [Store.keys, Store.keys, Keyspace.mem_keys_iff, Keyspace.mem_keys_iff, hsame text]
  exact fun hmem => hother text hmem key hkey hservice

/-- An instance can stand in a store alone. -/
theorem exists_instance {text : String} {key : EndpointKey} (h : EndpointKey.parse root text = .ok key) :
    ∃ store : Store, (∀ other, other ≠ text → store.content.get? other = none) ∧
      key ∈ key.service.instances (EndpointKey.ofRows root (store.rows key.service.directory)) := by
  obtain ⟨rfl, -⟩ := EndpointKey.text_of_parse h
  obtain ⟨rfl, -⟩ := EndpointKey.eq_text_of_parse h
  refine ⟨{ empty with content := Keyspace.empty.insert key.text ⟨"", none⟩ }, fun other hother => ?_, ?_⟩
  · rw [Keyspace.get?_insert, if_neg hother, Keyspace.get?_empty]
  · rw [instances_rows _ fun text found hfound hservice =>
      hservice ▸ EndpointKey.startsWith_directory_of_parse hfound]
    refine (mem_instances_iff _).2 ⟨?_, h⟩
    rw [Keyspace.get?_insert, if_pos rfl]
    rfl

end Store

/-- A batch is about everything just if one of its keys cannot be read, and else about the services of its
keys, in their order; batches with the same keys are about the same. In two stores that differ under keys of
the batch only, every service that the batch is not about has the same instances, whichever directory is
read, while each of the others may have lost or got some. -/
theorem attribution_complete_and_minimal (root : String) (batch : List Event) :
    (Attribution.ofBatch root batch = .everything ↔
      ∃ event ∈ batch, ∃ e, EndpointKey.parse root event.key = .error e) ∧
    (∀ other : List Event, (∀ text, text ∈ batch.map (·.key) ↔ text ∈ other.map (·.key)) →
      Attribution.ofBatch root other = Attribution.ofBatch root batch) ∧
    ∀ services, Attribution.ofBatch root batch = .services services →
      services.Pairwise (·.text < ·.text) ∧
      (∀ service, service ∈ services ↔
        ∃ event ∈ batch, ∃ key, EndpointKey.parse root event.key = .ok key ∧ key.service = service) ∧
      (∀ before after : Store, (∀ text, text ∉ batch.map (·.key) →
          after.content.get? text = before.content.get? text) →
        ∀ service, service ∉ services → ∀ directory,
          service.instances (EndpointKey.ofRows root (after.rows directory)) =
            service.instances (EndpointKey.ofRows root (before.rows directory))) ∧
      ∀ service ∈ services, ∃ before after : Store,
        (∀ text, text ∉ batch.map (·.key) →
          after.content.get? text = before.content.get? text) ∧
        service.instances (EndpointKey.ofRows root (after.rows service.directory)) ≠
          service.instances (EndpointKey.ofRows root (before.rows service.directory)) := by
  refine ⟨Attribution.ofBatch_eq_everything_iff,
    fun other hkeys => (Attribution.ofBatch_congr hkeys).symm, fun services hservices => ?_⟩
  have hmem : ∀ service, service ∈ services ↔
      ∃ event ∈ batch, ∃ key, EndpointKey.parse root event.key = .ok key ∧ key.service = service :=
    fun _ => Attribution.mem_services_iff hservices
  refine ⟨Attribution.pairwise_services hservices, hmem, fun before after hsame service houtside => ?_,
    fun service hservice => ?_⟩
  · refine Store.instances_rows_congr hsame fun text htext key hkey hof => houtside ?_
    obtain ⟨event, hevent, rfl⟩ := List.mem_map.1 htext
    exact (hmem service).2 ⟨event, hevent, key, hkey, hof⟩
  · obtain ⟨event, hevent, key, hkey, rfl⟩ := (hmem service).1 hservice
    obtain ⟨after, halone, hfound⟩ := Store.exists_instance hkey
    refine ⟨.empty, after, fun text houtside => ?_, fun hsame => ?_⟩
    · refine halone text ?_
      rintro rfl
      exact houtside (List.mem_map_of_mem hevent)
    · rw [hsame] at hfound
      cases hfound

/-- A batch about two services, with another one between two events of the same. -/
def mixedBatch : List Event :=
  [⟨.put, "svc/b/h:1"⟩, ⟨.delete, "svc/a/h:1"⟩, ⟨.delete, "svc/b/h:2"⟩]

/-- Three services have an instance each. -/
def beforeMixed : Store :=
  { Store.empty with
    content := (["svc/a/h:1", "svc/b/h:2", "svc/c/h:1"].foldl fun content text =>
      content.insert text ⟨"", none⟩) Keyspace.empty }

def afterMixed : Store :=
  { beforeMixed with
    content := ((beforeMixed.content.insert "svc/b/h:1" ⟨"", none⟩).erase "svc/a/h:1").erase "svc/b/h:2" }

theorem attribution_complete_and_minimal_mixed :
    ∃ a b c : ServiceKey, a.name = "a" ∧ b.name = "b" ∧ c.name = "c" ∧
      Attribution.ofBatch "svc" mixedBatch = .services [a, b] ∧
      (∀ text, text ∉ mixedBatch.map (·.key) →
        afterMixed.content.get? text = beforeMixed.content.get? text) ∧
      c ∉ [a, b] ∧ c.instances (EndpointKey.ofRows "svc" (beforeMixed.rows "svc/")) = [⟨c, "h:1"⟩] ∧
      c.instances (EndpointKey.ofRows "svc" (afterMixed.rows "svc/")) = [⟨c, "h:1"⟩] := by
  let a : ServiceKey := ⟨"svc", "a", by decide, by decide⟩
  let b : ServiceKey := ⟨"svc", "b", by decide, by decide⟩
  let c : ServiceKey := ⟨"svc", "c", by decide, by decide⟩
  have hservices : Attribution.ofBatch "svc" mixedBatch = .services [a, b] := by decide +kernel
  have hsame : ∀ text, text ∉ mixedBatch.map (·.key) →
      afterMixed.content.get? text = beforeMixed.content.get? text := by
    intro text houtside
    simp only [mixedBatch, List.map_cons, List.map_nil, List.mem_cons, List.not_mem_nil, or_false,
      not_or] at houtside
    obtain ⟨hput, hdeleted, hother⟩ := houtside
    simp [afterMixed, Keyspace.get?_erase, Keyspace.get?_insert, hput, hdeleted, hother]
  have houtside : c ∉ [a, b] := by decide
  have hbefore : c.instances (EndpointKey.ofRows "svc" (beforeMixed.rows "svc/")) = [⟨c, "h:1"⟩] := by
    decide +kernel
  obtain ⟨-, -, hcomplete, -⟩ :=
    (attribution_complete_and_minimal "svc" mixedBatch).2.2 _ hservices
  exact ⟨a, b, c, rfl, rfl, rfl, hservices, hsame, houtside, hbefore,
    (hcomplete beforeMixed afterMixed hsame c houtside "svc/").trans hbefore⟩

end ServiceRegistry
