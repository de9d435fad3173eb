import ServiceRegistry.Cache
import ServiceRegistry.Dialing
import Mathlib.Data.List.Infix

/-!
# What a cache shows

A filled cache shows one list for each service: the list of its entry, or the empty list of the
reading from which the cache was filled. A cache that is to be filled shows nothing, whatever
entries it has. `Shows` is this view, and each operation of the cache has a lemma that says what is
shown after it. `Drifts` is the part of the history of a cache that every operation keeps:
generations are counted up, dial options are only added, and none is added without a new generation.
-/
namespace ServiceRegistry

namespace Dialing

variable (dialing : Dialing)

/-- Each service is given the connections to its own instances, in their order. -/
theorem foldl_file (found : ServiceKey → List Connection) (services : List ServiceKey)
    (keys : List EndpointKey) :
    (keys.zip (dialing.dialAll keys)).foldl file (services.map fun service => (service, found service)) =
      services.map fun service => (service, found service ++ dialing.connections keys service) := by
  induction keys generalizing found with
  | nil => simp [connections, ServiceKey.instances]
  | cons key keys ih =>
    have hfile : file (services.map fun service => (service, found service)) (key, dialing.connect? key) =
        services.map fun service => (service, found service ++
          if key.service = service then (dialing.connect? key).toList else []) := by
      simp only [file, List.map_map, Function.comp_def]
      refine List.map_congr_left fun service _ => ?_
      by_cases h : key.service = service
      · simp [h]
      · simp [h, Ne.symm h]
    simp only [dialAll, List.map_cons, List.zip_cons_cons, List.foldl_cons] at ih ⊢
    rw [hfile, ih]
    refine List.map_congr_left fun service _ => ?_
    simp only [connections, ServiceKey.instances, List.append_assoc]
    by_cases h : key.service = service
    · cases hdial : dialing.connect? key <;> simp [h, hdial]
    · simp [h]

/-- What the dials are filed to is what is found for each service by itself. -/
theorem byService_eq (keys : List EndpointKey) :
    dialing.byService keys = (ServiceKey.sorted (keys.map (·.service))).map fun service =>
      (service, dialing.connections keys service) := by
  rw [byService, foldl_file dialing (fun _ => [])]
  simp only [List.nil_append]

theorem connections_of_mem_byService {keys : List EndpointKey} {key : ServiceKey}
    {connections : List Connection} (h : (key, connections) ∈ dialing.byService keys) :
    connections = dialing.connections keys key := by
  rw [byService_eq] at h
  obtain ⟨service, -, hservice⟩ := List.mem_map.1 h
  cases hservice
  rfl

/-- A service that a reading leaves out has no instances in it. -/
theorem connections_of_not_mem_byService {keys : List EndpointKey} {key : ServiceKey}
    (h : ∀ entry ∈ dialing.byService keys, entry.1 ≠ key) : dialing.connections keys key = [] := by
  have hnone : key.instances keys = [] := by
    unfold ServiceKey.instances
    rw [List.filter_eq_nil_iff]
    intro instanceKey hmem hservice
    have hservice : instanceKey.service = key := by simpa using hservice
    have hsorted : key ∈ ServiceKey.sorted (keys.map (·.service)) :=
      ServiceKey.mem_sorted.2 (List.mem_map.2 ⟨instanceKey, hmem, hservice⟩)
    rw [byService_eq] at h
    exact h _ (List.mem_map.2 ⟨key, hsorted, rfl⟩) rfl
  rw [connections, hnone]
  rfl

/-- Among the connections of all services a service has those to its own instances. -/
theorem listed_byService (keys : List EndpointKey) (key : ServiceKey) :
    listed (dialing.byService keys) key = dialing.connections keys key := by
  unfold listed
  cases hentry : (dialing.byService keys).lookup key with
  | some connections =>
    obtain ⟨front, back, hentries, -⟩ := List.lookup_eq_some_iff.1 hentry
    exact dialing.connections_of_mem_byService (by rw [hentries]; simp)
  | none =>
    refine (dialing.connections_of_not_mem_byService fun entry hmem he => ?_).symm
    simpa [he] using List.lookup_eq_none_iff.1 hentry entry hmem

end Dialing

namespace Cache

/-- What the cache has for a service. -/
def Shows (cache : Cache) (key : ServiceKey) (listing : Listing) : Prop :=
  ∃ reading, cache.filled = some reading ∧
    ((key, listing) ∈ cache.entries ∨
      (∀ entry ∈ cache.entries, entry.1 ≠ key) ∧ listing = ⟨reading, []⟩)

/-- A cache that is to be filled shows nothing. -/
theorem not_shows_of_filled {cache : Cache} {key : ServiceKey} {listing : Listing}
    (h : cache.filled = none) : ¬ cache.Shows key listing := by
  rintro ⟨reading, hreading, -⟩
  rw [h] at hreading
  cases hreading

/-- A filled cache shows a list for every service. -/
theorem exists_shows_of_filled {cache : Cache} {reading : Reading} (h : cache.filled = some reading)
    (key : ServiceKey) : ∃ listing, cache.Shows key listing := by
  by_cases hentry : ∃ entry ∈ cache.entries, entry.1 = key
  · obtain ⟨entry, hmem, rfl⟩ := hentry
    exact ⟨entry.2, reading, h, .inl hmem⟩
  · refine ⟨⟨reading, []⟩, reading, h, .inr ⟨?_, rfl⟩⟩
    intro entry hmem he
    exact hentry ⟨entry, hmem, he⟩

/-! ## What an operation has found and done -/

/-- The list that a caller finds is shown. -/
theorem shows_of_lookup {cache : Cache} {key : ServiceKey} {listing : Listing}
    (h : cache.lookup key = .ok (some listing)) : cache.Shows key listing := by
  unfold lookup at h
  split at h
  · cases h
  · obtain ⟨reading, hreading, hlisting⟩ := Option.map_eq_some_iff.1 (Except.ok.inj h)
    refine ⟨reading, hreading, ?_⟩
    cases hentry : cache.entries.lookup key with
    | some entry =>
      left
      rw [hentry] at hlisting
      obtain ⟨front, back, hentries, -⟩ := List.lookup_eq_some_iff.1 hentry
      rw [hentries, ← hlisting]
      simp
    | none =>
      right
      rw [hentry] at hlisting
      refine ⟨fun entry hmem he => ?_, hlisting.symm⟩
      have hne := List.lookup_eq_none_iff.1 hentry entry hmem
      simp [he] at hne

/-- A caller finds a list in every open cache that is filled. -/
theorem lookup_of_filled {cache : Cache} (hopen : cache.closed = false)
    (hfilled : cache.filled.isSome = true) (key : ServiceKey) :
    ∃ listing, cache.lookup key = .ok (some listing) := by
  obtain ⟨reading, hreading⟩ := Option.isSome_iff_exists.1 hfilled
  exact ⟨_, by rw [lookup, if_neg (by simp [hopen]), hreading]; rfl⟩

theorem filled_of_lookup {cache : Cache} {key : ServiceKey} (h : cache.lookup key = .ok none) :
    cache.filled = none := by
  unfold lookup at h
  split at h
  · cases h
  · exact Option.map_eq_none_iff.1 (Except.ok.inj h)

theorem of_stamp {cache : Cache} {stamp : Stamp} (h : cache.stamp = .ok stamp) :
    cache.closed = false ∧ stamp = ⟨cache.generation, cache.options⟩ := by
  unfold Cache.stamp at h
  split at h
  · cases h
  · rename_i hopen
    cases h
    exact ⟨by simpa using hopen, rfl⟩

theorem of_discardPending {cache after : Cache} (h : cache.discardPending = some after) :
    cache.filled = none ∧ after = { cache with generation := cache.generation + 1 } := by
  unfold discardPending at h
  split at h
  · cases h
  · rename_i hfilled
    cases h
    exact ⟨by simpa using hfilled, rfl⟩

theorem of_install {cache after : Cache} {reading : Reading}
    {entries : List (ServiceKey × List Connection)}
    (h : cache.install reading entries = .ok after) :
    cache.closed = false ∧
      (reading.generation ≠ cache.generation ∧ after = cache ∨
        reading.generation = cache.generation ∧ after = { cache with
          entries := entries.map fun entry => (entry.1, ⟨reading, entry.2⟩)
          filled := some reading }) := by
  unfold install at h
  split at h
  · cases h
  · rename_i hopen
    refine ⟨by simpa using hopen, ?_⟩
    split at h
    · rename_i hgeneration
      cases h
      exact .inl ⟨Ne.symm hgeneration, rfl⟩
    · rename_i hgeneration
      cases h
      exact .inr ⟨(not_not.1 hgeneration).symm, rfl⟩

theorem of_replace {cache after : Cache} {key : ServiceKey} {listing : Listing}
    (h : cache.replace key listing = .ok after) :
    cache.closed = false ∧
      (listing.reading.generation ≠ cache.generation ∧ after = cache ∨
        listing.reading.generation = cache.generation ∧ after = { cache with
          entries := (key, listing) :: cache.entries.filter fun entry => entry.1 ≠ key }) := by
  unfold replace at h
  split at h
  · cases h
  · rename_i hopen
    refine ⟨by simpa using hopen, ?_⟩
    split at h
    · rename_i hgeneration
      cases h
      exact .inl ⟨Ne.symm hgeneration, rfl⟩
    · rename_i hgeneration
      cases h
      exact .inr ⟨(not_not.1 hgeneration).symm, rfl⟩

/-! ## What is shown afterwards -/

/-- After a reading of the root is put in, every list is that of the reading. -/
theorem shows_installed {cache : Cache} {dialing : Dialing} {keys : List EndpointKey}
    {reading : Reading} {key : ServiceKey} {listing : Listing}
    (h : Shows { cache with
      entries := (dialing.byService keys).map fun entry => (entry.1, ⟨reading, entry.2⟩)
      filled := some reading } key listing) :
    listing = ⟨reading, dialing.connections keys key⟩ := by
  obtain ⟨other, hother, hentry | ⟨habsent, hlisting⟩⟩ := h
  · obtain ⟨entry, hmem, he⟩ := List.mem_map.1 hentry
    cases he
    rw [← dialing.connections_of_mem_byService hmem]
  · have hnone : ∀ entry ∈ dialing.byService keys, entry.1 ≠ key := by
      intro entry hmem
      exact habsent _ (List.mem_map_of_mem hmem)
    rw [hlisting, dialing.connections_of_not_mem_byService hnone, Option.some.inj hother]

/-- After a reading of one service is put in, its list is new and every other one is shown as
before. -/
theorem shows_replaced {cache : Cache} {key other : ServiceKey} {listing shown : Listing}
    (h : Shows { cache with
      entries := (key, listing) :: cache.entries.filter fun entry => entry.1 ≠ key } other shown) :
    other = key ∧ shown = listing ∨ other ≠ key ∧ cache.Shows other shown := by
  obtain ⟨reading, hreading, hentry | ⟨habsent, hshown⟩⟩ := h
  · rcases List.mem_cons.1 hentry with he | hmem
    · cases he
      exact .inl ⟨rfl, rfl⟩
    · obtain ⟨hmem, hne⟩ := List.mem_filter.1 hmem
      exact .inr ⟨by simpa using hne, reading, hreading, .inl hmem⟩
  · have hne : other ≠ key := by
      intro he
      exact habsent _ List.mem_cons_self he.symm
    refine .inr ⟨hne, reading, hreading, .inr ⟨fun entry hmem he => ?_, hshown⟩⟩
    have hkept : entry ∈ cache.entries.filter fun entry => entry.1 ≠ key :=
      List.mem_filter.2 ⟨hmem, by simpa [he] using hne⟩
    exact habsent entry (List.mem_cons_of_mem _ hkept) he

/-! ## What every operation keeps -/

/-- What relates a cache to a later state of it. -/
structure Drifts (before after : Cache) : Prop where
  generation_le : before.generation ≤ after.generation
  options_prefix : before.options <+: after.options
  options_eq : after.generation = before.generation → after.options = before.options

namespace Drifts

theorem refl (cache : Cache) : cache.Drifts cache := ⟨le_rfl, List.prefix_rfl, fun _ => rfl⟩

theorem trans {first second third : Cache} (h : first.Drifts second) (h' : second.Drifts third) :
    first.Drifts third := by
  refine ⟨h.generation_le.trans h'.generation_le, h.options_prefix.trans h'.options_prefix, ?_⟩
  intro heq
  have hle := h.generation_le
  have hle' := h'.generation_le
  rw [h'.options_eq (by omega), h.options_eq (by omega)]

end Drifts

end Cache

end ServiceRegistry
