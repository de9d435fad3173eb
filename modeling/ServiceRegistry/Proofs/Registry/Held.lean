import ServiceRegistry.Proofs.Registry.Asking

/-!
# Readings that are held

A reading is held for a service if the cache shows a list that comes from it, or if it is being
dialed for the present generation and so will be put into the cache. Readings come to be held in one
way only, by a scan, and whatever is known of every scan from some point on is known of every
reading that is held and was not held at that point.
-/
namespace ServiceRegistry

namespace Site

/-- The reading is shown for the service, or is dialed for the present generation. -/
def Holds (site : Site) (key : ServiceKey) (reading : Reading) : Prop :=
  (∃ listing, site.registry.cache.Shows key listing ∧ listing.reading = reading) ∨
    ∃ (who : Nat) (errand : Errand) (stamp : Stamp) (keys : List EndpointKey) (due : Nat),
      site.registry.activities[who]? =
          some ⟨.building errand (.dialing stamp reading keys due), false⟩ ∧
        stamp.generation = site.registry.cache.generation

/-- An activity that goes on behind the gate went on there before or has just advanced. -/
theorem Moved.active_cases {site after : Site} {move : Move} (h : site.Moved move after) {who : Nat}
    {errand : Errand} {build : Build}
    (hbuild : after.registry.activities[who]? = some ⟨.building errand build, false⟩)
    (hinside : build.isInside = true) :
    site.registry.activities[who]? = some ⟨.building errand build, false⟩ ∨
      ∃ former mid, move = .step who ∧
        site.registry.activities[who]? = some ⟨.building errand former, false⟩ ∧
        site.Advances errand former build mid ∧
        after = mid.settle who (.building errand build) := by
  cases h with
  | @turn other activity next mid hactivity hready hturn hframe =>
    rcases active_turned hframe hbuild with ⟨rfl, rfl⟩ | ⟨-, hbefore | hbegins⟩
    · obtain ⟨former, rfl, hadvance⟩ := hturn.advances hinside
      exact .inr ⟨former, mid, rfl, hactivity, hadvance, rfl⟩
    · exact .inl hbefore
    · cases hbegins
  | calm hmove hcache hgate hframe =>
    rcases hframe.active_cases hbuild with hbefore | hbegins
    · exact .inl hbefore
    · cases hbegins

/-- A reading that is held after a move was held before or has just been scanned. -/
theorem Orderly.holds_cases {site after : Site} {move : Move} (h : site.Orderly)
    (hmove : site.after move = some after) {key : ServiceKey} {reading : Reading}
    (hholds : after.Holds key reading) :
    site.Holds key reading ∨
      ∃ (who : Nat) (errand : Errand) (stamp : Stamp) (flight : Flight .getPrefix)
          (rows : List Row) (mid : Site), move = .step who ∧
        site.registry.activities[who]? = some ⟨.building errand (.scanning stamp flight), false⟩ ∧
        site.receive flight = (.ok rows, mid) ∧ after.store = mid.store ∧
        reading = site.reading stamp := by
  have hmoved := moved_of_after hmove
  rcases hholds with ⟨listing, hshows, rfl⟩ | ⟨who, errand, stamp, keys, due, hactivity, hcurrent⟩
  · left
    obtain ⟨-, hbefore | ⟨who, errand, stamp, reading, keys, due, hactivity, hcurrent, -, rfl⟩⟩ :=
      hmoved.shows_cases hshows
    · exact .inl ⟨listing, hbefore, rfl⟩
    · have hstamp := h.dialing who errand stamp reading keys due (progress?_of_activity hactivity)
      exact .inr ⟨who, errand, stamp, keys, due, hactivity, hstamp.symm.trans hcurrent⟩
  · rcases hmoved.active_cases hactivity rfl with
      hbefore | ⟨former, mid, rfl, hformer, hadvance, rfl⟩
    · left
      have hle := (h.stamped who errand _ stamp (progress?_of_activity hbefore) rfl).1
      have hgeneration := (precedes_of_after hmove).cache.generation_le
      exact .inr ⟨who, errand, stamp, keys, due, hbefore, by omega⟩
    · right
      cases hadvance with
      | @scan stamp flight rows received mid due hreceive hregistry hstore =>
        exact ⟨who, errand, stamp, flight, rows, received, rfl, hformer, hreceive, hstore, rfl⟩

/-- The store counts the scan of every reading that is held. -/
theorem scan_lt_of_holds {store : Store} {config : Config} {dialer : Dialer} {faults : Faults}
    (hgenuine : faults.Genuine .getPrefix) {moves : List Move} {site : Site}
    (hrun : (start store config dialer faults).run moves = some site) {key : ServiceKey}
    {reading : Reading} (hholds : site.Holds key reading) : reading.scan < site.store.scans := by
  have hinduction : site.Orderly ∧ site.AsksRows ∧
      ∀ reading, site.Holds key reading → reading.scan < site.store.scans := by
    refine run_induction (P := fun site => site.Orderly ∧ site.AsksRows ∧
      ∀ reading, site.Holds key reading → reading.scan < site.store.scans) ?_ ?_ hrun
    · refine ⟨orderly_start, asksRows_of_run hgenuine (run_nil _), ?_⟩
      rintro reading (⟨listing, hshows, -⟩ | ⟨who, errand, stamp, keys, due, hactivity, -⟩)
      · exact absurd hshows (Cache.not_shows_of_filled rfl)
      · cases (progress?_start (progress?_of_activity hactivity)).2
    · rintro site next move ⟨horderly, hasks, hscans⟩ hmove
      refine ⟨horderly.moved (moved_of_after hmove), hasks.moved hmove, ?_⟩
      intro reading hholds
      rcases horderly.holds_cases hmove hholds with
        hbefore | ⟨who, errand, stamp, flight, rows, mid, -, hactivity, hreceive, hstore, rfl⟩
      · exact (hscans reading hbefore).trans_le (precedes_of_after hmove).store.scans_le
      · rw [hstore, (hasks.scans (progress?_of_activity hactivity) hreceive).2]
        exact Nat.lt_succ_self _
  exact hinduction.2.2 reading hholds

end Site

end ServiceRegistry
