import ServiceRegistry.Proofs.Registry.Held

/-!
# Readings from before the subscription

The watcher hears of what is published after its subscription was opened, and a registry may be
asked for connections before that. A list that was read before the opening and is shown after it
lacks what was changed in between, and no change that the watcher hears of brings the lack to light.
`shown_after_opening_iff` says exactly when this cannot happen: if no reading is held when the
subscription is opened.
-/
namespace ServiceRegistry

/-- Whether the watcher stands in front of its subscription. -/
def Progress.isOpening : Progress → Bool
  | .starting | .subscribing _ => true
  | _ => false

/-- The scan was made with a store or later: the store had not served it, and nothing that the store
publishes afterwards was published before the scan. -/
def Reading.IsAfter (reading : Reading) (store : Store) : Prop :=
  store.scans ≤ reading.scan ∧ store.revision ≤ reading.revision

namespace Site

theorem isAfter_reading {before after : Site} (h : before.Precedes after) (stamp : Stamp) :
    (after.reading stamp).IsAfter before.store :=
  ⟨h.store.scans_le, h.store.revision_le⟩

/-- From a site that holds no reading on, all readings that are held were made later. -/
theorem isAfter_of_holds {site final : Site} {moves : List Move} (horderly : site.Orderly)
    (hnone : ∀ key reading, ¬ site.Holds key reading) (hrun : site.run moves = some final)
    {key : ServiceKey} {reading : Reading} (hholds : final.Holds key reading) :
    reading.IsAfter site.store := by
  have hinduction : final.Orderly ∧ site.Precedes final ∧
      ∀ reading, final.Holds key reading → reading.IsAfter site.store := by
    refine run_induction (P := fun other => other.Orderly ∧ site.Precedes other ∧
      ∀ reading, other.Holds key reading → reading.IsAfter site.store) ?_ ?_ hrun
    · exact ⟨horderly, .refl site, fun reading hheld => absurd hheld (hnone key reading)⟩
    · rintro other next move ⟨hother, hprecedes, hafter⟩ hmove
      refine ⟨hother.moved (moved_of_after hmove), hprecedes.trans (precedes_of_after hmove), ?_⟩
      intro reading hheld
      rcases hother.holds_cases hmove hheld with
        hbefore | ⟨who, errand, stamp, flight, rows, mid, -, -, -, -, rfl⟩
      · exact hafter reading hbefore
      · exact isAfter_reading hprecedes stamp
  exact hinduction.2.2 reading hholds

/-- A reading of the root for the present generation fills the cache once it is dialed. -/
theorem step_resolve {site : Site} {who : Nat} {key : ServiceKey} {stamp : Stamp} {reading : Reading}
    {keys : List EndpointKey} {due : Nat}
    (hactivity : site.registry.activities[who]? =
      some ⟨.building (.resolve key) (.dialing stamp reading keys due), false⟩)
    (hopen : site.registry.cache.closed = false)
    (hcurrent : reading.generation = site.registry.cache.generation) :
    (site.step who).registry.cache = { site.registry.cache with
      entries := ((site.registry.dialing stamp.options reading.time).byService keys).map
        fun entry => (entry.1, ⟨reading, entry.2⟩)
      filled := some reading } := by
  have hinstall : site.registry.cache.install reading
      ((site.registry.dialing stamp.options reading.time).byService keys) = .ok { site.registry.cache with
        entries := ((site.registry.dialing stamp.options reading.time).byService keys).map
          fun entry => (entry.1, ⟨reading, entry.2⟩)
        filled := some reading } := by
    rw [Cache.install, if_neg (by simp [hopen]), if_neg (by simp [hcurrent])]
  rw [step, hactivity]
  simp only [Activity.isDropped, Bool.false_and, Bool.false_eq_true, if_false, stepFrom, stepBuild,
    install, hinstall]
  rfl

/-- The store answers the watcher, which has a subscription then. -/
def Opens (site : Site) : Prop :=
  ∃ flight changes mid,
    site.registry.activities[Registry.watcher]? = some ⟨.subscribing flight, false⟩ ∧
      site.canStep Registry.watcher = true ∧ site.receive flight = (.ok changes, mid)

/-- The watcher waits for the first batch once its subscription is open. -/
theorem Opens.listening {site : Site} (h : site.Opens) :
    site.after (.step Registry.watcher) = some (site.step Registry.watcher) ∧
      ∃ changes, (site.step Registry.watcher).progress? Registry.watcher =
        some (.listening changes) := by
  obtain ⟨flight, changes, mid, hactivity, hready, hreceive⟩ := h
  refine ⟨by simp only [Site.after, hready, if_true], changes.ask mid.clock, ?_⟩
  have hmid : mid.registry.activities[Registry.watcher]? = some ⟨.subscribing flight, false⟩ := by
    rw [registry_of_receive hreceive]
    exact hactivity
  rw [step, hactivity]
  simp only [Activity.isDropped, Bool.false_and, Bool.false_eq_true, if_false, stepFrom, hreceive]
  simp [listen, progress?, mapRegistry, Registry.move, hmid]

theorem Turn.isOpening {site mid : Site} {who : Nat} {activity : Activity} {next : Progress}
    (h : site.Turn who activity next mid) (hnext : next.isOpening = true) :
    activity.progress.isOpening = true := by
  cases h with
  | quiet happart =>
    cases next with
    | starting | subscribing => cases happart
    | _ => cases hnext
  | start hsend => rfl
  | refresh hinstall hgoes =>
    cases hgoes <;> cases hnext
  | relay hfilled hgoes =>
    cases hgoes <;> cases hnext
  | _ => cases hnext

/-- A watcher that has its subscription asks for no other one. -/
theorem Opens.not_opens_later {opening final : Site} {moves : List Move} (h : opening.Opens)
    (hrun : (opening.step Registry.watcher).run moves = some final) : ¬ final.Opens := by
  have hinduction : ∀ progress, final.progress? Registry.watcher = some progress →
      progress.isOpening = false := by
    refine run_induction (P := fun site => ∀ progress,
      site.progress? Registry.watcher = some progress → progress.isOpening = false) ?_ ?_ hrun
    · intro progress hprogress
      obtain ⟨-, changes, hlistening⟩ := h.listening
      rw [hlistening] at hprogress
      cases hprogress
      rfl
    · intro site next move hsite hmove progress hprogress
      rcases (moved_of_after hmove).progress_cases hprogress with
        ⟨-, hbefore | hbegins⟩ | ⟨activity, mid, -, -, hactivity, hturn, -⟩
      · exact hsite progress hbefore
      · cases progress with
        | calling | renewing => rfl
        | _ => cases hbegins
      · have hformer := hsite _ (progress?_of_activity hactivity)
        by_contra hopening
        have hwas := hturn.isOpening (Bool.eq_true_of_not_eq_false hopening)
        rw [hformer] at hwas
        cases hwas
  rintro ⟨flight, changes, mid, hactivity, -⟩
  cases hinduction _ (progress?_of_activity hactivity)

/-- What is dialed for the present generation is shown a little later. -/
theorem shown_of_dialing {site : Site} (horderly : site.Orderly) {who : Nat} {key : ServiceKey}
    {stamp : Stamp} {reading : Reading} {keys : List EndpointKey} {due : Nat}
    (hactivity : site.registry.activities[who]? =
      some ⟨.building (.resolve key) (.dialing stamp reading keys due), false⟩)
    (hcurrent : stamp.generation = site.registry.cache.generation) :
    ∃ later final listing, site.run later = some final ∧ final.registry.cache.Shows key listing ∧
      listing.reading = reading := by
  have hprogress := progress?_of_activity hactivity
  have hopen := (horderly.stamped who _ _ stamp hprogress rfl).2.1 hcurrent
  have hreading := horderly.dialing who _ stamp reading keys due hprogress
  -- The site at which the last of the dials is answered.
  let waited : Site := { site with clock := site.clock + due }
  have hready : waited.canStep who = true := by
    simp only [canStep, Site.due, waited, hactivity, Activity.isDropped, Bool.false_and,
      Bool.false_eq_true, if_false, dueFrom]
    simp
  have hfinal : site.run [.wait due, .step who] = some (waited.step who) := by
    rw [run_cons, Site.after, Option.bind_some, run_cons]
    simp only [Site.after, hready, if_true, waited]
    rfl
  have hcache : (waited.step who).registry.cache = _ :=
    step_resolve hactivity hopen (hreading.trans hcurrent)
  obtain ⟨listing, hshows⟩ := Cache.exists_shows_of_filled (congrArg Cache.filled hcache) key
  refine ⟨_, _, listing, hfinal, hshows, ?_⟩
  rw [hcache] at hshows
  rw [Cache.shows_installed hshows]

end Site

/-- After the subscription of the watcher was opened, whatever is shown was scanned after the
opening, just if at the opening the cache was to be filled and no reading was dialed for its
generation. -/
theorem shown_after_opening_iff {store : Store} {config : Config} {dialer : Dialer} {faults : Faults}
    (hgenuine : faults.Genuine .getPrefix) {moves : List Move} {site : Site}
    (hrun : (Site.start store config dialer faults).run moves = some site) (hopens : site.Opens) :
    (∀ later final key listing, (site.step Registry.watcher).run later = some final →
        final.registry.cache.Shows key listing →
          listing.reading.IsAfter (site.step Registry.watcher).store) ↔
      (site.step Registry.watcher).registry.cache.filled = none ∧
        ∀ (who : Nat) (errand : Errand) (stamp : Stamp) (reading : Reading)
            (keys : List EndpointKey) (due : Nat),
          (site.step Registry.watcher).registry.activities[who]? =
              some ⟨.building errand (.dialing stamp reading keys due), false⟩ →
            stamp.generation ≠ (site.step Registry.watcher).registry.cache.generation := by
  obtain ⟨hstep, changes, hlistening⟩ := hopens.listening
  generalize site.step Registry.watcher = opened at hstep hlistening
  have hopened : (Site.start store config dialer faults).run (moves ++ [.step Registry.watcher]) =
      some opened := by
    rw [Site.run_append, hrun, Option.bind_some, Site.run_cons, hstep]
    rfl
  have horderly := Site.orderly_of_run hopened
  constructor
  · intro hafter
    constructor
    · cases hfilled : opened.registry.cache.filled with
      | none => rfl
      | some reading =>
        obtain ⟨listing, hshows⟩ := Cache.exists_shows_of_filled hfilled
          ⟨config.root, "service", by decide, by decide⟩
        have hscan := Site.scan_lt_of_holds hgenuine hopened (.inl ⟨listing, hshows, rfl⟩)
        exact absurd (hafter [] opened _ listing rfl hshows).1 (not_le.2 hscan)
    · intro who errand stamp reading keys due hactivity hcurrent
      cases errand with
      | resolve key =>
        obtain ⟨later, final, listing, hlater, hshows, rfl⟩ :=
          Site.shown_of_dialing horderly hactivity hcurrent
        have hholds : opened.Holds key listing.reading :=
          .inr ⟨who, _, stamp, keys, due, hactivity, hcurrent⟩
        have hscan := Site.scan_lt_of_holds hgenuine hopened hholds
        exact absurd (hafter later final key listing hlater hshows).1 (not_le.2 hscan)
      | refresh key rest waiting =>
        have hprogress := Site.progress?_of_activity hactivity
        rw [horderly.watching who _ hprogress rfl, hlistening] at hprogress
        cases hprogress
      | rebuild waiting =>
        have hprogress := Site.progress?_of_activity hactivity
        rw [horderly.watching who _ hprogress rfl, hlistening] at hprogress
        cases hprogress
  · rintro ⟨hfilled, hdialing⟩ later final key listing hlater hshows
    refine Site.isAfter_of_holds horderly ?_ hlater (.inl ⟨listing, hshows, rfl⟩)
    rintro other reading (⟨shown, hshown, -⟩ | ⟨who, errand, stamp, keys, due, hactivity, hcurrent⟩)
    · exact Cache.not_shows_of_filled hfilled hshown
    · exact hdialing who errand stamp reading keys due hactivity hcurrent

/-- A registry whose watcher comes first shows nothing from before. -/
theorem shown_after_opening_undisturbed :
    ∃ site, Site.sample.run [.step Registry.watcher] = some site ∧ site.Opens ∧
      ∀ later final key listing, (site.step Registry.watcher).run later = some final →
        final.registry.cache.Shows key listing →
          listing.reading.IsAfter (site.step Registry.watcher).store := by
  refine ⟨(Site.sample.step 0), rfl, ⟨_, _, _, rfl, rfl, rfl⟩, ?_⟩
  have hopens : (Site.sample.step 0).Opens := ⟨_, _, _, rfl, rfl, rfl⟩
  refine (shown_after_opening_iff (Faults.genuine_none _)
    (show Site.sample.run [.step Registry.watcher] = _ from rfl) hopens).2 ⟨rfl, ?_⟩
  intro who errand stamp reading keys due hactivity
  cases who with
  | zero => cases hactivity
  | succ who => cases hactivity

/-- A caller fills the cache, an instance appears, and then the watcher asks for its subscription.
-/
def beforeOpening : List Move :=
  [.call (.getConnections "chat"), .step 1, .step 1, .step 1, .step 1, .step 1, .step 1,
    .request (.put "svc/chat/10.0.0.1:9000" "" none), .step Registry.watcher]

/-- The instance is not shown, and no change is left that would tell the watcher of it. -/
theorem view_from_before_opening :
    ∃ site final key listing changes, Site.sample.run beforeOpening = some site ∧ site.Opens ∧
      site.after (.step Registry.watcher) = some final ∧
      final.registry.cache.Shows key listing ∧ ¬ listing.reading.IsAfter final.store ∧
      listing.connections = [] ∧ final.store.keys = ["svc/chat/10.0.0.1:9000"] ∧
      final.progress? Registry.watcher = some (.listening changes) ∧
      changes.due final.store = none := by
  refine ⟨(Site.sample.run beforeOpening).get rfl, _, ⟨"svc", "chat", by decide, by decide⟩,
    ⟨⟨0, 0, 0, 0⟩, []⟩, .live ⟨"svc/", 1⟩, (Option.some_get _).symm, ⟨_, _, _, rfl, rfl, rfl⟩, rfl,
    Cache.shows_of_lookup rfl, ?_, rfl, rfl, rfl, rfl⟩
  intro hafter
  exact absurd hafter.1 (by decide)

end ServiceRegistry
