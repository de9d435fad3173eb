import ServiceRegistry.Proofs.Registry.Coherence
import ServiceRegistry.Proofs.Registry.Draining

/-!
# Callers at rest are served

While the watcher rests, only callers stand in front of the gate. If the cache is open and the store
answers, the first of them is served: it finds a list in the cache, or reads the store and dials what it
finds. It leaves the gate to the next one then, so that every caller comes to a list, and no more is done
to the store than to read it.
-/
namespace ServiceRegistry

/-- How many steps a reading has left at most when it comes to the head of the line. -/
def Build.toGo : Build → Nat
  | .queued => 4
  | .stamping => 3
  | .scanning _ _ => 2
  | .dialing _ _ _ _ => 1

theorem Store.check_eq {before after : Store} (hfeed : after.feed = before.feed)
    (havailable : after.unavailable = before.unavailable) : after.check = before.check := by
  simp only [Store.check, hfeed, havailable]

namespace Site

/-! ## An open registry has an open cache -/

/-- A cache is closed by the last step of its registry. -/
theorem Turn.cache_closed {site mid : Site} {who : Nat} {activity : Activity} {next : Progress}
    (h : site.Turn who activity next mid) (hclosed : mid.registry.cache.closed = true) :
    site.registry.cache.closed = true ∨ activity.progress = .sealing := by
  have hinstalled : ∀ {errand stamp reading keys listing after},
      site.install errand stamp reading keys = .ok (listing, after) →
        after.registry.cache.closed = true → site.registry.cache.closed = true := by
    intro errand stamp reading keys listing after hinstall hafter
    obtain ⟨cache, rfl, -, -, ⟨-, rfl⟩ | hplaced⟩ := of_install hinstall
    · exact hafter
    · rw [show (site.withCache cache).registry.cache = cache from rfl, hplaced.open_eq] at hafter
      cases hafter
  cases h with
  | quiet hnext hlisting hcache hgate => exact .inl (hcache ▸ hclosed)
  | close hcache hgate => exact .inr rfl
  | advance hadvance => exact .inl (hadvance.registry ▸ hclosed)
  | fail hreceive => exact .inl ((sameCache_receive hreceive).1 ▸ hclosed)
  | resolve hinstall | rebuild hinstall => exact .inl (hinstalled hinstall hclosed)
  | refresh hinstall hgoes => exact .inl (hinstalled hinstall (by rw [hgoes.cache] at hclosed; exact hclosed))
  | start hsend => exact .inl (registry_of_send hsend ▸ hclosed)
  | subscribe hreceive => exact .inl (registry_of_receive hreceive ▸ hclosed)
  | discard hdiscard =>
    obtain ⟨-, rfl⟩ := Cache.of_discardPending hdiscard
    exact .inl hclosed
  | relay hfilled hgoes => exact .inl (hgoes.cache ▸ hclosed)
  | invalidate | addOptions | hit | miss | found | pass | take | relayAll => exact .inl hclosed

section
variable {store : Store} {config : Config} {dialer : Dialer} {faults : Faults} {moves : List Move}
  {site : Site}

theorem closed_of_cache_closed (hrun : (start store config dialer faults).run moves = some site)
    (hcache : site.registry.cache.closed = true) : site.registry.closed = true := by
  refine history_induction (P := fun _ site => site.registry.cache.closed = true →
    site.registry.closed = true) Bool.noConfusion ?_ hrun hcache
  intro before mid move after hbefore ih hmove hafter
  refine closed_of_after ?_ hmove
  cases moved_of_after hmove with
  | @turn who activity next turned hactivity hready hturn hframe =>
    rcases hturn.cache_closed hafter with hcache | hsealing
    · exact ih hcache
    · have hprogress : mid.progress? who = some .sealing := hsealing ▸ progress?_of_activity hactivity
      cases ending_of_run hbefore with
      | going hopen hnobody => exact absurd ⟨_, hprogress, rfl⟩ (hnobody who)
      | departing hclosed | leaving hclosed => exact hclosed
      | ended hover => exact hover.closed
  | calm hother hsame => exact ih (hsame ▸ hafter)

/-- Who rests is open. -/
theorem Rests.open (hrests : site.Rests)
    (hrun : (start store config dialer faults).run moves = some site) :
    site.registry.closed = false ∧ site.registry.cache.closed = false := by
  have hopen : site.registry.closed = false := by
    obtain ⟨changes, hactivity, -⟩ := hrests
    by_contra hclosed
    obtain ⟨progress, hasked⟩ := (tended_of_run hrun).closing (by simpa using hclosed)
    rw [hactivity] at hasked
    cases hasked
  refine ⟨hopen, ?_⟩
  by_contra hclosed
  rw [closed_of_cache_closed hrun (by simpa using hclosed)] at hopen
  cases hopen

end

/-! ## Readings meet no fault -/

/-- No fault is laid in front of the store for readings. -/
structure Unhindered (site : Site) : Prop where
  faults : site.client.faults .getPrefix = []
  scanning : ∀ who errand stamp flight,
    site.progress? who = some (.building errand (.scanning stamp flight)) → flight.treatment = .plain

theorem Unhindered.moved {site after : Site} {move : Move} (h : site.Unhindered)
    (hmove : site.after move = some after) : after.Unhindered := by
  constructor
  · refine List.eq_nil_iff_forall_not_mem.2 fun fault hfault => ?_
    obtain ⟨former, hformer, -⟩ := (precedes_of_after hmove).faults _ fault hfault
    rw [h.faults] at hformer
    cases hformer
  · intro who errand stamp flight hscanning
    rcases (moved_of_after hmove).inside_cases hscanning rfl with
      ⟨-, hbefore⟩ | ⟨former, mid, -, -, -, hadvance, -⟩
    · exact h.scanning who errand stamp flight hbefore
    · cases hadvance with
      | stamp htaken hsend =>
        rcases (of_sent hsend).2.2 with hplain | ⟨fault, hfault, -⟩
        · exact hplain
        · rw [h.faults] at hfault
          cases hfault

theorem unhindered_of_run {store : Store} {config : Config} {dialer : Dialer} {faults : Faults}
    (hfaults : faults .getPrefix = []) {moves : List Move} {site : Site}
    (hrun : (start store config dialer faults).run moves = some site) : site.Unhindered := by
  refine run_induction ⟨hfaults, ?_⟩ (fun _ _ _ h => h.moved) hrun
  intro who errand stamp flight h
  cases (progress?_start h).2

/-- A reading is answered by a store that answers. -/
theorem receive_of_plain {site : Site} {flight : Flight .getPrefix} (hplain : flight.treatment = .plain)
    (hanswers : site.store.check = .ok ()) : ∃ rows mid, site.receive flight = (.ok rows, mid) ∧
      mid.store = { site.store with scans := site.store.scans + 1 } := by
  cases hrequest : flight.request with
  | getPrefix directory =>
    have hserve : site.store.serve site.clock flight.request = .ok (site.store.rows directory,
        { site.store with scans := site.store.scans + 1 }) := by
      rw [hrequest]
      simp only [Store.serve, Store.getPrefix, hanswers]
      rfl
    refine ⟨site.store.rows directory, (site.receive flight).2, Prod.ext ?_ rfl, ?_⟩
    · simp only [Site.receive, Link.receive, hplain, Link.serve, hserve]
    · simp only [Site.receive, Link.receive, hplain, Link.serve, hserve]

/-- A store that answers fails no reading. -/
theorem Unhindered.not_fails {site : Site} (h : site.Unhindered) (hanswers : site.store.check = .ok ())
    (who : Nat) (errand : Errand) : ¬ site.Fails who errand := by
  rintro ⟨stamp, flight, e, mid, hactivity, hreceive⟩
  obtain ⟨rows, other, hanswered, -⟩ :=
    receive_of_plain (h.scanning who errand stamp flight (progress?_of_activity hactivity)) hanswers
  rw [hreceive] at hanswered
  cases hanswered

/-! ## The head of the line -/

/-- What a caller comes to at the head of the line, and the site then: it goes on and has less left to do,
or it leaves the gate with a list. -/
structure LetIn (site : Site) (errand : Errand) (build : Build) (result : Progress × Site) : Prop where
  cases : (∃ later, result.1 = .building errand later ∧ later.toGo < build.toGo ∧
      result.2.registry.gate = site.registry.gate) ∨
    ∃ listing, result.1 = .finished (.ok (.connections listing)) ∧
      result.2.registry.gate = site.registry.gate.release
  opened : result.2.registry.cache.closed = false
  /-- The store has been read at most. -/
  feed : result.2.store.feed = site.store.feed
  available : result.2.store.unavailable = site.store.unavailable

theorem letIn_stepBuild {site : Site} (hopen : site.registry.cache.closed = false)
    (hanswers : site.store.check = .ok ()) (who : Nat) (key : ServiceKey) {build : Build}
    (hplain : ∀ stamp flight, build = .scanning stamp flight → flight.treatment = .plain) :
    site.LetIn (.resolve key) build (site.stepBuild who (.resolve key) build) := by
  cases build with
  | queued =>
    cases hfilled : site.registry.cache.filled with
    | none =>
      have hlookup : site.registry.cache.lookup key = .ok none := by
        simp [Cache.lookup, hopen, hfilled]
      simp only [stepBuild, hlookup]
      exact ⟨.inl ⟨_, rfl, Nat.lt_succ_self _, rfl⟩, hopen, rfl, rfl⟩
    | some reading =>
      obtain ⟨listing, hlookup⟩ := Cache.lookup_of_filled hopen (Option.isSome_of_eq_some hfilled) key
      simp only [stepBuild, hlookup, conclude]
      exact ⟨.inr ⟨listing, rfl, rfl⟩, hopen, rfl, rfl⟩
  | stamping =>
    have hstamp : site.registry.cache.stamp =
        .ok ⟨site.registry.cache.generation, site.registry.cache.options⟩ := by
      simp [Cache.stamp, hopen]
    simp only [stepBuild, hstamp]
    have hstore : (site.send (.getPrefix (site.directoryOf (.resolve key)))).2.store = site.store :=
      site.toLink.store_send _
    exact ⟨.inl ⟨_, rfl, Nat.lt_succ_self _, rfl⟩, hopen, congrArg Store.feed hstore,
      congrArg Store.unavailable hstore⟩
  | scanning stamp flight =>
    obtain ⟨rows, mid, hreceive, hstore⟩ := receive_of_plain (hplain stamp flight rfl) hanswers
    have hregistry := registry_of_receive hreceive
    have hfeed : mid.store.feed = site.store.feed := by rw [hstore]
    have havailable : mid.store.unavailable = site.store.unavailable := by rw [hstore]
    simp only [stepBuild, hreceive]
    exact ⟨.inl ⟨_, rfl, Nat.lt_succ_self _, congrArg Registry.gate hregistry⟩,
      (congrArg (fun registry => registry.cache.closed) hregistry).trans hopen, hfeed, havailable⟩
  | dialing stamp reading keys due =>
    have hinstall : ∃ cache, site.registry.cache.install reading
        ((site.registry.dialing stamp.options reading.time).byService keys) = .ok cache ∧
          cache.closed = false := by
      simp only [Cache.install, hopen, Bool.false_eq_true, if_false]
      split
      · exact ⟨_, rfl, hopen⟩
      · exact ⟨_, rfl, rfl⟩
    obtain ⟨cache, hcache, hafter⟩ := hinstall
    simp only [stepBuild, install, hcache, Except.map, conclude]
    exact ⟨.inr ⟨_, rfl, rfl⟩, hafter, rfl, rfl⟩

/-! ## The line in front of the gate -/

/-- A site with an open cache and a store that answers, whose watcher waits for a batch. -/
structure Admitting (site : Site) : Prop where
  queues : site.registry.gate.Queues (site.Stands Progress.isBuilding)
  orderly : site.Orderly
  backed : site.Backed
  unhindered : site.Unhindered
  opened : site.registry.cache.closed = false
  answers : site.store.check = .ok ()
  listening : ∃ changes, site.progress? Registry.watcher = some (.listening changes)

/-- A run in which the watcher takes no step leaves the line as it should be. -/
theorem Admitting.run {site later : Site} {moves : List Move} (h : site.Admitting)
    (hrun : site.run moves = some later) (hwatcher : Move.step Registry.watcher ∉ moves)
    (hopened : later.registry.cache.closed = false) (hanswers : later.store.check = .ok ()) :
    later.Admitting := by
  obtain ⟨changes, hlistening⟩ := h.listening
  obtain ⟨hqueues, horderly, hbacked, hunhindered⟩ := run_induction
    (P := fun site => site.registry.gate.Queues (site.Stands Progress.isBuilding) ∧ site.Orderly ∧
      site.Backed ∧ site.Unhindered) ⟨h.queues, h.orderly, h.backed, h.unhindered⟩
    (fun _ _ _ ⟨hqueues, horderly, hbacked, hunhindered⟩ hmove =>
      ⟨queues_moved hqueues horderly hmove, horderly.moved (moved_of_after hmove),
        hbacked.moved hmove, hunhindered.moved hmove⟩) hrun
  exact ⟨hqueues, horderly, hbacked, hunhindered, hopened, hanswers, changes,
    progress?_of_run hrun hwatcher hlistening⟩

/-- Who stands in the line is a caller. -/
theorem Admitting.resolves {site : Site} (h : site.Admitting) {who : Nat} {errand : Errand}
    {build : Build} (hprogress : site.progress? who = some (.building errand build)) :
    who ≠ Registry.watcher ∧ ∃ key, errand = .resolve key := by
  have hwho : who ≠ Registry.watcher := by
    rintro rfl
    obtain ⟨changes, hlistening⟩ := h.listening
    rw [hprogress] at hlistening
    cases hlistening
  refine ⟨hwho, ?_⟩
  cases errand with
  | resolve key => exact ⟨key, rfl⟩
  | refresh | rebuild => exact absurd (h.orderly.watching who _ hprogress rfl) hwho

/-- The head of the line takes its next step, and callers are still let in then. -/
theorem Admitting.head_steps {site : Site} (h : site.Admitting) {who : Nat} {key : ServiceKey}
    {build : Build} (hholder : site.registry.gate.holder? = some who)
    (hprogress : site.progress? who = some (.building (.resolve key) build)) :
    ∃ time result, site.run [.wait time, .step who] = some (result.2.settle who result.1) ∧
      (result.2.settle who result.1).progress? who = some result.1 ∧
      site.LetIn (.resolve key) build result ∧ (result.2.settle who result.1).Admitting := by
  obtain ⟨time, result, hresult, hrun, hown⟩ :=
    Site.head_steps hholder (h.backed.activity_of_progress? hprogress rfl)
  let there : Site := { site with clock := site.clock + time }
  have hopened : there.registry.cache.closed = false := h.opened
  have hletIn : there.LetIn (.resolve key) build result := by
    refine hresult ▸ letIn_stepBuild hopened h.answers who key ?_
    rintro stamp flight rfl
    exact h.unhindered.scanning who _ stamp flight hprogress
  refine ⟨time, result, hrun, hown, ⟨hletIn.cases, hletIn.opened, hletIn.feed, hletIn.available⟩, ?_⟩
  exact h.run hrun (not_mem_wait_step (h.resolves hprogress).1.symm) hletIn.opened
    ((Store.check_eq hletIn.feed hletIn.available).trans h.answers)

/-- The head of the line leaves the gate with a list. -/
theorem Admitting.head_leaves {site : Site} (h : site.Admitting) {who : Nat} {key : ServiceKey}
    {build : Build} (hholder : site.registry.gate.holder? = some who)
    (hprogress : site.progress? who = some (.building (.resolve key) build)) :
    ∃ moves later listing, site.run moves = some later ∧ later.Admitting ∧
      (∀ other, other ≠ who → Move.step other ∉ moves) ∧
      later.registry.gate = site.registry.gate.release ∧ later.store.feed = site.store.feed ∧
      later.progress? who = some (.finished (.ok (.connections listing))) := by
  induction hleft : build.toGo using Nat.strong_induction_on generalizing site build with
  | _ left ih =>
    subst hleft
    obtain ⟨time, result, hrun, hown, hletIn, hadmitting⟩ := h.head_steps hholder hprogress
    have hothers : ∀ other, other ≠ who → Move.step other ∉ [.wait time, .step who] :=
      fun other => not_mem_wait_step
    rcases hletIn.cases with ⟨further, hfurther, hless, hgate⟩ | ⟨listing, hlisting, hgate⟩
    · obtain ⟨moves, later, listing, hrest, hthere, hmoves, hleaves, hfeed, hended⟩ :=
        ih further.toGo hless hadmitting (by rw [gate_settle, hgate, hholder])
          (hown.trans (congrArg some hfurther)) rfl
      refine ⟨[.wait time, .step who] ++ moves, later, listing, ?_, hthere, fun other hne hmem => ?_,
        ?_, hfeed.trans hletIn.feed, hended⟩
      · rw [run_append, hrun, Option.bind_some, hrest]
      · exact (List.mem_append.1 hmem).elim (hothers other hne) (hmoves other hne)
      · rw [hleaves, gate_settle, hgate]
    · exact ⟨_, _, listing, hrun, hadmitting, hothers, hgate, hletIn.feed,
        hown.trans (congrArg some hlisting)⟩

/-- Every caller in the line comes to a list. -/
theorem Admitting.reader_served {site : Site} (h : site.Admitting) {who : Nat} {key : ServiceKey}
    {build : Build} (hprogress : site.progress? who = some (.building (.resolve key) build)) :
    ∃ moves later listing, site.run moves = some later ∧ later.store.feed = site.store.feed ∧
      later.progress? who = some (.finished (.ok (.connections listing))) := by
  have hleaves : ∀ (there : Site) (head : Nat) (met : Progress),
      there.Admitting ∧ there.store.feed = site.store.feed → there.registry.gate.holder? = some head →
      there.progress? head = some met → met.isBuilding = true →
      ∃ moves later, there.run moves = some later ∧
        (later.Admitting ∧ later.store.feed = site.store.feed) ∧
        (∀ other, other ≠ head → Move.step other ∉ moves) ∧
        later.registry.gate = there.registry.gate.release := by
    rintro there head progress ⟨hthere, hsame⟩ hhead hmet hbuilding
    cases progress with
    | building errand found =>
      obtain ⟨-, other, rfl⟩ := hthere.resolves hmet
      obtain ⟨moves, later, listing, hrun, hlater, hmoves, hrelease, hfeed, -⟩ :=
        hthere.head_leaves hhead hmet
      exact ⟨moves, later, hrun, ⟨hlater, hfeed.trans hsame⟩, hmoves, hrelease⟩
    | _ => cases hbuilding
  obtain ⟨moves, later, hrun, ⟨hlater, hfeed⟩, hholder, hstays⟩ := comes_to_head
    (fun site => site.registry.gate) Progress.isBuilding
    (fun there => there.Admitting ∧ there.store.feed = site.store.feed)
    (fun _ hthere => hthere.1.queues) hleaves ⟨h, rfl⟩ hprogress rfl
  obtain ⟨further, last, listing, hrest, -, -, -, hsame, hended⟩ := hlater.head_leaves hholder hstays
  exact ⟨moves ++ further, last, listing, by rw [run_append, hrun]; exact hrest, hsame.trans hfeed,
    hended⟩

/-! ## The first steps of a caller -/

/-- The call begins with a look into the cache. -/
theorem stepCalling_getConnections (site : Site) {service : String} {key : ServiceKey}
    (hopen : site.registry.closed = false)
    (hkey : ServiceKey.make site.registry.config.root service = .ok key) (who : Nat) :
    site.stepCalling who (.getConnections service) = (.looking key, site) := by
  have hensure : site.registry.ensureOpen = .ok () := by simp [Registry.ensureOpen, hopen]
  simp only [stepCalling, hensure, hkey]

/-- In an open cache the caller finds a list, or has it filled. -/
theorem stepLooking_cases (site : Site) (hopen : site.registry.cache.closed = false) (who : Nat)
    (key : ServiceKey) :
    (∃ listing, site.stepLooking who key = (.finished (.ok (.connections listing)), site)) ∨
      site.stepLooking who key = (.building (.resolve key) .queued, site.enterGate who) := by
  cases hfilled : site.registry.cache.filled with
  | none =>
    have hlookup : site.registry.cache.lookup key = .ok none := by simp [Cache.lookup, hopen, hfilled]
    exact .inr (by simp only [stepLooking, hlookup])
  | some reading =>
    obtain ⟨listing, hlookup⟩ := Cache.lookup_of_filled hopen (Option.isSome_of_eq_some hfilled) key
    exact .inl ⟨listing, by simp only [stepLooking, hlookup]⟩

/-! ## A call at rest -/

section
variable {store : Store} {config : Config} {dialer : Dialer} {faults : Faults} {moves : List Move}
  {site : Site}

theorem Rests.admitting (hrests : site.Rests)
    (hrun : (start store config dialer faults).run moves = some site)
    (hfaults : faults .getPrefix = []) (hanswers : site.store.check = .ok ()) : site.Admitting := by
  obtain ⟨changes, hactivity, -⟩ := id hrests
  exact ⟨queues_of_run hrun, orderly_of_run hrun, (inLine_of_run hrun).2, unhindered_of_run hfaults hrun,
    (hrests.open hrun).2, hanswers, changes, progress?_of_activity hactivity⟩

/-- A caller who comes at rest can be served without any change of the store. -/
theorem Rests.served (hrests : site.Rests)
    (hrun : (start store config dialer faults).run moves = some site)
    (hfaults : faults .getPrefix = []) (hanswers : site.store.check = .ok ()) {service : String}
    {key : ServiceKey} (hkey : ServiceKey.make config.root service = .ok key) :
    ∃ own final listing, site.run (.call (.getConnections service) :: own) = some final ∧
      final.store.revision = site.store.revision ∧
      final.progress? site.registry.activities.length =
        some (.finished (.ok (.connections listing))) := by
  obtain ⟨hopen, hcache⟩ := hrests.open hrun
  have hadmitting := hrests.admitting hrun hfaults hanswers
  have hconfig : site.registry.config = config := (precedes_of_run hrun).config
  generalize hwho : site.registry.activities.length = who
  have hwatcher : Registry.watcher ≠ who :=
    (hwho ▸ List.length_pos_of_ne_nil (tended_of_run hrun).started).ne
  -- the caller looks into the cache
  let called : Site := site.mapRegistry fun registry =>
    registry.begin (.calling (.getConnections service))
  let looking : Site := called.settle who (.looking key)
  have hcalled : called.registry.activities[who]? = some ⟨.calling (.getConnections service), false⟩ := by
    simp [called, ← hwho, mapRegistry, Registry.begin, Activity.begin]
  have hlooking : looking.registry.activities[who]? = some ⟨.looking key, false⟩ := by
    simp [looking, settle, mapRegistry, Registry.move, hcalled]
  have hfirst : called.run [.step who] = some looking := by
    rw [run_step (canStep_of_due hcalled rfl (Nat.zero_le _)), step_of_activity hcalled]
    exact congrArg (fun result : Progress × Site => some (result.2.settle who result.1))
      (called.stepCalling_getConnections hopen (hconfig ▸ hkey) who)
  have hlooked : site.run [.call (.getConnections service), .step who] = some looking := by
    rw [run_cons]
    exact hfirst
  have hready : looking.canStep who = true := canStep_of_due hlooking rfl (Nat.zero_le _)
  have hthere : looking.Admitting := hadmitting.run hlooked (by simp [hwatcher]) hcache hanswers
  have hsecond : looking.run [.step who] = some ((looking.stepLooking who key).2.settle who
      (looking.stepLooking who key).1) := by
    rw [run_step hready, step_of_activity hlooking]
    rfl
  rcases looking.stepLooking_cases hcache who key with ⟨listing, hfound⟩ | hmissed
  · rw [hfound] at hsecond
    refine ⟨[.step who, .step who], looking.settle who (.finished (.ok (.connections listing))), listing,
      ?_, rfl, progress?_settle_self (.refl _) _ (progress?_of_activity hlooking)⟩
    rw [show Move.call (.getConnections service) :: [.step who, .step who] =
      [.call (.getConnections service), .step who] ++ [.step who] from rfl, run_append, hlooked]
    exact hsecond
  · -- it is to be filled, so that the caller comes to the gate
    rw [hmissed] at hsecond
    have hprogress := progress?_settle_self (frame_enterGate looking who)
      (.building (.resolve key) .queued) (progress?_of_activity hlooking)
    have hadmitted := hthere.run hsecond (by simp [hwatcher]) hcache hanswers
    obtain ⟨rest, final, listing, hrest, hfeed, hended⟩ := hadmitted.reader_served hprogress
    refine ⟨[.step who, .step who] ++ rest, final, listing, ?_,
      congrArg (fun feed => feed.published.length) hfeed, hended⟩
    rw [show Move.call (.getConnections service) :: ([.step who, .step who] ++ rest) =
      [.call (.getConnections service), .step who] ++ ([.step who] ++ rest) from rfl, run_append,
      hlooked, Option.bind_some, run_append, hsecond, Option.bind_some, hrest]

end

end Site

/-! ## Nobody fails -/

/-- Where a caller for the connections of a service can be met as long as nothing fails. -/
def Progress.Resolves (progress : Progress) (service : String) (key : ServiceKey) : Prop :=
  progress = .calling (.getConnections service) ∨ progress = .looking key ∨
    (∃ build, progress = .building (.resolve key) build) ∨
    ∃ listing, progress = .finished (.ok (.connections listing))

/-- Who has ended there has a list. -/
theorem Progress.Resolves.listing {outcome : Except Error Outcome} {service : String} {key : ServiceKey}
    (h : (Progress.finished outcome).Resolves service key) :
    ∃ listing, outcome = .ok (.connections listing) := by
  rcases h with hother | hother | ⟨build, hother⟩ | ⟨listing, hlisting⟩
  · cases hother
  · cases hother
  · cases hother
  · exact ⟨listing, Progress.finished.inj hlisting⟩

namespace Site

/-! ## A step of a reading -/

/-- A step of a reading brings it nearer to its end, or concludes it. It fails by a closed cache or by an
answer of the store. -/
inductive Proceeds (site : Site) (who : Nat) (errand : Errand) (build : Build) : Progress × Site → Prop
  | onward {later : Build} {after : Site} (hless : later.toGo < build.toGo)
      (hregistry : after.registry = site.registry) :
      site.Proceeds who errand build (.building errand later, after)
  | conclude {result : Except Error Listing} {mid : Site}
      (hgate : mid.registry.gate = site.registry.gate)
      (hfails : ∀ e, result = .error e → site.registry.cache.closed = true ∨
        ∃ stamp flight after, build = .scanning stamp flight ∧
          site.receive flight = (.error e, after)) :
      site.Proceeds who errand build (mid.conclude who errand result)

theorem closed_of_lookup_error {cache : Cache} {key : ServiceKey} {e : Error}
    (h : cache.lookup key = .error e) : cache.closed = true := by
  unfold Cache.lookup at h
  split at h
  · assumption
  · cases h

theorem closed_of_stamp_error {cache : Cache} {e : Error} (h : cache.stamp = .error e) :
    cache.closed = true := by
  unfold Cache.stamp at h
  split at h
  · assumption
  · cases h

theorem closed_of_install_error {site : Site} {errand : Errand} {stamp : Stamp} {reading : Reading}
    {keys : List EndpointKey} {e : Error} (h : site.install errand stamp reading keys = .error e) :
    site.registry.cache.closed = true := by
  by_contra hopen
  rw [Bool.not_eq_true] at hopen
  cases errand with
  | resolve key | rebuild changes =>
    simp only [install, Cache.install, hopen, Bool.false_eq_true, if_false] at h
    split at h <;> cases h
  | refresh key rest changes =>
    simp only [install, Cache.replace, hopen, Bool.false_eq_true, if_false] at h
    split at h <;> cases h

theorem proceeds_stepBuild (site : Site) (who : Nat) (errand : Errand) (build : Build) :
    site.Proceeds who errand build (site.stepBuild who errand build) := by
  cases build with
  | queued =>
    cases errand with
    | resolve key =>
      simp only [stepBuild]
      split
      · exact .onward (Nat.lt_succ_self _) rfl
      · exact .conclude rfl fun e he => by cases he
      · rename_i hlookup
        exact .conclude rfl fun e he => .inl (closed_of_lookup_error hlookup)
    | refresh | rebuild => exact .onward (Nat.lt_succ_self _) rfl
  | stamping =>
    simp only [stepBuild]
    split
    · exact .onward (Nat.lt_succ_self _) (registry_of_send rfl)
    · rename_i hstamp
      exact .conclude rfl fun e he => .inl (closed_of_stamp_error hstamp)
  | scanning stamp flight =>
    simp only [stepBuild]
    split
    · rename_i hreceive
      have hregistry := registry_of_receive hreceive
      exact .onward (Nat.lt_succ_self _) hregistry
    · rename_i e mid hreceive
      refine .conclude (congrArg Registry.gate (registry_of_receive hreceive)) fun other he => ?_
      cases he
      exact .inr ⟨stamp, flight, mid, rfl, hreceive⟩
  | dialing stamp reading keys due =>
    simp only [stepBuild]
    split
    · rename_i hinstall
      obtain ⟨cache, rfl, -⟩ := of_install hinstall
      exact .conclude rfl fun e he => by cases he
    · rename_i hinstall
      exact .conclude rfl fun e he => .inl (closed_of_install_error hinstall)

/-! ## Callers do not fail -/

/-- A step of a caller leads to a list or closer to it if the registry is open and its reading does not
fail. -/
theorem resolves_step {site : Site} {who : Nat} {progress : Progress} {service : String}
    {key : ServiceKey} (hopen : site.registry.closed = false)
    (hcache : site.registry.cache.closed = false) (hfails : ¬ site.Fails who (.resolve key))
    (hkey : ServiceKey.make site.registry.config.root service = .ok key)
    (hactivity : site.registry.activities[who]? = some ⟨progress, false⟩)
    (h : progress.Resolves service key) : (site.stepFrom who progress).1.Resolves service key := by
  rcases h with rfl | rfl | ⟨build, rfl⟩ | ⟨listing, rfl⟩
  · exact .inr (.inl (congrArg Prod.fst (site.stepCalling_getConnections hopen hkey who)))
  · rcases site.stepLooking_cases hcache who key with ⟨listing, hfound⟩ | hmissed
    · exact .inr (.inr (.inr ⟨listing, congrArg Prod.fst hfound⟩))
    · exact .inr (.inr (.inl ⟨.queued, congrArg Prod.fst hmissed⟩))
  · have hproceeds := site.proceeds_stepBuild who (.resolve key) build
    simp only [stepFrom]
    generalize site.stepBuild who (.resolve key) build = result at hproceeds
    cases hproceeds with
    | onward => exact .inr (.inr (.inl ⟨_, rfl⟩))
    | @conclude outcome mid hgate hwhy =>
      cases outcome with
      | ok listing => exact .inr (.inr (.inr ⟨listing, rfl⟩))
      | error e =>
        rcases hwhy e rfl with hclosed | ⟨stamp, flight, after, rfl, hreceive⟩
        · rw [hcache] at hclosed
          cases hclosed
        · exact absurd ⟨stamp, flight, e, after, hactivity, hreceive⟩ hfails
  · exact .inr (.inr (.inr ⟨listing, rfl⟩))

section
variable {store : Store} {config : Config} {dialer : Dialer} {faults : Faults} {earlier moves : List Move}
  {there later : Site} {service : String} {key : ServiceKey} {who : Nat}

/-- A caller does not fail as long as the registry is open and no reading of a caller fails. -/
theorem resolves_of_unfailed (hearlier : (start store config dialer faults).run earlier = some there)
    (hrun : there.run moves = some later) (hkey : ServiceKey.make config.root service = .ok key)
    (hfails : ∀ early reader, (early, .step reader) ∈ there.history moves →
      ¬ early.Fails reader (.resolve key))
    (hopen : later.registry.closed = false)
    (hcall : Calls (there.history moves) who (.getConnections service) ∨
      ∃ progress, there.progress? who = some progress ∧ progress.Resolves service key) :
    ∃ progress, later.progress? who = some progress ∧ progress.Resolves service key := by
  refine history_induction (P := fun past site =>
    (∀ early reader, (early, .step reader) ∈ past → ¬ early.Fails reader (.resolve key)) →
    site.registry.closed = false → (Calls past who (.getConnections service) ∨
      ∃ progress, there.progress? who = some progress ∧ progress.Resolves service key) →
      ∃ progress, site.progress? who = some progress ∧ progress.Resolves service key)
    ?_ ?_ hrun hfails hopen hcall
  · rintro - - (⟨early, hmem, -⟩ | hstart)
    · cases hmem
    · exact hstart
  · intro before site move after hbefore ih hmove hfails hopen hcalls
    have hsite : (start store config dialer faults).run (earlier ++ before) = some site := by
      rw [run_append, hearlier, Option.bind_some, hbefore]
    have hstill : site.registry.closed = false := by
      by_contra hclosed
      rw [closed_of_after (by simpa using hclosed) hmove] at hopen
      cases hopen
    have hgoes : (Calls (there.history before) who (.getConnections service) ∨
        ∃ progress, there.progress? who = some progress ∧ progress.Resolves service key) →
        ∃ progress, after.progress? who = some progress ∧ progress.Resolves service key := by
      intro hmade
      obtain ⟨progress, hprogress, hresolves⟩ :=
        ih (fun early reader hmem => hfails early reader (List.mem_append_left _ hmem)) hstill hmade
      by_cases hother : move = .step who
      · subst hother
        by_cases hended : ∃ listing, progress = .finished (.ok (.connections listing))
        · obtain ⟨listing, rfl⟩ := hended
          exact ⟨_, finished_of_after hprogress hmove, hresolves⟩
        · have hactive : progress.isBackground = false := by
            rcases hresolves with rfl | rfl | ⟨build, rfl⟩ | hlisting
            · rfl
            · rfl
            · rfl
            · exact absurd hlisting hended
          have hactivity := (inLine_of_run hsite).2.activity_of_progress? hprogress hactive
          have hcache : site.registry.cache.closed = false := by
            by_contra hclosed
            rw [closed_of_cache_closed hsite (by simpa using hclosed)] at hstill
            cases hstill
          obtain ⟨-, rfl⟩ := of_after_step hmove
          exact ⟨_, progress?_step hactivity, resolves_step hstill hcache
            (hfails site who (by simp)) ((precedes_of_run hsite).config ▸ hkey) hactivity hresolves⟩
      · exact ⟨progress, progress?_of_other hmove hother hprogress, hresolves⟩
    rcases hcalls with hcalled | hstart
    · rcases hcalled.of_append with hmade | ⟨rfl, rfl⟩
      · exact hgoes (.inl hmade)
      · exact ⟨_, progress?_call hmove, .inl rfl⟩
    · exact hgoes (.inr hstart)

/-- A caller does not fail as long as the registry is open and the store answers. -/
theorem resolves_of_run (hearlier : (start store config dialer faults).run earlier = some there)
    (hrun : there.run moves = some later) (hfaults : faults .getPrefix = [])
    (hkey : ServiceKey.make config.root service = .ok key)
    (hanswers : ∀ entry ∈ there.history moves, entry.1.store.check = .ok ())
    (hopen : later.registry.closed = false)
    (hcall : Calls (there.history moves) who (.getConnections service)) :
    ∃ progress, later.progress? who = some progress ∧ progress.Resolves service key := by
  refine resolves_of_unfailed hearlier hrun hkey ?_ hopen (.inl hcall)
  intro early reader hmem
  obtain ⟨before, after, -, hbefore⟩ := split_of_mem_history hmem
  have hearly : (start store config dialer faults).run (earlier ++ before) = some early := by
    rw [run_append, hearlier, Option.bind_some, hbefore]
  exact (unhindered_of_run hfaults hearly).not_fails (hanswers _ hmem) reader _

end

end Site

end ServiceRegistry
