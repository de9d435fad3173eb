import ServiceRegistry.Proofs.Registry.Presence
import ServiceRegistry.Proofs.Registry.Sharing

/-!
# The watcher of a cache that nobody has filled

The watcher keeps current what callers have filled, and does nothing for a cache that is to be filled: it
takes each batch from the stream and begins a new generation. So until a caller's reading is put in, the
watcher neither reads the store nor dials, and a reading that is under way when a batch comes is overtaken:
its caller has the list all the same, and the cache does not take it.
-/
namespace ServiceRegistry

namespace Site

variable {site after : Site} {move : Move} {who : Nat}

/-- Whether the reading of a caller is put into the cache in a move. -/
def installs (site : Site) : Move → Bool
  | .step who =>
    match site.registry.activities[who]? with
    | some ⟨.building (.resolve _) (.dialing _ reading _ _), false⟩ =>
      !site.registry.cache.closed && decide (reading.generation = site.registry.cache.generation)
    | _ => false
  | _ => false

theorem installs_iff : site.installs move = true ↔
    ∃ who key stamp reading keys due, move = .step who ∧
      site.registry.activities[who]? =
        some ⟨.building (.resolve key) (.dialing stamp reading keys due), false⟩ ∧
      site.registry.cache.closed = false ∧ reading.generation = site.registry.cache.generation := by
  constructor
  · intro h
    cases move with
    | step who =>
      simp only [installs] at h
      split at h
      · rename_i key stamp reading keys due hactivity
        exact ⟨who, key, stamp, reading, keys, due, rfl, hactivity, by simpa using h⟩
      · cases h
    | _ => cases h
  · rintro ⟨who, key, stamp, reading, keys, due, rfl, hactivity, hopen, hcurrent⟩
    simp [installs, hactivity, hopen, hcurrent]

/-- A reading that is put in fills the cache. -/
theorem filled_of_installs (h : site.installs move = true) (hmove : site.after move = some after) :
    after.registry.cache.filled.isSome = true := by
  obtain ⟨who, key, stamp, reading, keys, due, rfl, hactivity, hopen, hcurrent⟩ := installs_iff.1 h
  obtain ⟨-, rfl⟩ := of_after_step hmove
  rw [step_resolve hactivity hopen hcurrent]
  rfl

/-! ## Before the cache is filled -/

/-- The cache is to be filled, and nobody but callers reads the store into it. -/
structure Unclaimed (site : Site) : Prop where
  filled : site.registry.cache.filled = none
  readers : ∀ who errand build, site.progress? who = some (.building errand build) →
    errand.changes? = none

theorem Unclaimed.moved (h : site.Unclaimed) (horderly : site.Orderly)
    (hmove : site.after move = some after) (hinstalls : site.installs move = false) :
    after.Unclaimed := by
  refine ⟨?_, fun who errand build => readers_moved h.filled h.readers hmove⟩
  rcases (moved_of_after hmove).cache_cases with
    hsame | ⟨-, hnone⟩ | ⟨who, errand, stamp, reading, keys, due, rfl, hactivity, hplaced⟩
  · rw [hsame, h.filled]
  · exact hnone
  · -- a reading is put in, and it is that of a caller
    have hdialing := progress?_of_activity hactivity
    obtain ⟨key, rfl⟩ := exists_resolve_of_changes? (h.readers who _ _ hdialing)
    have hcurrent : stamp.generation = site.registry.cache.generation :=
      (horderly.dialing who _ stamp reading keys due hdialing).symm.trans hplaced.current
    have hopen := (horderly.stamped who _ _ stamp hdialing rfl).2.1 hcurrent
    rw [installs_iff.2 ⟨who, key, stamp, reading, keys, due, rfl, hactivity, hopen, hplaced.current⟩]
      at hinstalls
    cases hinstalls

theorem unclaimed_of_run {store : Store} {config : Config} {dialer : Dialer} {faults : Faults}
    {moves : List Move} (hrun : (start store config dialer faults).run moves = some site)
    (hnone : ∀ entry ∈ (start store config dialer faults).history moves,
      entry.1.installs entry.2 = false) : site.Unclaimed := by
  refine history_induction (P := fun past there =>
    (∀ entry ∈ past, entry.1.installs entry.2 = false) → there.Unclaimed) ?_ ?_ hrun hnone
  · refine fun _ => ⟨rfl, fun who errand build hbuild => ?_⟩
    cases (progress?_start hbuild).2
  · intro before there move next hthere hunclaimed hmove hquiet
    exact (hunclaimed fun entry hmem => hquiet entry (List.mem_append_left _ hmem)).moved
      (orderly_of_run hthere) hmove
      (hquiet (there, move) (List.mem_append_right _ List.mem_cons_self))

/-- What goes on behind the calls and does not read the store asks for nothing but a subscription. -/
theorem log_stepFrom (site : Site) {progress : Progress} (hbackground : progress.isBackground = true)
    (hbuilding : progress.isBuilding = false) :
    (site.stepFrom who progress).2.client.log = site.client.log ∨
      progress = .starting ∧ (site.stepFrom who progress).2.client.log =
        .request (.watch site.registry.config.directory) :: site.client.log := by
  cases progress with
  | starting => exact .inr ⟨rfl, log_of_send rfl⟩
  | subscribing flight =>
    left
    simp only [stepFrom]
    split
    · rename_i hreceive
      exact congrArg Client.log (client_of_receive hreceive)
    · rename_i hreceive
      exact congrArg Client.log (client_of_receive hreceive)
  | listening changes =>
    left
    simp only [stepFrom, stepListening]
    split <;> rfl
  | discarding changes concern =>
    left
    simp only [stepFrom, stepDiscarding]
    split
    · rfl
    · split
      · simp only [refreshNext]
        split <;> rfl
      · rfl
  | renewing key lease renewals =>
    left
    simp only [stepFrom, stepRenewing]
    split
    · rfl
    · rfl
    · split <;> rfl
    · rfl
    · rfl
  | finished outcome => exact .inl rfl
  | building => cases hbuilding
  | _ => cases hbackground

/-- The watcher of a cache that nobody has filled asks for its subscription, and for nothing else. -/
theorem Unclaimed.log_step (h : site.Unclaimed) (hbacked : site.Backed) :
    (site.step Registry.watcher).client.log = site.client.log ∨
      site.progress? Registry.watcher = some .starting ∧
        (site.step Registry.watcher).client.log =
          .request (.watch site.registry.config.directory) :: site.client.log := by
  obtain ⟨progress, hprogress, hbackground⟩ := hbacked.watcher
  have hbuilding : progress.isBuilding = false := by
    cases progress with
    | building errand build =>
      obtain ⟨key, rfl⟩ := exists_resolve_of_changes? (h.readers _ _ _ hprogress)
      cases hbackground
    | _ => rfl
  obtain ⟨⟨met, asked⟩, hactivity, rfl⟩ := Option.map_eq_some_iff.1 hprogress
  cases asked with
  | false =>
    rw [step_of_activity hactivity]
    rcases site.log_stepFrom hbackground hbuilding with hsame | ⟨rfl, hlog⟩
    · exact .inl hsame
    · exact .inr ⟨hprogress, hlog⟩
  | true =>
    left
    rw [step, hactivity]
    simp only
    split
    · rfl
    · rename_i hended
      cases met with
      | finished outcome => rfl
      | _ => exact absurd rfl hended

/-! ## Readings that are overtaken -/

/-- Whoever reads the store when the watcher goes on with a batch has the stamp of a generation that
passes. -/
theorem generation_of_discards {changes : Changes} {concern : Attribution}
    (hactivity : site.registry.activities[Registry.watcher]? =
      some ⟨.discarding changes concern, false⟩)
    (hfilled : site.registry.cache.filled = none) :
    site.after (.step Registry.watcher) = some (site.step Registry.watcher) ∧
      (site.step Registry.watcher).registry.cache.generation = site.registry.cache.generation + 1 := by
  have hready : site.canStep Registry.watcher = true := canStep_of_due hactivity rfl (Nat.zero_le _)
  refine ⟨by rw [Site.after, if_pos hready], ?_⟩
  rw [step_of_activity hactivity]
  simp only [stepFrom, stepDiscarding, Cache.discardPending, hfilled, Option.isSome_none,
    Bool.false_eq_true, if_false]
  rfl

/-- A caller whose generation has passed is handed what it has found, or is turned away by a closed cache.
The cache stays as it is. -/
theorem step_of_passed {key : ServiceKey} {stamp : Stamp} {reading : Reading} {keys : List EndpointKey}
    {due : Nat}
    (hactivity : site.registry.activities[who]? =
      some ⟨.building (.resolve key) (.dialing stamp reading keys due), false⟩)
    (hpassed : reading.generation ≠ site.registry.cache.generation) :
    (site.step who).registry.cache = site.registry.cache ∧
      (site.registry.cache.closed = true ∧
          (site.step who).progress? who = some (.finished (.error .closed)) ∨
        (site.step who).progress? who = some (.finished (.ok (.connections
          ⟨reading, (site.registry.dialing stamp.options reading.time).connections keys key⟩)))) := by
  have hnext := progress?_step hactivity
  rw [step_of_activity hactivity]
  rw [step_of_activity hactivity] at hnext
  cases hclosed : site.registry.cache.closed with
  | true =>
    have hstep : site.stepFrom who (.building (.resolve key) (.dialing stamp reading keys due)) =
        (.finished (.error .closed), site.releaseGate) := by
      simp only [stepFrom, stepBuild, install, Cache.install, hclosed, if_true]
      rfl
    rw [hstep] at hnext ⊢
    exact ⟨rfl, .inl ⟨rfl, hnext.trans (by simp [Activity.isDropped])⟩⟩
  | false =>
    have hstep : site.stepFrom who (.building (.resolve key) (.dialing stamp reading keys due)) =
        (.finished (.ok (.connections
          ⟨reading, (site.registry.dialing stamp.options reading.time).connections keys key⟩)),
          (site.withCache site.registry.cache).releaseGate) := by
      simp only [stepFrom, stepBuild, install, Cache.install, hclosed, Bool.false_eq_true, if_false,
        if_pos (Ne.symm hpassed), Dialing.listed_byService]
      rfl
    rw [hstep] at hnext ⊢
    exact ⟨rfl, .inr (hnext.trans (by simp [Activity.isDropped]))⟩

/-- What has become of the reading of a caller whose generation has passed: it is under way, or the caller
was handed what its scan has found, or was told that the store has failed it or that the cache is
closed. -/
inductive Overtaken (past : List (Site × Move)) (who : Nat) (key : ServiceKey) (stamp : Stamp)
    (site : Site) : Prop
  | underway {build : Build} (hbuild : site.progress? who = some (.building (.resolve key) build))
      (hstamp : build.stamp? = some stamp)
  | returned {early : Site} {rows : List Row} (hmem : (early, .step who) ∈ past)
      (hscans : early.Scans who (.resolve key) stamp rows)
      (hended : site.progress? who =
        some (.finished (.ok (.connections (early.found stamp rows key)))))
  | failed {early : Site} {e : Error} (hmem : (early, .step who) ∈ past)
      (hfails : early.Fails who (.resolve key))
      (hended : site.progress? who = some (.finished (.error e)))
  | closed {early : Site} (hmem : (early, .step who) ∈ past)
      (hclosed : early.registry.cache.closed = true)
      (hended : site.progress? who = some (.finished (.error .closed)))

section
variable {store : Store} {config : Config} {dialer : Dialer} {faults : Faults} {moves : List Move}
  (hrun : (start store config dialer faults).run moves = some site)
include hrun

/-- What an activity dials was found by a scan of its own. -/
theorem own_scan_of_run {errand : Errand} {stamp : Stamp} {reading : Reading}
    {keys : List EndpointKey} {due : Nat}
    (hdialing : site.progress? who = some (.building errand (.dialing stamp reading keys due))) :
    ∃ early rows, (early, .step who) ∈ (start store config dialer faults).history moves ∧
      early.Scans who errand stamp rows ∧ reading = early.reading stamp ∧
      keys = errand.instances (EndpointKey.ofRows early.registry.config.root rows) := by
  refine history_induction (P := fun past there => ∀ reading keys due,
    there.progress? who = some (.building errand (.dialing stamp reading keys due)) →
      ∃ early rows, (early, .step who) ∈ past ∧ early.Scans who errand stamp rows ∧
        reading = early.reading stamp ∧
        keys = errand.instances (EndpointKey.ofRows early.registry.config.root rows)) ?_ ?_ hrun
    reading keys due hdialing
  · intro reading keys due hbuild
    cases (progress?_start hbuild).2
  · intro before there move next hthere hfound hmove reading keys due hbuild
    rcases (moved_of_after hmove).dialing_cases hbuild with hbefore | ⟨rfl, rows, hscan⟩
    · obtain ⟨early, rows, hmem, hscan⟩ := hfound reading keys due hbefore
      exact ⟨early, rows, List.mem_append_left _ hmem, hscan⟩
    · exact ⟨there, rows, by simp, hscan⟩

/-- The reading goes on, or its caller is told what came of it. -/
theorem Overtaken.step {key : ServiceKey} {stamp : Stamp} {build : Build}
    (hbuild : site.progress? who = some (.building (.resolve key) build))
    (hstamp : build.stamp? = some stamp) (hpassed : stamp.generation < site.registry.cache.generation) :
    Overtaken ((start store config dialer faults).history (moves ++ [.step who])) who key stamp
        (site.step who) ∧
      (site.step who).registry.cache = site.registry.cache := by
  have harranged := arranged_of_run hrun
  have hactivity := harranged.backed.activity_of_progress? hbuild rfl
  have hlast : (site, .step who) ∈
      (start store config dialer faults).history (moves ++ [.step who]) :=
    mem_history_of_run hrun (.step who) []
  cases build with
  | queued | stamping => cases hstamp
  | scanning taken flight =>
    cases hstamp
    rcases hreceive : site.receive flight with ⟨e | rows, mid⟩
    · have hfails : site.Fails who (.resolve key) := ⟨stamp, flight, e, mid, hactivity, hreceive⟩
      obtain ⟨hcache, -, htold⟩ := hfails.step
      obtain ⟨e, hended⟩ := htold key rfl
      exact ⟨.failed hlast hfails hended, hcache⟩
    · obtain ⟨hcache, due, hdialing⟩ := Scans.step ⟨flight, mid, hactivity, hreceive⟩
      exact ⟨.underway hdialing rfl, hcache⟩
  | dialing taken reading keys due =>
    cases hstamp
    have hgeneration := harranged.orderly.dialing who _ stamp reading keys due hbuild
    obtain ⟨hcache, ⟨hclosed, hended⟩ | hended⟩ :=
      step_of_passed hactivity (by rw [hgeneration]; exact hpassed.ne)
    · exact ⟨.closed hlast hclosed hended, hcache⟩
    · obtain ⟨early, rows, hmem, hscans, rfl, rfl⟩ := own_scan_of_run hrun hbuild
      obtain ⟨-, next, hnext, hlater⟩ := precedes_of_mem_history hrun hmem
      refine ⟨.returned (history_subset hrun _ hmem) hscans ?_, hcache⟩
      rw [hended, ((precedes_of_after hnext).trans hlater).dialing_eq]
      rfl

theorem Overtaken.moved {key : ServiceKey} {stamp : Stamp}
    (h : Overtaken ((start store config dialer faults).history moves) who key stamp site)
    (hpassed : stamp.generation < site.registry.cache.generation)
    (hmove : site.after move = some after) :
    Overtaken ((start store config dialer faults).history (moves ++ [move])) who key stamp after ∧
      (move = .step who → after.registry.cache = site.registry.cache) := by
  have hsub := history_subset hrun [move]
  -- who has ended takes no step
  have hended : ∀ outcome, site.progress? who = some (.finished outcome) → move ≠ .step who := by
    rintro outcome hended rfl
    exact not_canStep_of_finished hended (of_after_step hmove).1
  cases h with
  | returned hmem hscans h =>
    exact ⟨.returned (hsub hmem) hscans (finished_of_after h hmove), fun hown => absurd hown (hended _ h)⟩
  | failed hmem hfails h =>
    exact ⟨.failed (hsub hmem) hfails (finished_of_after h hmove), fun hown => absurd hown (hended _ h)⟩
  | closed hmem hclosed h =>
    exact ⟨.closed (hsub hmem) hclosed (finished_of_after h hmove), fun hown => absurd hown (hended _ h)⟩
  | underway hbuild hstamp =>
    by_cases hown : move = .step who
    · subst hown
      obtain ⟨-, rfl⟩ := of_after_step hmove
      obtain ⟨hstep, hcache⟩ := Overtaken.step hrun hbuild hstamp hpassed
      exact ⟨hstep, fun _ => hcache⟩
    · exact ⟨.underway (progress?_of_other hmove hown hbuild) hstamp, fun h => absurd h hown⟩

/-- A reading that was overtaken stays so, and no step of its caller changes the cache. -/
theorem Overtaken.run {key : ServiceKey} {stamp : Stamp}
    (h : Overtaken ((start store config dialer faults).history moves) who key stamp site)
    (hpassed : stamp.generation < site.registry.cache.generation) {later : List Move} {final : Site}
    (hlater : site.run later = some final) :
    Overtaken ((start store config dialer faults).history (moves ++ later)) who key stamp final ∧
      ∀ there, (there, .step who) ∈ site.history later →
        (there.step who).registry.cache = there.registry.cache := by
  induction later generalizing moves site with
  | nil =>
    cases hlater
    rw [List.append_nil]
    exact ⟨h, fun there hmem => absurd hmem List.not_mem_nil⟩
  | cons move later ih =>
    obtain ⟨next, hnext, hrest⟩ := Option.bind_eq_some_iff.1 ((run_cons _ _ _).symm.trans hlater)
    obtain ⟨hmoved, hcache⟩ := h.moved hrun hpassed hnext
    have hthere : (start store config dialer faults).run (moves ++ [move]) = some next := by
      rw [run_append, hrun, Option.bind_some, run_cons, hnext]
      rfl
    obtain ⟨hlast, hquiet⟩ := ih hthere hmoved
      (hpassed.trans_le (precedes_of_after hnext).cache.generation_le) hrest
    rw [List.append_assoc] at hlast
    refine ⟨hlast, fun there hmem => ?_⟩
    rw [history_cons hnext] at hmem
    rcases List.mem_cons.1 hmem with he | hmem
    · cases he
      obtain ⟨-, rfl⟩ := of_after_step hnext
      exact hcache rfl
    · exact hquiet there hmem

end

end Site

/-- As long as no reading of a caller was put into the cache, the cache is to be filled, the watcher reads
nothing, and its steps ask the store for nothing and dial nothing, apart from the first, which asks for the
subscription. The first reading that is put in fills the cache. Whoever reads the store for a caller when the
watcher goes on with a batch is overtaken: no later step of the caller changes the cache, and at any later
time the caller is led to its end or has been handed what its scan has found, unless the store has failed it
or the cache was closed. -/
theorem watcher_idle_until_installed {store : Store} {config : Config} {dialer : Dialer} {faults : Faults}
    {moves : List Move} {final : Site}
    (hrun : (Site.start store config dialer faults).run moves = some final) :
    ((∀ entry ∈ (Site.start store config dialer faults).history moves,
        entry.1.installs entry.2 = false) →
      final.registry.cache.filled = none ∧
      (∀ errand build, final.progress? Registry.watcher ≠ some (.building errand build)) ∧
      (∀ there, (there, .step Registry.watcher) ∈ (Site.start store config dialer faults).history moves →
        (there.step Registry.watcher).client.log = there.client.log ∨
          there.progress? Registry.watcher = some .starting ∧
            (there.step Registry.watcher).client.log =
              .request (.watch config.directory) :: there.client.log) ∧
      ∀ move next, final.installs move = true → final.after move = some next →
        next.registry.cache.filled.isSome = true) ∧
    ∀ earlier later past changes concern who key build stamp,
      moves = earlier ++ .step Registry.watcher :: later →
      (Site.start store config dialer faults).run earlier = some past →
      past.registry.activities[Registry.watcher]? = some ⟨.discarding changes concern, false⟩ →
      past.progress? who = some (.building (.resolve key) build) → build.stamp? = some stamp →
        (∀ there, (there, .step who) ∈ (past.step Registry.watcher).history later →
          (there.step who).registry.cache = there.registry.cache) ∧
        Site.Overtaken ((Site.start store config dialer faults).history moves) who key stamp final ∧
        ((∃ build, final.progress? who = some (.building (.resolve key) build)) →
          Site.Ends Progress.isBuilding final who) := by
  constructor
  · intro hnone
    have hunclaimed := Site.unclaimed_of_run hrun hnone
    refine ⟨hunclaimed.filled, fun errand build hbuild => ?_, fun there hmem => ?_,
      fun move next hinstalls => Site.filled_of_installs hinstalls⟩
    · obtain ⟨key, rfl⟩ := Site.exists_resolve_of_changes? (hunclaimed.readers _ _ _ hbuild)
      obtain ⟨met, hmet, hbackground⟩ := (Site.arranged_of_run hrun).backed.watcher
      rw [hbuild] at hmet
      cases hmet
      cases hbackground
    · obtain ⟨before, after, rfl, hbefore⟩ := Site.split_of_mem_history hmem
      have hthere := Site.unclaimed_of_run hbefore fun entry hentry =>
        hnone entry (Site.history_subset hbefore _ hentry)
      rw [← show there.registry.config = config from (Site.precedes_of_run hbefore).config]
      exact hthere.log_step (Site.arranged_of_run hbefore).backed
  · rintro earlier later past changes concern who key build stamp rfl hearlier hactivity hbuild hstamp
    have harranged := Site.arranged_of_run hearlier
    have hfilled := harranged.orderly.resolving who key build hbuild (Build.isInside_of_stamp? hstamp)
    obtain ⟨hstep, hgeneration⟩ := Site.generation_of_discards hactivity hfilled
    have hpassed : stamp.generation < (past.step Registry.watcher).registry.cache.generation := by
      have hle := (harranged.orderly.stamped who _ build stamp hbuild hstamp).1
      omega
    have hother : Move.step Registry.watcher ≠ .step who := by
      rintro ⟨⟩
      rw [Site.progress?_of_activity hactivity] at hbuild
      cases hbuild
    have hbase : (Site.start store config dialer faults).run (earlier ++ [.step Registry.watcher]) =
        some (past.step Registry.watcher) := by
      rw [Site.run_append, hearlier, Option.bind_some, Site.run_cons, hstep]
      rfl
    have hlater : (past.step Registry.watcher).run later = some final := by
      rw [List.append_cons, Site.run_append, hbase] at hrun
      exact hrun
    obtain ⟨hovertaken, hquiet⟩ := Site.Overtaken.run hbase
      (.underway (Site.progress?_of_other hstep hother hbuild) hstamp) hpassed hlater
    rw [← List.append_cons] at hovertaken
    refine ⟨hquiet, hovertaken, ?_⟩
    rintro ⟨reach, hreach⟩
    exact (Site.arranged_of_run hrun).reader_ends hreach

/-- A caller reads the root, an instance appears, and the watcher takes the batch. -/
def beforeBatch : List Move :=
  [.step Registry.watcher, .step Registry.watcher, .call (.getConnections "chat"), .step 1, .step 1,
    .step 1, .step 1, .request (.put "svc/chat/10.0.0.1:9000" "" none), .step Registry.watcher]

/-- The caller is overtaken, and is handed the list that its scan has found. -/
theorem watcher_idle_overtaking :
    ∃ final listing,
      Site.sample.run (beforeBatch ++ .step Registry.watcher :: [.step 1, .step 1]) = some final ∧
        final.registry.cache.filled = none ∧ final.registry.cache.generation = 1 ∧
        final.progress? 1 = some (.finished (.ok (.connections listing))) ∧
        listing.connections.length = 1 ∧
        ∃ key stamp, Site.Overtaken (Site.sample.history
          (beforeBatch ++ .step Registry.watcher :: [.step 1, .step 1])) 1 key stamp final := by
  obtain ⟨final, hfinal⟩ : ∃ final,
      Site.sample.run (beforeBatch ++ .step Registry.watcher :: [.step 1, .step 1]) = some final :=
    Option.isSome_iff_exists.1 rfl
  obtain ⟨past, hpast⟩ : ∃ past, Site.sample.run beforeBatch = some past :=
    Option.isSome_iff_exists.1 rfl
  have hquiet : ((Site.sample.history
      (beforeBatch ++ .step Registry.watcher :: [.step 1, .step 1])).all
        fun entry => !entry.1.installs entry.2) = true := rfl
  have hdiscarding : (Site.sample.run beforeBatch).bind
      (fun site => site.registry.activities[Registry.watcher]?) =
        some ⟨.discarding (.live ⟨"svc/", 1⟩) (.services [⟨"svc", "chat", by decide, by decide⟩]), false⟩ :=
    rfl
  have hscanning : (Site.sample.run beforeBatch).bind (fun site => site.progress? 1) =
      some (.building (.resolve ⟨"svc", "chat", by decide, by decide⟩)
        (.scanning ⟨0, []⟩ ⟨.getPrefix "svc/", .plain, 0⟩)) := rfl
  have hgeneration : (Site.sample.run (beforeBatch ++ .step Registry.watcher :: [.step 1, .step 1])).map
      (fun site => site.registry.cache.generation) = some 1 := rfl
  have hlisting : (Site.sample.run (beforeBatch ++ .step Registry.watcher :: [.step 1, .step 1])).bind
      (fun site => site.progress? 1) = some (.finished (.ok (.connections
        ⟨⟨0, 0, 1, 0⟩, [⟨"10.0.0.1:9000", [⟨⟨"10.0.0.1:9000", "", none⟩, none, []⟩]⟩]⟩))) := rfl
  rw [hpast] at hdiscarding hscanning
  rw [hfinal] at hgeneration hlisting
  obtain ⟨hidle, hovertakes⟩ := watcher_idle_until_installed hfinal
  obtain ⟨-, hovertaken, -⟩ :=
    hovertakes beforeBatch _ past _ _ 1 _ _ _ rfl hpast hdiscarding hscanning rfl
  exact ⟨final, _, hfinal, (hidle fun entry hmem => by simpa using List.all_eq_true.1 hquiet entry hmem).1,
    Option.some.inj hgeneration, hlisting, rfl, _, _, hovertaken⟩

end ServiceRegistry
