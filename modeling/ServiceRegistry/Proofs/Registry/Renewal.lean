import ServiceRegistry.Proofs.Registry.Generation
import ServiceRegistry.Proofs.Registry.Passage

/-!
# What makes the root be read again

A caller reads the root only if it finds the cache to be filled behind the gate. The reading of an earlier
caller fills it, unless the store has failed that caller or a new generation has begun since its stamp:
by a call that renews the cache, or by a batch that the watcher has taken while the cache was to be
filled. `renews` names these moves, `Fate` says what each move does to the cache, and so one of them lies
between any two readings of the root that callers make.
-/
namespace ServiceRegistry

/-- From which reading the cache is filled after a reading for the errand was put in. -/
def Errand.fills (errand : Errand) (former : Option Reading) (reading : Reading) : Option Reading :=
  match errand with
  | .refresh _ _ _ => former
  | .resolve _ | .rebuild _ => some reading

theorem Errand.isSome_fills {errand : Errand} {former : Option Reading} (h : former.isSome = true)
    (reading : Reading) : (errand.fills former reading).isSome = true := by
  cases errand with
  | refresh => exact h
  | resolve | rebuild => rfl

namespace Site

/-- Whether a move begins a new generation: a call that renews the cache goes on, or the watcher does with
a batch and finds the cache to be filled. -/
def renews (site : Site) : Move → Bool
  | .step who =>
    match site.registry.activities[who]? with
    | some ⟨.calling call, false⟩ => call.renews
    | some ⟨.discarding _ _, false⟩ => site.registry.cache.filled.isNone
    | _ => false
  | _ => false

/-- What becomes of the cache in a move. -/
inductive Fate (site : Site) (move : Move) : Cache → Prop
  | kept : site.Fate move site.registry.cache
  | renewed {after : Cache} (hrenews : site.renews move = true)
      (hgeneration : site.registry.cache.generation < after.generation)
      (hclosed : after.closed = site.registry.cache.closed) : site.Fate move after
  | closed {after : Cache} (hclosed : after.closed = true) : site.Fate move after
  | placed {who : Nat} {errand : Errand} {stamp : Stamp} {reading : Reading} {keys : List EndpointKey}
      {due : Nat} {after : Cache} (hmove : move = .step who)
      (hactivity : site.registry.activities[who]? =
        some ⟨.building errand (.dialing stamp reading keys due), false⟩)
      (hopen : site.registry.cache.closed = false)
      (hplaced : site.Placed errand stamp reading keys after)
      (hfilled : after.filled = errand.fills site.registry.cache.filled reading) :
      site.Fate move after

theorem filled_of_install {site mid : Site} {errand : Errand} {stamp : Stamp} {reading : Reading}
    {keys : List EndpointKey} {listing : Listing}
    (h : site.install errand stamp reading keys = .ok (listing, mid))
    (hcurrent : reading.generation = site.registry.cache.generation) :
    mid.registry.cache.filled = errand.fills site.registry.cache.filled reading := by
  cases errand with
  | resolve key | rebuild changes =>
    obtain ⟨cache, hcache, he⟩ := of_map_ok h
    cases he
    obtain ⟨-, ⟨hpassed, -⟩ | ⟨-, rfl⟩⟩ := Cache.of_install hcache
    · exact absurd hcurrent hpassed
    · rfl
  | refresh key rest changes =>
    obtain ⟨cache, hcache, he⟩ := of_map_ok h
    cases he
    obtain ⟨-, ⟨hpassed, -⟩ | ⟨-, rfl⟩⟩ := Cache.of_replace hcache
    · exact absurd hcurrent hpassed
    · rfl

theorem fate_of_install {site mid : Site} {who : Nat} {errand : Errand} {stamp : Stamp}
    {reading : Reading} {keys : List EndpointKey} {due : Nat} {listing : Listing}
    (hactivity : site.registry.activities[who]? =
      some ⟨.building errand (.dialing stamp reading keys due), false⟩)
    (h : site.install errand stamp reading keys = .ok (listing, mid)) :
    site.Fate (.step who) mid.registry.cache := by
  have hopen := open_of_install h
  have hfilled := filled_of_install h
  obtain ⟨cache, rfl, -, -, ⟨-, rfl⟩ | hplaced⟩ := of_install h
  · exact .kept
  · exact .placed rfl hactivity hopen hplaced (hfilled hplaced.current)

theorem Fate.of_eq {site : Site} {move : Move} {cache : Cache} (h : cache = site.registry.cache) :
    site.Fate move cache :=
  h ▸ .kept

theorem Turn.fate {site mid : Site} {who : Nat} {activity : Activity} {next : Progress}
    (h : site.Turn who activity next mid) (hactivity : site.registry.activities[who]? = some activity) :
    site.Fate (.step who) mid.registry.cache := by
  cases h with
  | quiet hnext hlisting hcache hgate => exact .of_eq hcache
  | invalidate | addOptions =>
    exact .renewed (by simp [renews, hactivity, Call.renews]) (Nat.lt_succ_self _) rfl
  | close hcache hgate => exact .closed (hcache ▸ rfl)
  | advance hadvance => exact .of_eq (congrArg _ hadvance.registry)
  | fail hreceive => exact .of_eq (sameCache_receive hreceive).1
  | resolve hinstall | rebuild hinstall =>
    rw [cache_releaseGate]
    exact fate_of_install hactivity hinstall
  | refresh hinstall hgoes =>
    rw [hgoes.cache, cache_releaseGate]
    exact fate_of_install hactivity hinstall
  | start hsend => exact .of_eq (congrArg _ (registry_of_send hsend))
  | subscribe hreceive => exact .of_eq (congrArg _ (registry_of_receive hreceive))
  | discard hdiscard =>
    obtain ⟨hfilled, rfl⟩ := Cache.of_discardPending hdiscard
    exact .renewed (by simp [renews, hactivity, hfilled]) (Nat.lt_succ_self _) rfl
  | relay hfilled hgoes => exact .of_eq hgoes.cache
  | hit | miss | found | pass | take | relayAll => exact .kept

theorem Moved.fate {site after : Site} {move : Move} (h : site.Moved move after) :
    site.Fate move after.registry.cache := by
  cases h with
  | turn hactivity hready hturn hframe => exact hturn.fate hactivity
  | calm hmove hcache hgate hframe => exact .of_eq hcache

/-- A closed cache stays closed. -/
theorem Fate.closed_of_closed {site : Site} {move : Move} {cache : Cache} (h : site.Fate move cache)
    (hclosed : site.registry.cache.closed = true) : cache.closed = true := by
  cases h with
  | kept => exact hclosed
  | renewed hrenews hgeneration hsame => exact hsame.trans hclosed
  | closed hafter => exact hafter
  | placed hmove hactivity hopen =>
    rw [hclosed] at hopen
    cases hopen

/-! ## The steps of a caller who reads the root -/

/-- Who takes a stamp asks the store at once. -/
theorem Stamps.step {site : Site} {who : Nat} {errand : Errand} {stamp : Stamp}
    (h : site.Stamps who errand stamp) :
    site.after (.step who) = some (site.step who) ∧
      (site.step who).registry.cache = site.registry.cache ∧
      (site.step who).client.log =
        .request (.getPrefix (site.directoryOf errand)) :: site.client.log ∧
      ∃ flight, (site.step who).progress? who = some (.building errand (.scanning stamp flight)) := by
  obtain ⟨hactivity, hstamp⟩ := h
  have hready : site.canStep who = true := canStep_of_due hactivity rfl (Nat.zero_le _)
  have hstep : site.step who = (site.send (.getPrefix (site.directoryOf errand))).2.settle who
      (.building errand (.scanning stamp (site.send (.getPrefix (site.directoryOf errand))).1)) := by
    rw [step_of_activity hactivity]
    simp only [stepFrom, stepBuild, hstamp]
  rw [hstep]
  refine ⟨by rw [Site.after, if_pos hready, hstep], rfl, ?_, _,
    progress?_settle_self (site.frame_send _) _ (progress?_of_activity hactivity)⟩
  show (site.send (.getPrefix (site.directoryOf errand))).2.client.log = _
  exact log_of_send rfl

/-- Who has been answered with rows dials what it has found. -/
theorem Scans.step {site : Site} {who : Nat} {errand : Errand} {stamp : Stamp} {rows : List Row}
    (h : site.Scans who errand stamp rows) :
    (site.step who).registry.cache = site.registry.cache ∧
      ∃ due, (site.step who).progress? who = some (.building errand (.dialing stamp (site.reading stamp)
        (errand.instances (EndpointKey.ofRows site.registry.config.root rows)) due)) := by
  obtain ⟨flight, mid, hactivity, hreceive⟩ := h
  have hregistry := registry_of_receive hreceive
  obtain ⟨due, trail, hbuilt⟩ : ∃ due trail, site.stepFrom who (.building errand (.scanning stamp flight)) =
      (.building errand (.dialing stamp (site.reading stamp)
        (errand.instances (EndpointKey.ofRows site.registry.config.root rows)) due),
        mid.recordTrail trail) := by
    simp only [stepFrom, stepBuild, hreceive]
    rw [hregistry]
    exact ⟨_, _, rfl⟩
  refine ⟨?_, due, (progress?_step hactivity).trans
    (congrArg (fun result : Progress × Site => some result.1) hbuilt)⟩
  rw [step_of_activity hactivity, hbuilt]
  exact (congrArg Registry.cache hregistry :)

/-- What a caller has read in the present generation fills the cache. -/
theorem Orderly.fills {site : Site} (h : site.Orderly) {who : Nat} {key : ServiceKey} {stamp : Stamp}
    {reading : Reading} {keys : List EndpointKey} {due : Nat}
    (hactivity : site.registry.activities[who]? =
      some ⟨.building (.resolve key) (.dialing stamp reading keys due), false⟩)
    (hcurrent : stamp.generation = site.registry.cache.generation) :
    (site.step who).registry.cache.generation = site.registry.cache.generation ∧
      (site.step who).registry.cache.filled = some reading := by
  have hdialing := progress?_of_activity hactivity
  have hopen := (h.stamped who _ _ stamp hdialing rfl).2.1 hcurrent
  rw [step_resolve hactivity hopen ((h.dialing who _ stamp reading keys due hdialing).trans hcurrent)]
  exact ⟨rfl, rfl⟩

/-- A reader with a stamp of the present generation is failed by the store, or turned away by a closed
cache, or goes on with the same stamp, or fills the cache. -/
theorem reader_steps {site : Site} (horderly : site.Orderly) {who : Nat} {key : ServiceKey}
    {build : Build} {stamp : Stamp}
    (hactivity : site.registry.activities[who]? = some ⟨.building (.resolve key) build, false⟩)
    (hstamp : build.stamp? = some stamp)
    (hcurrent : stamp.generation = site.registry.cache.generation) :
    site.Fails who (.resolve key) ∨
      (site.step who).registry.cache.generation = site.registry.cache.generation ∧
        ((site.step who).registry.cache.filled.isSome = true ∨
          ∃ later, (site.step who).progress? who = some (.building (.resolve key) later) ∧
            later.stamp? = some stamp) := by
  cases build with
  | queued | stamping => cases hstamp
  | scanning taken flight =>
    cases hstamp
    rcases hreceive : site.receive flight with ⟨e | rows, mid⟩
    · exact .inl ⟨stamp, flight, e, mid, hactivity, hreceive⟩
    · obtain ⟨hcache, due, hnext⟩ := Scans.step ⟨flight, mid, hactivity, hreceive⟩
      exact .inr ⟨congrArg Cache.generation hcache, .inr ⟨_, hnext, rfl⟩⟩
  | dialing taken reading keys due =>
    cases hstamp
    obtain ⟨hsame, hfilled⟩ := horderly.fills hactivity hcurrent
    exact .inr ⟨hsame, .inl (hfilled ▸ rfl)⟩

/-! ## Between two readings -/

/-- What has become of the reading of a caller since it took its stamp: the store has failed it, or its
generation has passed, or the cache is closed, or it has filled the cache or is under way. -/
inductive Aftermath (first : Nat) (key : ServiceKey) (stamp : Stamp) (past : List (Site × Move))
    (site : Site) : Prop
  | failed (h : ∃ early, (early, .step first) ∈ past ∧ early.Fails first (.resolve key))
  | renewed (hgeneration : stamp.generation < site.registry.cache.generation)
      (h : ∃ entry ∈ past, entry.1.renews entry.2 = true)
  | closed (h : site.registry.cache.closed = true)
  | filled (hgeneration : stamp.generation = site.registry.cache.generation)
      (h : site.registry.cache.filled.isSome = true)
  | underway (hgeneration : stamp.generation = site.registry.cache.generation) {build : Build}
      (h : site.progress? first = some (.building (.resolve key) build))
      (hstamp : build.stamp? = some stamp)

theorem Aftermath.moved {first : Nat} {key : ServiceKey} {stamp : Stamp} {past : List (Site × Move)}
    {site after : Site} {move : Move} (h : Aftermath first key stamp past site)
    (harranged : site.Arranged) (hmove : site.after move = some after) :
    Aftermath first key stamp (past ++ [(site, move)]) after := by
  have hfate := (moved_of_after hmove).fate
  have hlast : (site, move) ∈ past ++ [(site, move)] := by simp
  generalize hcache : after.registry.cache = cache at hfate
  cases h with
  | failed h =>
    obtain ⟨early, hmem, hfails⟩ := h
    exact .failed ⟨early, List.mem_append_left _ hmem, hfails⟩
  | renewed hgeneration h =>
    obtain ⟨entry, hmem, hrenews⟩ := h
    exact .renewed (hgeneration.trans_le (precedes_of_after hmove).cache.generation_le)
      ⟨entry, List.mem_append_left _ hmem, hrenews⟩
  | closed h => exact .closed (hcache ▸ hfate.closed_of_closed h)
  | filled hgeneration h =>
    cases hfate with
    | kept => exact .filled (hcache ▸ hgeneration) (hcache ▸ h)
    | renewed hrenews hlt => exact .renewed (hcache ▸ hgeneration ▸ hlt) ⟨_, hlast, hrenews⟩
    | closed hclosed => exact .closed (hcache ▸ hclosed)
    | placed hstep hactivity hopen hplaced hfilled =>
      refine .filled (hgeneration.trans (hcache ▸ hplaced.generation_eq.symm)) ?_
      rw [hcache, hfilled]
      exact Errand.isSome_fills h _
  | underway hgeneration h hstamp =>
    by_cases hown : move = .step first
    · subst hown
      obtain ⟨-, rfl⟩ := of_after_step hmove
      have hactivity := harranged.backed.activity_of_progress? h rfl
      rcases reader_steps harranged.orderly hactivity hstamp hgeneration with
        hfails | ⟨hsame, hfilled | ⟨later, hlater, hkeeps⟩⟩
      · exact .failed ⟨site, hlast, hfails⟩
      · exact .filled (hgeneration.trans hsame.symm) hfilled
      · exact .underway (hgeneration.trans hsame.symm) hlater hkeeps
    · cases hfate with
      | kept => exact .underway (hcache ▸ hgeneration) (progress?_of_other hmove hown h) hstamp
      | renewed hrenews hlt => exact .renewed (hcache ▸ hgeneration ▸ hlt) ⟨_, hlast, hrenews⟩
      | closed hclosed => exact .closed (hcache ▸ hclosed)
      | placed hstep hactivity =>
        -- two would be behind the gate
        obtain ⟨rfl, -, -⟩ := harranged.orderly.unique h (Build.isInside_of_stamp? hstamp)
          (progress?_of_activity hactivity) rfl
        exact absurd hstep hown

/-- If a caller reads the root after another one has taken its stamp, the store has failed the earlier one
or a new generation has begun in between. -/
theorem renewed_between {first second : Nat} {key other : ServiceKey} {stamp taken : Stamp}
    {site later : Site} {between : List Move} (harranged : site.Arranged)
    (hstamps : site.Stamps first (.resolve key) stamp)
    (hrun : (site.step first).run between = some later)
    (hlater : later.Stamps second (.resolve other) taken) :
    (∃ early, (early, .step first) ∈ (site.step first).history between ∧
        early.Fails first (.resolve key)) ∨
      stamp.generation < taken.generation ∧
        ∃ entry ∈ (site.step first).history between, entry.1.renews entry.2 = true := by
  obtain ⟨hafter, hcache, -, flight, hscanning⟩ := hstamps.step
  have hgeneration : stamp.generation = (site.step first).registry.cache.generation := by
    rw [hcache, (Cache.of_stamp hstamps.2).2]
  obtain ⟨hopen, rfl⟩ := Cache.of_stamp hlater.2
  obtain ⟨haftermath, hlast⟩ := history_induction
    (P := fun past there => Aftermath first key stamp past there ∧ there.Arranged)
    ⟨.underway hgeneration hscanning rfl, harranged.moved hafter⟩
    (fun before there move after _ ⟨hthere, hkept⟩ hmove =>
      ⟨hthere.moved hkept hmove, hkept.moved hmove⟩) hrun
  have hstamping := progress?_of_activity hlater.1
  have hunfilled := hlast.orderly.resolving second other _ hstamping rfl
  cases haftermath with
  | failed h => exact .inl h
  | renewed hgeneration h => exact .inr ⟨hgeneration, h⟩
  | closed h =>
    rw [hopen] at h
    cases h
  | filled hgeneration h =>
    rw [hunfilled] at h
    cases h
  | underway hgeneration h hkeeps =>
    obtain ⟨-, -, rfl⟩ := hlast.orderly.unique h (Build.isInside_of_stamp? hkeeps) hstamping rfl
    cases hkeeps

/-! ## A reading that fails -/

/-- Who is failed by the store leaves the gate, and the cache is as it was. A caller is told of the
error. -/
theorem Fails.step {site : Site} {who : Nat} {errand : Errand} (h : site.Fails who errand) :
    (site.step who).registry.cache = site.registry.cache ∧
      (site.step who).registry.gate = site.registry.gate.release ∧
      ∀ key, errand = .resolve key →
        ∃ e, (site.step who).progress? who = some (.finished (.error e)) := by
  obtain ⟨stamp, flight, e, mid, hactivity, hreceive⟩ := h
  have hregistry := registry_of_receive hreceive
  have hbuilt : site.stepFrom who (.building errand (.scanning stamp flight)) =
      mid.conclude who errand (.error e) := by
    simp only [stepFrom, stepBuild, hreceive]
  obtain ⟨hafter, -, htold⟩ := mid.conclude_error who errand e
  rw [step_of_activity hactivity, hbuilt, hafter]
  refine ⟨(congrArg Registry.cache hregistry :),
    (congrArg (fun registry => registry.gate.release) hregistry :), ?_⟩
  intro key hkey
  have hown : mid.progress? who = some (.building errand (.scanning stamp flight)) := by
    rw [progress?, hregistry]
    exact progress?_of_activity hactivity
  rw [htold key hkey]
  exact ⟨e, progress?_settle_self mid.frame_releaseGate _ hown⟩

/-- A caller at the head of the line that finds the cache to be filled goes through the gate and asks for
the root itself. -/
theorem Arranged.reads_at_head {site : Site} (h : site.Arranged) {who : Nat} {key : ServiceKey}
    (hprogress : site.progress? who = some (.building (.resolve key) .queued))
    (hholder : site.registry.gate.holder? = some who) (hopen : site.registry.cache.closed = false)
    (hfilled : site.registry.cache.filled = none) :
    ∃ mid stamp, site.run [.step who] = some mid ∧ mid.canStep who = true ∧
      mid.Stamps who (.resolve key) stamp := by
  have hactivity := h.backed.activity_of_progress? hprogress rfl
  have hrun := run_step (canStep_of_due hactivity (if_pos hholder) (Nat.zero_le _))
  have hlookup : site.registry.cache.lookup key = .ok none := by simp [Cache.lookup, hopen, hfilled]
  have hstep : site.step who = site.settle who (.building (.resolve key) .stamping) := by
    rw [step_of_activity hactivity]
    simp only [stepFrom, stepBuild, hlookup]
  have hthere := (h.run hrun).backed.activity_of_progress?
    (hstep ▸ progress?_settle_self (.refl site) (.building (.resolve key) .stamping) hprogress) rfl
  refine ⟨_, ⟨site.registry.cache.generation, site.registry.cache.options⟩, hrun,
    canStep_of_due hthere rfl (Nat.zero_le _), hthere, ?_⟩
  rw [hstep, cache_settle, Cache.stamp, if_neg (by simp [hopen])]

/-- After a failed reading the next caller in the line reads the root itself, if the cache is to be
filled. -/
theorem Arranged.next_reads {site : Site} (h : site.Arranged) {who next : Nat} {rest : List Nat}
    {errand : Errand} {key : ServiceKey} (hready : site.canStep who = true) (hfails : site.Fails who errand)
    (hline : site.registry.gate.line = who :: next :: rest)
    (hnext : site.progress? next = some (.building (.resolve key) .queued))
    (hopen : site.registry.cache.closed = false) (hfilled : site.registry.cache.filled = none) :
    ∃ mid stamp, (site.step who).run [.step next] = some mid ∧ mid.canStep next = true ∧
      mid.Stamps next (.resolve key) stamp := by
  obtain ⟨hcache, hgate, -⟩ := hfails.step
  have hafter : site.after (.step who) = some (site.step who) := if_pos hready
  have hne : Move.step who ≠ .step next := by
    have hnodup := h.queues.nodup
    rw [hline, List.nodup_cons] at hnodup
    rintro he
    exact hnodup.1 (Move.step.inj he ▸ List.mem_cons_self)
  refine (h.moved hafter).reads_at_head (progress?_of_other hafter hne hnext) ?_ (hcache ▸ hopen)
    (hcache ▸ hfilled)
  rw [hgate, Lock.holder?_eq_head?, Lock.line_release, hline]
  rfl

end Site

end ServiceRegistry
