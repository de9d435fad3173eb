import ServiceRegistry.Proofs.Registry.Idleness

/-!
# Readings that go astray

The watcher looks once for each batch whether the cache is filled, and reads the store for the services of the
batch one after the other. A renewal of the cache that falls between the look and the stamp of such a reading
does not stop the reading: its stamp is one of the new generation, so what it has found is put into a cache
that nobody has asked to be filled. `strays` is this move, and `Strayed` says that one was made and nothing
was dropped since. It is the only way by which a cache that is to be filled can hold anything, and
`CutInBatch` says how it comes about.
-/
namespace ServiceRegistry

/-- Whether the watcher is in the middle of a batch: it has seen the cache filled, and will take a stamp for
what is left of the batch. -/
def Progress.isMidBatch : Progress → Bool
  | .building (.refresh _ rest _) build => build.stamp?.isNone || !rest.isEmpty
  | .building (.rebuild _) build => build.stamp?.isNone
  | _ => false

/-- Whether a step from here can change what the cache holds. -/
def Progress.isHandling : Progress → Bool
  | .calling call => call.renews
  | .sealing | .building _ (.dialing _ _ _ _) => true
  | _ => false

namespace Site

variable {site mid after : Site} {move : Move} {who : Nat}

/-- Whether all entries of the cache are dropped in a move. -/
def empties (site : Site) : Move → Bool
  | .step who =>
    match site.registry.activities[who]? with
    | some ⟨.calling call, false⟩ => call.renews
    | some ⟨.sealing, false⟩ => true
    | _ => false
  | _ => false

/-- Whether a reading of the watcher is put into a cache that is to be filled in a move. -/
def strays (site : Site) : Move → Bool
  | .step who =>
    match site.registry.activities[who]? with
    | some ⟨.building errand (.dialing _ reading _ _), false⟩ =>
      errand.changes?.isSome && site.registry.cache.filled.isNone && !site.registry.cache.closed &&
        decide (reading.generation = site.registry.cache.generation)
    | _ => false
  | _ => false

/-- The entries are dropped by a call that renews the cache, or by one that closes the registry. -/
theorem of_empties (h : site.empties move = true) :
    ∃ who progress, move = .step who ∧ site.registry.activities[who]? = some ⟨progress, false⟩ ∧
      (progress = .sealing ∨ ∃ call, progress = .calling call ∧ call.renews = true) := by
  cases move with
  | step who =>
    simp only [empties] at h
    split at h
    · rename_i call hactivity
      exact ⟨who, _, rfl, hactivity, .inr ⟨call, rfl, h⟩⟩
    · rename_i hactivity
      exact ⟨who, _, rfl, hactivity, .inl rfl⟩
    · cases h
  | _ => cases h

theorem of_strays (h : site.strays move = true) :
    ∃ who errand stamp reading keys due, move = .step who ∧
      site.registry.activities[who]? =
        some ⟨.building errand (.dialing stamp reading keys due), false⟩ ∧
      errand.changes?.isSome = true ∧ site.registry.cache.filled = none ∧
      reading.generation = site.registry.cache.generation := by
  cases move with
  | step who =>
    simp only [strays] at h
    split at h
    · rename_i errand stamp reading keys due hactivity
      simp only [Bool.and_eq_true, Option.isNone_iff_eq_none, decide_eq_true_eq] at h
      exact ⟨who, errand, stamp, reading, keys, due, rfl, hactivity, h.1.1.1, h.1.1.2, h.2⟩
    · cases h
  | _ => cases h

/-! ## What a move does to what the cache holds -/

/-- What becomes of the entries of the cache in a move, and of its being filled. -/
inductive Handles (site : Site) (move : Move) (after : Cache) : Prop
  | keeps (hempties : site.empties move = false) (hstrays : site.strays move = false)
      (hfilled : after.filled = site.registry.cache.filled)
      (hentries : after.entries = site.registry.cache.entries)
  | drops (hempties : site.empties move = true) (hstrays : site.strays move = false)
      (hfilled : after.filled = none) (hentries : after.entries = [])
      (hgeneration : after.generation = site.registry.cache.generation + 1)
  /-- The reading of a caller fills the cache. -/
  | fills (hempties : site.empties move = false) (hstrays : site.strays move = false)
      (hinstalls : site.installs move = true) (hfilled : after.filled.isSome = true)
  /-- The watcher keeps a cache current that is filled. -/
  | renews (hempties : site.empties move = false) (hstrays : site.strays move = false)
      (hbefore : site.registry.cache.filled.isSome = true) (hfilled : after.filled.isSome = true)
  | astray (hempties : site.empties move = false) (hstrays : site.strays move = true)
      (hholds : after.filled = none → after.entries ≠ [])

theorem of_not_handling {progress : Progress}
    (hactivity : site.registry.activities[who]? = some ⟨progress, false⟩)
    (h : progress.isHandling = false) :
    site.empties (.step who) = false ∧ site.strays (.step who) = false := by
  cases progress with
  | calling call => exact ⟨by simp only [empties, hactivity]; exact h, by simp only [strays, hactivity]⟩
  | sealing => cases h
  | building errand build =>
    cases build with
    | dialing => cases h
    | _ => exact ⟨by simp only [empties, hactivity], by simp only [strays, hactivity]⟩
  | _ => exact ⟨by simp only [empties, hactivity], by simp only [strays, hactivity]⟩

theorem Turn.keeps {progress next : Progress} (h : site.Turn who ⟨progress, false⟩ next mid)
    (hprogress : progress.isHandling = false) :
    mid.registry.cache.filled = site.registry.cache.filled ∧
      mid.registry.cache.entries = site.registry.cache.entries := by
  have of_eq : mid.registry.cache = site.registry.cache →
      mid.registry.cache.filled = site.registry.cache.filled ∧
        mid.registry.cache.entries = site.registry.cache.entries := fun h => by rw [h]; exact ⟨rfl, rfl⟩
  cases h with
  | quiet hnext hlisting hcache => exact of_eq hcache
  | invalidate | addOptions | close | resolve | refresh | rebuild => cases hprogress
  | advance hadvance => exact of_eq (congrArg _ hadvance.registry)
  | @fail errand stamp flight e mid changes hreceive =>
    have hcache : mid.registry.cache = site.registry.cache := by rw [registry_of_receive hreceive]
    exact of_eq hcache
  | start hsend => exact of_eq (congrArg _ (registry_of_send hsend))
  | subscribe hreceive => exact of_eq (congrArg _ (registry_of_receive hreceive))
  | discard hdiscard =>
    obtain ⟨-, rfl⟩ := Cache.of_discardPending hdiscard
    exact ⟨rfl, rfl⟩
  | relay hfilled hnext => exact of_eq hnext.cache
  | hit | miss | found | pass | take | relayAll => exact ⟨rfl, rfl⟩

section
variable {errand : Errand} {stamp : Stamp} {reading : Reading} {keys : List EndpointKey}

/-- A reading of the present generation fills the cache, or it is one of the watcher and puts in an entry next
to which it leaves the cache as filled as it was. -/
theorem held_of_install {listing : Listing}
    (h : site.install errand stamp reading keys = .ok (listing, mid)) :
    reading.generation ≠ site.registry.cache.generation ∧ mid.registry.cache = site.registry.cache ∨
      reading.generation = site.registry.cache.generation ∧
        (mid.registry.cache.filled.isSome = true ∨
          errand.changes?.isSome = true ∧
            mid.registry.cache.filled = site.registry.cache.filled ∧
            mid.registry.cache.entries ≠ []) := by
  cases errand with
  | resolve key | rebuild changes =>
    obtain ⟨cache, hcache, he⟩ := of_map_ok h
    cases he
    obtain ⟨-, ⟨hpassed, rfl⟩ | ⟨hcurrent, rfl⟩⟩ := Cache.of_install hcache
    · exact .inl ⟨hpassed, rfl⟩
    · exact .inr ⟨hcurrent, .inl rfl⟩
  | refresh key rest changes =>
    obtain ⟨cache, hcache, he⟩ := of_map_ok h
    cases he
    obtain ⟨-, ⟨hpassed, rfl⟩ | ⟨hcurrent, rfl⟩⟩ := Cache.of_replace hcache
    · exact .inl ⟨hpassed, rfl⟩
    · exact .inr ⟨hcurrent, .inr ⟨rfl, rfl, List.cons_ne_nil _ _⟩⟩

theorem handles_dialing {due : Nat} (hactivity : site.registry.activities[who]? =
      some ⟨.building errand (.dialing stamp reading keys due), false⟩) :
    site.Handles (.step who) (site.step who).registry.cache := by
  have hempties : site.empties (.step who) = false := by simp only [empties, hactivity]
  have hstrays : site.strays (.step who) = (errand.changes?.isSome && site.registry.cache.filled.isNone &&
      !site.registry.cache.closed && decide (reading.generation = site.registry.cache.generation)) := by
    simp only [strays, hactivity]
  rw [step_of_activity hactivity, cache_settle]
  simp only [stepFrom, stepBuild]
  split
  · rename_i hinstall
    have hopen := open_of_install hinstall
    rw [cache_conclude]
    obtain ⟨hpassed, hcache⟩ | ⟨hcurrent, hheld⟩ := held_of_install hinstall
    · rw [hcache]
      exact .keeps hempties (by rw [hstrays]; simp [hpassed]) rfl rfl
    · cases hchanges : errand.changes? with
      | none =>
        obtain ⟨key, rfl⟩ := exists_resolve_of_changes? hchanges
        refine .fills hempties (by rw [hstrays, hchanges]; rfl)
          (installs_iff.2 ⟨who, key, stamp, reading, keys, due, rfl, hactivity, hopen, hcurrent⟩) ?_
        rcases hheld with hfilled | ⟨hwatcher, -⟩
        · exact hfilled
        · cases hwatcher
      | some changes =>
        cases hfilled : site.registry.cache.filled with
        | none =>
          refine .astray hempties (by rw [hstrays]; simp [hchanges, hfilled, hopen, hcurrent]) ?_
          rcases hheld with hsome | ⟨-, -, hentries⟩
          · intro hnone
            rw [hnone] at hsome
            cases hsome
          · exact fun _ => hentries
        | some other =>
          refine .renews hempties (by rw [hstrays]; simp [hfilled]) (by rw [hfilled]; rfl) ?_
          rcases hheld with hsome | ⟨-, hsame, -⟩
          · exact hsome
          · rw [hsame, hfilled]
            rfl
  · rename_i hinstall
    rw [cache_conclude]
    exact .keeps hempties (by rw [hstrays, closed_of_install_error hinstall]; simp) rfl rfl

end

theorem dropped_of_renews {call : Call}
    (hactivity : site.registry.activities[who]? = some ⟨.calling call, false⟩)
    (hrenews : call.renews = true) : (site.step who).registry.cache.filled = none ∧
      (site.step who).registry.cache.entries = [] := by
  cases call with
  | addOptions options =>
    rw [step_addOptions hactivity]
    exact ⟨rfl, rfl⟩
  | invalidate =>
    rw [step_invalidate hactivity]
    exact ⟨rfl, rfl⟩
  | _ => cases hrenews

theorem handles_stepFrom {progress : Progress}
    (hactivity : site.registry.activities[who]? = some ⟨progress, false⟩)
    (hgoing : ∀ outcome, progress ≠ .finished outcome) :
    site.Handles (.step who) (site.step who).registry.cache := by
  cases hhandling : progress.isHandling with
  | false =>
    obtain ⟨hempties, hstrays⟩ := of_not_handling hactivity hhandling
    obtain ⟨hfilled, hentries⟩ := (site.turn_of_stepFrom who hgoing).keeps hhandling
    rw [step_of_activity hactivity, cache_settle]
    exact .keeps hempties hstrays hfilled hentries
  | true =>
    cases progress with
    | building errand build =>
      cases build with
      | dialing => exact handles_dialing hactivity
      | _ => cases hhandling
    | sealing =>
      rw [step_of_activity hactivity, cache_settle]
      exact .drops (by simp only [empties, hactivity]) (by simp only [strays, hactivity]) rfl rfl rfl
    | calling call =>
      obtain ⟨hfilled, hentries⟩ := dropped_of_renews hactivity hhandling
      exact .drops (by simp only [empties, hactivity]; exact hhandling)
        (by simp only [strays, hactivity]) hfilled hentries (step_of_renews hactivity hhandling).1
    | _ => cases hhandling

/-- Every move is one of these. -/
theorem handles_of_after (hmove : site.after move = some after) :
    site.Handles move after.registry.cache := by
  have hmoved := moved_of_after hmove
  cases move with
  | step who =>
    obtain ⟨hready, rfl⟩ := of_after_step hmove
    obtain ⟨⟨progress, asked⟩, hactivity, hgoing⟩ := of_canStep hready
    cases asked with
    | true =>
      rw [step_of_dropped hready hactivity]
      exact .keeps (by simp [empties, hactivity]) (by simp [strays, hactivity]) rfl rfl
    | false =>
      refine handles_stepFrom hactivity ?_
      rintro outcome rfl
      rcases hgoing with hdropped | ⟨-, time, hdue, -⟩
      · cases hdropped
      · cases hdue
  | call | request | outage | closeStore | wait =>
    cases hmoved with
    | calm _ hcache => exact .keeps rfl rfl (congrArg _ hcache) (congrArg _ hcache)

end Site

/-! ## Readings that have strayed in -/

/-- A reading of the watcher was put into a cache that was to be filled, and nothing was dropped since. -/
def Strayed (past : List (Site × Move)) : Prop :=
  ∃ before entry later, past = before ++ entry :: later ∧ entry.1.strays entry.2 = true ∧
    ∀ other ∈ later, other.1.empties other.2 = false

theorem not_strayed_nil : ¬ Strayed [] := by
  rintro ⟨before, entry, later, hpast, -⟩
  simp at hpast

theorem strayed_concat {past : List (Site × Move)} {entry : Site × Move} : Strayed (past ++ [entry]) ↔
    entry.1.strays entry.2 = true ∨ Strayed past ∧ entry.1.empties entry.2 = false := by
  constructor
  · rintro ⟨before, first, later, hpast, hstrays, hkept⟩
    rcases List.eq_nil_or_concat later with rfl | ⟨later, last, rfl⟩
    · cases (List.append_inj' hpast rfl).2
      exact .inl hstrays
    · rw [List.concat_eq_append, ← List.cons_append, ← List.append_assoc] at hpast
      obtain ⟨rfl, hlast⟩ := List.append_inj' hpast rfl
      cases hlast
      rw [List.concat_eq_append] at hkept
      exact .inr ⟨⟨before, first, later, rfl, hstrays, fun other hmem =>
        hkept other (List.mem_append_left _ hmem)⟩, hkept entry List.mem_concat_self⟩
  · rintro (hstrays | ⟨⟨before, first, later, rfl, hstrays, hkept⟩, hempties⟩)
    · exact ⟨past, entry, [], rfl, hstrays, fun other hmem => absurd hmem List.not_mem_nil⟩
    · refine ⟨before, first, later ++ [entry], by simp, hstrays, fun other hmem => ?_⟩
      rcases List.mem_append.1 hmem with hlater | hlast
      · exact hkept other hlater
      · exact List.mem_singleton.1 hlast ▸ hempties

namespace Site

variable {store : Store} {config : Config} {dialer : Dialer} {faults : Faults} {moves : List Move}
  {site final : Site}

/-- A cache that was empty and is to be filled holds what has strayed in, and nothing else. -/
theorem entries_eq_nil_iff (hentries : site.registry.cache.entries = [])
    (hrun : site.run moves = some final) (hfilled : final.registry.cache.filled = none) :
    final.registry.cache.entries = [] ↔ ¬ Strayed (site.history moves) := by
  refine history_induction (P := fun past there => there.registry.cache.filled = none →
    (there.registry.cache.entries = [] ↔ ¬ Strayed past)) ?_ ?_ hrun hfilled
  · exact fun _ => iff_of_true hentries not_strayed_nil
  · intro before there move next _ hthere hmove hnone
    rw [strayed_concat]
    cases handles_of_after hmove with
    | keeps hempties hstrays hsame hkept =>
      rw [hkept, hthere (hsame ▸ hnone)]
      simp [hempties, hstrays]
    | drops hempties hstrays _ hdropped => simp [hempties, hstrays, hdropped]
    | fills _ _ _ hsome | renews _ _ _ hsome =>
      rw [hnone] at hsome
      cases hsome
    | astray _ hstrays hholds => simp [hstrays, hholds hnone]

/-- Unless something strays in, a cache that is to be filled stays so until a caller fills it. -/
theorem filled_eq_none (hfilled : site.registry.cache.filled = none) (hrun : site.run moves = some final)
    (hquiet : ∀ entry ∈ site.history moves, entry.1.installs entry.2 = false)
    (hstrayed : ¬ Strayed (site.history moves)) : final.registry.cache.filled = none := by
  refine history_induction (P := fun past there =>
    (∀ entry ∈ past, entry.1.installs entry.2 = false) → ¬ Strayed past →
      there.registry.cache.filled = none) (fun _ _ => hfilled) ?_ hrun hquiet hstrayed
  intro before there move next _ hthere hmove hnone hnot
  rw [strayed_concat, not_or] at hnot
  have hbefore : there.empties move = false → there.registry.cache.filled = none := fun hkept =>
    hthere (fun entry hmem => hnone entry (List.mem_append_left _ hmem)) fun h => hnot.2 ⟨h, hkept⟩
  cases handles_of_after hmove with
  | keeps hempties _ hsame => exact hsame.trans (hbefore hempties)
  | drops _ _ hdropped => exact hdropped
  | fills _ _ hinstalls =>
    rw [hnone (there, move) List.mem_concat_self] at hinstalls
    cases hinstalls
  | renews hempties _ hsome =>
    rw [hbefore hempties] at hsome
    cases hsome
  | astray _ hstrays => exact absurd hstrays hnot.1

/-- From when the entries are dropped until a caller fills the cache again, the cache stays as it is just if
nothing strays in. -/
theorem dropped_iff (hfilled : site.registry.cache.filled = none)
    (hentries : site.registry.cache.entries = []) (hrun : site.run moves = some final)
    (hquiet : ∀ entry ∈ site.history moves, entry.1.installs entry.2 = false) :
    final.registry.cache.filled = none ∧ final.registry.cache.entries = [] ↔
      ¬ Strayed (site.history moves) := by
  constructor
  · rintro ⟨hnone, hempty⟩
    exact (entries_eq_nil_iff hentries hrun hnone).1 hempty
  · intro hstrayed
    have hnone := filled_eq_none hfilled hrun hquiet hstrayed
    exact ⟨hnone, (entries_eq_nil_iff hentries hrun hnone).2 hstrayed⟩

/-! ## Where nothing can stray in -/

/-- No activity is in the middle of a batch. -/
def BetweenBatches (site : Site) : Prop :=
  ∀ who progress, site.progress? who = some progress → progress.isMidBatch = false

/-- The cache holds nothing, the watcher is not in the middle of a batch, and whatever it has read was stamped
in a generation that has passed. -/
structure Settled (site : Site) : Prop where
  filled : site.registry.cache.filled = none
  entries : site.registry.cache.entries = []
  idle : site.BetweenBatches
  passed : ∀ who errand build stamp, site.progress? who = some (.building errand build) →
    errand.changes?.isSome = true → build.stamp? = some stamp →
      stamp.generation < site.registry.cache.generation

theorem isMidBatch_of_isApart {progress : Progress} (h : progress.isApart = true) :
    progress.isMidBatch = false := by
  cases progress with
  | building => cases h
  | _ => rfl

theorem isMidBatch_of_isBeginning {progress : Progress} (h : progress.isBeginning = true) :
    progress.isMidBatch = false := by
  cases progress with
  | building => cases h
  | _ => rfl

/-- The watcher takes no stamp unless it is in the middle of a batch. -/
theorem Advances.stamp_eq {errand : Errand} {former build : Build} {stamp : Stamp}
    (h : site.Advances errand former build final) (hchanges : errand.changes?.isSome = true)
    (hidle : (Progress.building errand former).isMidBatch = false) (hstamp : build.stamp? = some stamp) :
    former.stamp? = some stamp := by
  cases h with
  | enter => cases hstamp
  | stamp =>
    cases errand with
    | resolve => cases hchanges
    | refresh | rebuild => cases hidle
  | scan => exact hstamp

theorem Advances.isMidBatch {errand : Errand} {former build : Build}
    (h : site.Advances errand former build final)
    (hidle : (Progress.building errand former).isMidBatch = false) :
    (Progress.building errand build).isMidBatch = false := by
  cases errand with
  | resolve => rfl
  | refresh key rest changes =>
    cases h with
    | enter | stamp => cases hidle
    | scan => exact hidle
  | rebuild changes =>
    cases h with
    | enter | stamp => cases hidle
    | scan => rfl

/-- A batch is begun at a filled cache only. -/
theorem Turn.isMidBatch {mid : Site} {who : Nat} {activity : Activity} {next : Progress}
    (h : site.Turn who activity next mid) (hidle : activity.progress.isMidBatch = false)
    (hfilled : site.registry.cache.filled = none) : next.isMidBatch = false := by
  cases h with
  | quiet hnext => exact isMidBatch_of_isApart hnext
  | advance hadvance => exact hadvance.isMidBatch hidle
  | @refresh key rest changes stamp reading keys due listing mid after next hinstall hnext =>
    cases hnext with
    | listen => rfl
    | refresh => cases hidle
  | relay hsome | relayAll hsome =>
    rw [hfilled] at hsome
    cases hsome
  | _ => rfl

theorem Settled.not_strays (h : site.Settled) (horderly : site.Orderly) (move : Move) :
    site.strays move = false := by
  by_contra hstrays
  obtain ⟨who, errand, stamp, reading, keys, due, -, hactivity, hchanges, -, hcurrent⟩ :=
    of_strays (by simpa using hstrays)
  have hdialing := progress?_of_activity hactivity
  have hpassed := h.passed who errand _ stamp hdialing hchanges rfl
  have hsame := horderly.dialing who errand stamp reading keys due hdialing
  omega

theorem Settled.moved (h : site.Settled) (horderly : site.Orderly) {move : Move} {after : Site}
    (hmove : site.after move = some after) (hinstalls : site.installs move = false) : after.Settled := by
  have hcache : after.registry.cache.filled = none ∧ after.registry.cache.entries = [] := by
    cases handles_of_after hmove with
    | keeps _ _ hfilled hentries => exact ⟨hfilled.trans h.filled, hentries.trans h.entries⟩
    | drops _ _ hfilled hentries => exact ⟨hfilled, hentries⟩
    | fills _ _ hfills =>
      rw [hinstalls] at hfills
      cases hfills
    | renews _ _ hsome =>
      rw [h.filled] at hsome
      cases hsome
    | astray _ hstrays =>
      rw [h.not_strays horderly] at hstrays
      cases hstrays
  have hmoved := moved_of_after hmove
  refine ⟨hcache.1, hcache.2, fun who progress hprogress => ?_,
    fun who errand build stamp hbuild hchanges hstamp => ?_⟩
  · rcases hmoved.progress_cases hprogress with
      ⟨-, hbefore | hbegins⟩ | ⟨activity, mid, -, -, hactivity, hturn, -⟩
    · exact h.idle who progress hbefore
    · exact isMidBatch_of_isBeginning hbegins
    · exact hturn.isMidBatch (h.idle who _ (progress?_of_activity hactivity)) h.filled
  · refine Nat.lt_of_lt_of_le ?_ (precedes_of_after hmove).cache.generation_le
    rcases hmoved.inside_cases hbuild (Build.isInside_of_stamp? hstamp) with
      ⟨-, hbefore⟩ | ⟨former, mid, -, -, hactivity, hadvance, -⟩
    · exact h.passed who errand build stamp hbefore hchanges hstamp
    · have hprogress := progress?_of_activity hactivity
      exact h.passed who errand former stamp hprogress hchanges
        (hadvance.stamp_eq hchanges (h.idle who _ hprogress) hstamp)

/-- When the entries are dropped, the cache is settled unless the watcher is in the middle of a batch. -/
theorem settled_of_empties {move : Move} {after : Site} (horderly : site.Orderly)
    (hempties : site.empties move = true) (hidle : site.BetweenBatches)
    (hmove : site.after move = some after) : after.Settled := by
  obtain ⟨who, progress, rfl, hactivity, hdrops⟩ := of_empties hempties
  -- What drops the entries was no reading, and is none afterwards.
  have hbuilding : ∀ errand build, progress ≠ .building errand build := by
    rintro errand build rfl
    rcases hdrops with hsealing | ⟨call, hcall, -⟩
    · cases hsealing
    · cases hcall
  cases handles_of_after hmove with
  | drops _ _ hfilled hentries hgeneration =>
    refine ⟨hfilled, hentries, fun other later hprogress => ?_,
      fun other errand build stamp hbuild hchanges hstamp => ?_⟩
    · rcases (moved_of_after hmove).progress_cases hprogress with
        ⟨-, hbefore | hbegins⟩ | ⟨activity, mid, hown, -, hother, hturn, -⟩
      · exact hidle other later hbefore
      · exact isMidBatch_of_isBeginning hbegins
      · cases hown
        cases hactivity.symm.trans hother
        rcases hdrops with rfl | ⟨call, rfl, hrenews⟩
        · cases hturn with
          | quiet hnext => exact isMidBatch_of_isApart hnext
          | close => rfl
        · cases hturn with
          | quiet hnext => exact isMidBatch_of_isApart hnext
          | invalidate | addOptions => rfl
    · rw [hgeneration]
      rcases (moved_of_after hmove).inside_cases hbuild (Build.isInside_of_stamp? hstamp) with
        ⟨-, hbefore⟩ | ⟨former, mid, hown, -, hother, -, -⟩
      · exact Nat.lt_succ_of_le (horderly.stamped other errand build stamp hbefore hstamp).1
      · cases hown
        cases hactivity.symm.trans hother
        exact absurd rfl (hbuilding errand former)
  | keeps hnot | fills hnot | renews hnot | astray hnot =>
    rw [hempties] at hnot
    cases hnot

theorem settled_start (store : Store) (config : Config) (dialer : Dialer) (faults : Faults) :
    (start store config dialer faults).Settled := by
  refine ⟨rfl, rfl, fun who progress hprogress => ?_, fun who errand build stamp hbuild => ?_⟩
  · obtain ⟨-, rfl⟩ := progress?_start hprogress
    rfl
  · cases (progress?_start hbuild).2

theorem Settled.run (h : site.Settled) (horderly : site.Orderly) (hrun : site.run moves = some final)
    (hquiet : ∀ entry ∈ site.history moves, entry.1.installs entry.2 = false) : final.Settled := by
  refine (history_induction (P := fun past there =>
    (∀ entry ∈ past, entry.1.installs entry.2 = false) → there.Settled ∧ there.Orderly)
    (fun _ => ⟨h, horderly⟩) ?_ hrun hquiet).1
  intro before there move next _ hthere hmove hnone
  obtain ⟨hsettled, horder⟩ := hthere fun entry hmem => hnone entry (List.mem_append_left _ hmem)
  exact ⟨hsettled.moved horder hmove (hnone (there, move) List.mem_concat_self),
    horder.moved (moved_of_after hmove)⟩

end Site

/-- The entries were last dropped in the middle of a batch, and no caller has filled the cache since. -/
def CutInBatch (past : List (Site × Move)) : Prop :=
  ∃ before cut later, past = before ++ cut :: later ∧ cut.1.empties cut.2 = true ∧
    ¬ cut.1.BetweenBatches ∧
    ∀ other ∈ later, other.1.empties other.2 = false ∧ other.1.installs other.2 = false

theorem CutInBatch.concat {past : List (Site × Move)} (h : CutInBatch past) {entry : Site × Move}
    (hempties : entry.1.empties entry.2 = false) (hinstalls : entry.1.installs entry.2 = false) :
    CutInBatch (past ++ [entry]) := by
  obtain ⟨before, cut, later, rfl, hcut, hbatch, hsince⟩ := h
  refine ⟨before, cut, later ++ [entry], by simp, hcut, hbatch, fun other hmem => ?_⟩
  rcases List.mem_append.1 hmem with hlater | hlast
  · exact hsince other hlater
  · exact List.mem_singleton.1 hlast ▸ ⟨hempties, hinstalls⟩

namespace Site

variable {store : Store} {config : Config} {dialer : Dialer} {faults : Faults} {moves : List Move}
  {site final : Site}

/-- At any time the cache is settled or filled, or it was emptied in the middle of a batch. -/
theorem settled_or_cut (hrun : (start store config dialer faults).run moves = some final) :
    final.Settled ∨ final.registry.cache.filled.isSome = true ∨
      CutInBatch ((start store config dialer faults).history moves) := by
  refine history_induction (P := fun past there =>
    there.Settled ∨ there.registry.cache.filled.isSome = true ∨ CutInBatch past) ?_ ?_ hrun
  · exact .inl (settled_start store config dialer faults)
  · intro before there move next hbefore hthere hmove
    have horderly := orderly_of_run hbefore
    cases hinstalls : there.installs move with
    | true => exact .inr (.inl (filled_of_installs hinstalls hmove))
    | false =>
      cases hempties : there.empties move with
      | true =>
        by_cases hidle : there.BetweenBatches
        · exact .inl (settled_of_empties horderly hempties hidle hmove)
        · exact .inr (.inr ⟨_, (there, move), [], rfl, hempties, hidle,
            fun other hmem => absurd hmem List.not_mem_nil⟩)
      | false =>
        rcases hthere with hsettled | hsome | hcut
        · exact .inl (hsettled.moved horderly hmove hinstalls)
        · refine .inr (.inl ?_)
          cases handles_of_after hmove with
          | keeps _ _ hfilled => rwa [hfilled]
          | drops hnot =>
            rw [hempties] at hnot
            cases hnot
          | fills _ _ _ hfilled | renews _ _ _ hfilled => exact hfilled
          | astray _ hstrays =>
            obtain ⟨-, -, -, -, -, -, -, -, -, hnone, -⟩ := of_strays hstrays
            rw [hnone] at hsome
            cases hsome
        · exact .inr (.inr (hcut.concat hempties hinstalls))

/-- No reading strays in unless the entries were dropped in the middle of its batch. -/
theorem cut_of_strays (hrun : (start store config dialer faults).run moves = some final) {move : Move}
    (hstrays : final.strays move = true) :
    CutInBatch ((start store config dialer faults).history moves) := by
  rcases settled_or_cut hrun with hsettled | hsome | hcut
  · rw [hsettled.not_strays (orderly_of_run hrun)] at hstrays
    cases hstrays
  · obtain ⟨-, -, -, -, -, -, -, -, -, hnone, -⟩ := of_strays hstrays
    rw [hnone] at hsome
    cases hsome
  · exact hcut

end Site

/-- A cache that is to be filled holds nothing just if no reading of the watcher has strayed in since its
entries were last dropped, and none strays in unless they were dropped in the middle of its batch. From a call
that renews the cache until a caller's reading is put in, the cache stays empty and to be filled under the same
condition, and always if the watcher was not in the middle of a batch when the call was carried out. -/
theorem unfilled_holds_nothing_iff {store : Store} {config : Config} {dialer : Dialer} {faults : Faults}
    {moves : List Move} {final : Site}
    (hrun : (Site.start store config dialer faults).run moves = some final) :
    (final.registry.cache.filled = none → (final.registry.cache.entries = [] ↔
      ¬ Strayed ((Site.start store config dialer faults).history moves))) ∧
    (∀ move, final.strays move = true →
      CutInBatch ((Site.start store config dialer faults).history moves)) ∧
    ∀ earlier later past who call, moves = earlier ++ .step who :: later →
      (Site.start store config dialer faults).run earlier = some past →
      past.registry.activities[who]? = some ⟨.calling call, false⟩ → call.renews = true →
      (∀ entry ∈ (past.step who).history later, entry.1.installs entry.2 = false) →
        (final.registry.cache.filled = none ∧ final.registry.cache.entries = [] ↔
          ¬ Strayed ((past.step who).history later)) ∧
        (past.BetweenBatches →
          final.registry.cache.filled = none ∧ final.registry.cache.entries = []) := by
  refine ⟨Site.entries_eq_nil_iff rfl hrun, fun move hstrays => Site.cut_of_strays hrun hstrays, ?_⟩
  rintro earlier later past who call rfl hearlier hactivity hrenews hquiet
  have hparts := (Site.run_append _ earlier (.step who :: later)).symm.trans hrun
  rw [hearlier, Option.bind_some, Site.run_cons] at hparts
  obtain ⟨base, hstep, hlater⟩ := Option.bind_eq_some_iff.1 hparts
  obtain ⟨-, rfl⟩ := Site.of_after_step hstep
  have horderly := Site.orderly_of_run hearlier
  have hempties : past.empties (.step who) = true := by
    simp only [Site.empties, hactivity]
    exact hrenews
  obtain ⟨hfilled, hentries⟩ := Site.dropped_of_renews hactivity hrenews
  refine ⟨Site.dropped_iff hfilled hentries hlater hquiet, fun hidle => ?_⟩
  have hsettled := (Site.settled_of_empties horderly hempties hidle hstep).run
    (horderly.moved (Site.moved_of_after hstep)) hlater hquiet
  exact ⟨hsettled.filled, hsettled.entries⟩

/-- The cache is filled with the connections to one instance. -/
def fillsCache : List Move :=
  [.request (.put "svc/chat/10.0.0.1:9000" "" none), .step Registry.watcher, .step Registry.watcher,
    .call (.getConnections "chat")] ++ List.replicate 6 (.step 1)

/-- A batch comes, the watcher sees that the cache is filled, and the cache is about to be invalidated. -/
def meetsBatch (text : String) : List Move :=
  fillsCache ++
    [.request (.put text "" none), .step Registry.watcher, .step Registry.watcher, .call .invalidate]

/-- The watcher reads the store for the batch. -/
def goesOnWithBatch : List Move := List.replicate 4 (.step Registry.watcher)

/-- The batch is about a service. -/
def refreshedLate : Site :=
  (Site.sample.run (meetsBatch "svc/chat/10.0.0.2:9000" ++ .step 2 :: goesOnWithBatch)).get rfl

/-- The batch is about everything. -/
def beforeRebuild : Site := (Site.sample.run (meetsBatch "svc/bad")).get rfl

def rebuiltLate : Site :=
  (Site.sample.run (meetsBatch "svc/bad" ++ .step 2 :: goesOnWithBatch)).get rfl

/-- What the watcher finds for a batch in the middle of which the cache was invalidated is put in, as an entry
of a cache that is to be filled or in the place of all entries. -/
theorem renewal_in_batch_undone :
    Site.sample.run (meetsBatch "svc/chat/10.0.0.2:9000" ++ .step 2 :: goesOnWithBatch) =
        some refreshedLate ∧
      refreshedLate.registry.cache.filled = none ∧ refreshedLate.registry.cache.entries ≠ [] ∧
    Site.sample.run (meetsBatch "svc/bad") = some beforeRebuild ∧
      beforeRebuild.registry.activities[2]? = some ⟨.calling .invalidate, false⟩ ∧
      Site.sample.run (meetsBatch "svc/bad" ++ .step 2 :: goesOnWithBatch) = some rebuiltLate ∧
      (∀ entry ∈ (beforeRebuild.step 2).history goesOnWithBatch, entry.1.installs entry.2 = false) ∧
      rebuiltLate.registry.cache.filled.isSome = true ∧ rebuiltLate.registry.cache.entries ≠ [] := by
  have hquiet : ((beforeRebuild.step 2).history goesOnWithBatch).all
      (fun entry => !entry.1.installs entry.2) = true := by decide +kernel
  have hrefreshed : refreshedLate.registry.cache.entries.isEmpty = false := by decide +kernel
  have hrebuilt : rebuiltLate.registry.cache.entries.isEmpty = false := by decide +kernel
  refine ⟨(Option.some_get _).symm, ?_, ?_, (Option.some_get _).symm, ?_, (Option.some_get _).symm,
    ?_, ?_, ?_⟩
  · exact Option.isNone_iff_eq_none.1 (by decide +kernel)
  · simpa using hrefreshed
  · rfl
  · exact fun entry hmem => by simpa using List.all_eq_true.1 hquiet entry hmem
  · decide +kernel
  · simpa using hrebuilt

/-- The cache is about to be invalidated while the watcher waits for a batch. -/
def beforeInvalidation : Site := (Site.sample.run (fillsCache ++ [.call .invalidate])).get rfl

def getsBatch : List Move :=
  [.request (.put "svc/chat/10.0.0.2:9000" "" none), .step Registry.watcher, .step Registry.watcher]

def invalidated : Site :=
  (Site.sample.run (fillsCache ++ [.call .invalidate] ++ .step 2 :: getsBatch)).get rfl

theorem unfilled_holds_nothing_between_batches :
    Site.sample.run (fillsCache ++ [.call .invalidate]) = some beforeInvalidation ∧
      beforeInvalidation.registry.cache.filled.isSome = true ∧
      Site.sample.run (fillsCache ++ [.call .invalidate] ++ .step 2 :: getsBatch) = some invalidated ∧
      invalidated.registry.cache.generation = 2 ∧
      invalidated.registry.cache.filled = none ∧ invalidated.registry.cache.entries = [] := by
  have hbefore : Site.sample.run (fillsCache ++ [.call .invalidate]) = some beforeInvalidation :=
    (Option.some_get _).symm
  have hfinal : Site.sample.run (fillsCache ++ [.call .invalidate] ++ .step 2 :: getsBatch) =
      some invalidated := (Option.some_get _).symm
  have hquiet : ((beforeInvalidation.step 2).history getsBatch).all
      (fun entry => !entry.1.installs entry.2) = true := by decide +kernel
  have hidle : beforeInvalidation.registry.activities.all
      (fun activity => !activity.progress.isMidBatch) = true := by decide +kernel
  obtain ⟨-, hkept⟩ := (unfilled_holds_nothing_iff hfinal).2.2 _ _ beforeInvalidation 2 .invalidate rfl
    hbefore rfl rfl fun entry hmem => by simpa using List.all_eq_true.1 hquiet entry hmem
  refine ⟨hbefore, by decide +kernel, hfinal, by decide +kernel, hkept fun other progress hprogress => ?_⟩
  obtain ⟨activity, hactivity, rfl⟩ := Option.map_eq_some_iff.1 hprogress
  simpa using List.all_eq_true.1 hidle activity (List.mem_of_getElem? hactivity)

end ServiceRegistry
