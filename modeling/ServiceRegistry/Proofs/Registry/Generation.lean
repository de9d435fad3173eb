import ServiceRegistry.Proofs.Registry.Recency

/-!
# Generations

A call that renews the cache begins a new generation. What the cache shows was stamped and scanned
in the current generation, so behind every renewal of the run, and it was dialed with all options
that were added so far. A caller that comes after a renewal is handed a list of that generation or
of a later one, however late a reading that began before the renewal comes to its end.
-/
namespace ServiceRegistry

/-- The connection goes to its target over one endpoint, which the dialer has accepted at the time of the
dial. The endpoint began with the URI of the target and the limit for connecting, with nothing else set,
and all options were applied to it, one after the other in their order. -/
def Connection.Dialed (connection : Connection) (dialing : Dialing) : Prop :=
  ∃ uri endpoint, Uri.ofAddress connection.target = .ok uri ∧
    endpoint = dialing.options.foldl (fun endpoint option => option.apply endpoint)
      ⟨uri, dialing.connectTimeout, []⟩ ∧
    connection.endpoints = [endpoint] ∧ dialing.dialer.accepts dialing.time endpoint = true

/-- A connection of a dialing was dialed. -/
theorem Dialing.dialed_of_mem {dialing : Dialing} {keys : List EndpointKey} {service : ServiceKey}
    {connection : Connection} (h : connection ∈ dialing.connections keys service) :
    connection.Dialed dialing := by
  obtain ⟨key, -, hkey⟩ := List.mem_filterMap.1 h
  obtain ⟨endpoint, hbuild, haccepts, rfl⟩ := Dialing.connect?_eq_some_iff.1 hkey
  obtain ⟨uri, huri, hendpoint⟩ := Endpoint.build_eq_ok_iff.1 hbuild
  exact ⟨uri, endpoint, huri, hendpoint, rfl, haccepts⟩

theorem Origin.dialed {past : List (Site × Move)} {dialer : Dialer} {timeout : Option Duration}
    {stamp : Stamp} {key : ServiceKey} {listing : Listing}
    (h : Origin past dialer timeout stamp key listing) {connection : Connection}
    (hmem : connection ∈ listing.connections) :
    connection.Dialed ⟨dialer, timeout, stamp.options, listing.reading.time⟩ := by
  obtain ⟨errand, keys, -, -, hconnections⟩ := h
  rw [hconnections] at hmem
  exact Dialing.dialed_of_mem hmem

/-! ## The options that were added -/

/-- The dial options that a move at a site adds. -/
def addedBy (site : Site) : Move → List DialOption
  | .step who =>
    match site.registry.activities[who]? with
    | some ⟨.calling (.addOptions options), false⟩ => options
    | _ => []
  | _ => []

/-- The dial options that were added during a run, in the order of the calls. -/
def addedOptions (past : List (Site × Move)) : List DialOption :=
  past.flatMap fun entry => addedBy entry.1 entry.2

namespace Site

theorem step_addOptions {site : Site} {who : Nat} {options : List DialOption}
    (h : site.registry.activities[who]? = some ⟨.calling (.addOptions options), false⟩) :
    site.step who =
      (site.withCache (site.registry.cache.addOptions options)).settle who
        (.finished (.ok .done)) := by
  rw [step, h]
  rfl

theorem step_invalidate {site : Site} {who : Nat}
    (h : site.registry.activities[who]? = some ⟨.calling .invalidate, false⟩) :
    site.step who =
      (site.withCache site.registry.cache.invalidate).settle who (.finished (.ok .done)) := by
  rw [step, h]
  rfl

/-- Nothing but a call adds options. -/
theorem options_of_moved {site after : Site} {move : Move} (hmove : site.after move = some after) :
    after.registry.cache.options = site.registry.cache.options ++ addedBy site move := by
  have hmoved := moved_of_after hmove
  cases hmoved with
  | @turn who activity next mid hactivity hready hturn hframe =>
    by_cases hadds : ∃ options, activity = ⟨.calling (.addOptions options), false⟩
    · obtain ⟨options, rfl⟩ := hadds
      simp only [Site.after, hready, if_true, Option.some.injEq] at hmove
      rw [← hmove, step_addOptions hactivity, addedBy, hactivity]
      rfl
    · have hnone : addedBy site (.step who) = [] := by
        simp only [addedBy, hactivity]
        split
        · rename_i options hsome
          exact absurd ⟨options, Option.some.inj hsome⟩ hadds
        · rfl
      rw [hnone, List.append_nil, cache_settle]
      have heffect := hturn.effect
      generalize mid.registry.cache = cache at heffect
      cases heffect with
      | same => rfl
      | renewed hgeneration hoptions hfilled =>
        rcases hoptions with hsame | ⟨options, he, -⟩
        · exact hsame
        · exact absurd ⟨options, he⟩ hadds
      | placed hdialing hplaced => exact hplaced.options_eq
  | calm hother hcache =>
    have hnone : addedBy site move = [] := by
      cases move with
      | step who => exact absurd rfl (hother who)
      | _ => rfl
    rw [hcache, hnone, List.append_nil]

/-- The options of the cache are those that the calls of the run have added, in their order. -/
theorem options_of_run {store : Store} {config : Config} {dialer : Dialer} {faults : Faults}
    {moves : List Move} {site : Site}
    (hrun : (start store config dialer faults).run moves = some site) :
    site.registry.cache.options =
      addedOptions ((start store config dialer faults).history moves) := by
  refine history_induction (P := fun past site => site.registry.cache.options = addedOptions past)
    rfl ?_ hrun
  intro before s move t _ h hmove
  rw [options_of_moved hmove, h, addedOptions, addedOptions, List.flatMap_append]
  simp

end Site

/-! ## Readings behind a renewal -/

/-- Whether the call begins a new generation of the cache. -/
def Call.renews : Call → Bool
  | .addOptions _ | .invalidate => true
  | _ => false

namespace Site

/-- The call begins one generation, and no activity. -/
theorem step_of_renews {site : Site} {who : Nat} {call : Call}
    (h : site.registry.activities[who]? = some ⟨.calling call, false⟩)
    (hrenews : call.renews = true) :
    (site.step who).registry.cache.generation = site.registry.cache.generation + 1 ∧
      (site.step who).registry.activities.length = site.registry.activities.length := by
  cases call with
  | addOptions options =>
    rw [step_addOptions h]
    exact ⟨rfl, by simp [settle, mapRegistry, withCache, Registry.move]⟩
  | invalidate =>
    rw [step_invalidate h]
    exact ⟨rfl, by simp [settle, mapRegistry, withCache, Registry.move]⟩
  | _ => cases hrenews

/-- Callers that came late read in late generations. -/
structure Late (generation length : Nat) (site : Site) : Prop where
  le : generation ≤ site.registry.cache.generation
  stamped : ∀ who errand build stamp, length ≤ who →
    site.progress? who = some (.building errand build) → build.stamp? = some stamp →
      generation ≤ stamp.generation
  returned : ∀ who listing, length ≤ who →
    site.progress? who = some (.finished (.ok (.connections listing))) →
      generation ≤ listing.reading.generation

theorem Late.moved {generation length : Nat} {past : List (Site × Move)} {site after : Site}
    {move : Move} (h : Late generation length site) (horderly : site.Orderly)
    (hpast : Provenance past site) (hmove : site.after move = some after) :
    Late generation length after := by
  have hmoved := moved_of_after hmove
  refine ⟨h.le.trans (precedes_of_after hmove).cache.generation_le, ?_, ?_⟩
  · intro who errand build stamp hlate hbuild hstamp
    rcases hmoved.stamped_cases hbuild hstamp with ⟨former, hbefore, hheld⟩ | ⟨-, -, htaken⟩
    · exact h.stamped who errand former stamp hlate hbefore hheld
    · rw [(Cache.of_stamp htaken).2]
      exact h.le
  · intro who listing hlate hlisting
    rcases hmoved.returned_cases hlisting with hbefore | ⟨key, hshown | ⟨stamp, reading, keys, due,
      hdialing, rfl⟩⟩
    · exact h.returned who listing hlate hbefore
    · rw [(hpast.shown key listing hshown).1]
      exact h.le
    · rw [show reading.generation = stamp.generation from
        horderly.dialing who _ stamp reading keys due hdialing]
      exact h.stamped who _ _ stamp hlate hdialing rfl

section
variable {store : Store} {config : Config} {dialer : Dialer} {faults : Faults}
  {earlier later : List Move} {past final : Site}

/-- A reading with a stamp of a generation that had not begun was made later. -/
theorem reads_since (hearlier : (start store config dialer faults).run earlier = some past)
    {errand : Errand} {stamp : Stamp} {reading : Reading} {keys : List EndpointKey}
    (h : Reads ((start store config dialer faults).history (earlier ++ later)) errand stamp reading
      keys)
    (hlt : past.registry.cache.generation < stamp.generation) :
    Reads (past.history later) errand stamp reading keys := by
  rw [history_append hearlier] at h
  have hle : ∀ site move, (site, move) ∈ (start store config dialer faults).history earlier →
      site.registry.cache.generation ≤ past.registry.cache.generation := by
    intro site move hmem
    obtain ⟨-, next, hnext, hfuture⟩ := precedes_of_mem_history hearlier hmem
    exact ((precedes_of_after hnext).trans hfuture).cache.generation_le
  constructor
  · obtain ⟨site, who, hmem, hactivity, hstamp⟩ := h.stamped
    rcases List.mem_append.1 hmem with hbefore | hafter
    · have hsite := hle site _ hbefore
      rw [(Cache.of_stamp hstamp).2] at hlt
      exact absurd hlt (not_lt.2 hsite)
    · exact ⟨site, who, hafter, hactivity, hstamp⟩
  · obtain ⟨site, who, rows, hmem, hscans, hreading⟩ := h.scanned
    rcases List.mem_append.1 hmem with hbefore | hafter
    · have hsite := hle site _ hbefore
      obtain ⟨front, back, -, hfront⟩ := split_of_mem_history hbefore
      obtain ⟨flight, mid, hactivity, -⟩ := hscans
      have hstamp := ((orderly_of_run hfront).stamped who errand _ stamp
        (progress?_of_activity hactivity) rfl).1
      exact absurd hlt (not_lt.2 (hstamp.trans hsite))
    · exact ⟨site, who, rows, hafter, hscans, hreading⟩

theorem origin_since (hearlier : (start store config dialer faults).run earlier = some past)
    {stamp : Stamp} {key : ServiceKey} {listing : Listing}
    (h : Origin ((start store config dialer faults).history (earlier ++ later)) dialer
      config.connectTimeout stamp key listing)
    (hlt : past.registry.cache.generation < listing.reading.generation) :
    Origin (past.history later) dialer config.connectTimeout stamp key listing := by
  obtain ⟨errand, keys, hreads, hrest⟩ := h
  exact ⟨errand, keys, reads_since hearlier hreads (hreads.generation_eq ▸ hlt), hrest⟩

/-- Callers that come after a renewal are late. -/
theorem late_of_renews (hearlier : (start store config dialer faults).run earlier = some past)
    {who : Nat} {call : Call}
    (hactivity : past.registry.activities[who]? = some ⟨.calling call, false⟩)
    (hrenews : call.renews = true) (hstep : past.after (.step who) = some (past.step who))
    (hlater : (past.step who).run later = some final) :
    Late (past.registry.cache.generation + 1) past.registry.activities.length final := by
  obtain ⟨hgeneration, hlength⟩ := step_of_renews hactivity hrenews
  have hnone : ∀ other, past.registry.activities.length ≤ other →
      (past.step who).progress? other = none := by
    intro other hlate
    rw [progress?, List.getElem?_eq_none (hlength.trans_le hlate)]
    rfl
  have hlate : Late (past.registry.cache.generation + 1) past.registry.activities.length
      (past.step who) := by
    refine ⟨hgeneration.ge, ?_, ?_⟩
    · intro other errand build stamp hother hbuild
      rw [hnone other hother] at hbuild
      cases hbuild
    · intro other listing hother hlisting
      rw [hnone other hother] at hlisting
      cases hlisting
  have hinduction : final.Orderly ∧ (∃ past, Provenance past final) ∧
      Late (past.registry.cache.generation + 1) past.registry.activities.length final := by
    refine run_induction (P := fun site => site.Orderly ∧ (∃ past, Provenance past site) ∧
      Late (past.registry.cache.generation + 1) past.registry.activities.length site) ?_ ?_ hlater
    · exact ⟨(orderly_of_run hearlier).moved (moved_of_after hstep),
        ⟨_, (Provenance.of_run hearlier).moved hstep⟩, hlate⟩
    · rintro site next move ⟨horderly, ⟨moves, hpast⟩, hsite⟩ hmove
      exact ⟨horderly.moved (moved_of_after hmove), ⟨_, hpast.moved hmove⟩,
        hsite.moved horderly hpast hmove⟩
  exact hinduction.2.2

/-- A list that was read with a stamp of the run was dialed with options of the run. -/
theorem options_of_reads {site : Site} {moves : List Move} (hrun : site.run moves = some final)
    {errand : Errand} {stamp : Stamp} {reading : Reading} {keys : List EndpointKey}
    (h : Reads (site.history moves) errand stamp reading keys) :
    site.registry.cache.options <+: stamp.options ∧
      stamp.options <+: final.registry.cache.options ∧
      (stamp.generation = final.registry.cache.generation →
        stamp.options = final.registry.cache.options) := by
  obtain ⟨early, who, hmem, -, hstamp⟩ := h.stamped
  obtain ⟨hpast, next, hnext, hfuture⟩ := precedes_of_mem_history hrun hmem
  have hfuture := (precedes_of_after hnext).trans hfuture
  rw [(Cache.of_stamp hstamp).2]
  exact ⟨hpast.cache.options_prefix, hfuture.cache.options_prefix,
    fun he => (hfuture.cache.options_eq he.symm).symm⟩

end

end Site

/-- At any point of any run, what the cache shows of a service was stamped and scanned behind every move
that began a generation, and was dialed with exactly the options that were added so far, in their order and
behind the limit of the configuration. And a caller of a service that came after a call had renewed the cache
was handed a list of that service that was stamped and scanned after that call, and dialed with every option
that had been added by then. -/
theorem generation_safety {store : Store} {config : Config} {dialer : Dialer} {faults : Faults}
    {moves : List Move} {final : Site}
    (hrun : (Site.start store config dialer faults).run moves = some final) :
    (∀ key listing, final.registry.cache.Shows key listing → ∃ stamp,
      stamp.generation = final.registry.cache.generation ∧
      stamp.options = addedOptions ((Site.start store config dialer faults).history moves) ∧
      (∀ connection ∈ listing.connections,
        connection.Dialed ⟨dialer, config.connectTimeout, stamp.options, listing.reading.time⟩) ∧
      Origin ((Site.start store config dialer faults).history moves) dialer config.connectTimeout
        stamp key listing ∧
      ∀ earlier later past, moves = earlier ++ later →
        (Site.start store config dialer faults).run earlier = some past →
          past.registry.cache.generation < final.registry.cache.generation →
            Origin (past.history later) dialer config.connectTimeout stamp key listing) ∧
    ∀ earlier later past who call, moves = earlier ++ .step who :: later →
      (Site.start store config dialer faults).run earlier = some past →
        past.registry.activities[who]? = some ⟨.calling call, false⟩ → call.renews = true →
          ∀ caller service listing, past.registry.activities.length ≤ caller →
            Calls ((Site.start store config dialer faults).history moves) caller
              (.getConnections service) →
            final.progress? caller = some (.finished (.ok (.connections listing))) →
              ∃ stamp key, ServiceKey.make config.root service = .ok key ∧
                Origin ((past.step who).history later) dialer config.connectTimeout stamp key listing ∧
                addedOptions ((Site.start store config dialer faults).history
                  (earlier ++ [.step who])) <+: stamp.options ∧
                stamp.options <+:
                  addedOptions ((Site.start store config dialer faults).history moves) ∧
                ∀ connection ∈ listing.connections, connection.Dialed
                  ⟨dialer, config.connectTimeout, stamp.options, listing.reading.time⟩ := by
  have hprovenance := Provenance.of_run hrun
  have hsettings := Site.precedes_of_run hrun
  have hdialer : final.registry.dialer = dialer := hsettings.dialer
  have hconfig : final.registry.config = config := hsettings.config
  constructor
  · intro key listing hshows
    obtain ⟨hcurrent, stamp, horigin⟩ := hprovenance.shown key listing hshows
    rw [hdialer, hconfig] at horigin
    obtain ⟨errand, keys, hreads, -⟩ := id horigin
    have hgeneration : stamp.generation = final.registry.cache.generation :=
      hreads.generation_eq.symm.trans hcurrent
    refine ⟨stamp, hgeneration, ?_, fun _ => horigin.dialed, horigin, ?_⟩
    · rw [← Site.options_of_run hrun]
      exact (Site.options_of_reads hrun hreads).2.2 hgeneration
    · rintro earlier later past rfl hearlier hlt
      exact Site.origin_since hearlier horigin (hcurrent ▸ hlt)
  · rintro earlier later past who call rfl hearlier hactivity hrenews caller service listing hlate
      hcall hlisting
    have hparts := (Site.run_append _ earlier (.step who :: later)).symm.trans hrun
    rw [hearlier, Option.bind_some, Site.run_cons] at hparts
    obtain ⟨base, hstep, hlater⟩ := Option.bind_eq_some_iff.1 hparts
    obtain ⟨-, rfl⟩ := Site.of_after_step hstep
    have hbase : (Site.start store config dialer faults).run (earlier ++ [.step who]) =
        some (past.step who) := by
      rw [Site.run_append, hearlier, Option.bind_some, Site.run_cons, hstep]
      rfl
    have hgeneration := (Site.late_of_renews hearlier hactivity hrenews hstep hlater).returned
      caller listing hlate hlisting
    obtain ⟨key, _, stamp, hkey, hfound, -⟩ :=
      (Ordered.of_run hrun).returned caller service listing hcall hlisting
    have horigin := hfound.origin hrun
    have hsince := Site.origin_since hearlier horigin hgeneration
    rw [Site.history_cons hstep] at hsince
    obtain ⟨errand, keys, hreads, hcovers, hconnections⟩ := hsince
    have hreads := hreads.of_cons hactivity rfl
    obtain ⟨hadded, hbelow, -⟩ := Site.options_of_reads hlater hreads
    refine ⟨stamp, key, hkey, ⟨errand, keys, hreads, hcovers, hconnections⟩, ?_, ?_,
      fun _ => horigin.dialed⟩
    · rwa [← Site.options_of_run hbase]
    · rwa [← Site.options_of_run hrun]

/-- A registry that allows three seconds for connecting. -/
def limited : Site :=
  .start .empty ((Config.make "svc" []).withConnectTimeout (.ofSecs 3)) .onFirstUse .none

/-- The limit is lowered by an option, a caller reads the root, and another option is about to be added. -/
def beforeRenewal : List Move :=
  [.request (.put "svc/chat/10.0.0.1:9000" "" none), .call (.addOptions [.limiting "limit" (.ofSecs 1)]),
    .step 1, .call (.getConnections "chat"), .step 2, .step 2, .step 2, .step 2, .step 2,
    .call (.addOptions [.setting "calls" "timeout" "10s"])]

/-- The caller comes to its end, and so does another one that comes after the option was added. -/
def afterRenewal : List Move :=
  [.call (.getConnections "chat"), .step 2, .step 4, .step 4, .step 4, .step 4, .step 4, .step 4]

theorem generation_safety_straddled :
    ∃ past final early late, limited.run beforeRenewal = some past ∧
      limited.run (beforeRenewal ++ .step 3 :: afterRenewal) = some final ∧
      final.progress? 2 = some (.finished (.ok (.connections early))) ∧
      early.connections = [⟨"10.0.0.1:9000", [⟨⟨"10.0.0.1:9000", "", none⟩, some (.ofSecs 1), []⟩]⟩] ∧
      final.progress? 4 = some (.finished (.ok (.connections late))) ∧
      late.connections = [⟨"10.0.0.1:9000",
        [⟨⟨"10.0.0.1:9000", "", none⟩, some (.ofSecs 1), [("timeout", "10s")]⟩]⟩] ∧
      ∃ stamp key, ServiceKey.make "svc" "chat" = .ok key ∧
        Origin ((past.step 3).history afterRenewal) .onFirstUse (some (.ofSecs 3)) stamp key late ∧
        addedOptions (limited.history (beforeRenewal ++ [.step 3])) <+: stamp.options ∧
        stamp.options <+: addedOptions (limited.history (beforeRenewal ++ .step 3 :: afterRenewal)) ∧
        ∀ connection ∈ late.connections,
          connection.Dialed ⟨.onFirstUse, some (.ofSecs 3), stamp.options, late.reading.time⟩ := by
  obtain ⟨past, hpast⟩ : ∃ past, limited.run beforeRenewal = some past :=
    Option.isSome_iff_exists.1 rfl
  obtain ⟨final, hfinal⟩ :
      ∃ final, limited.run (beforeRenewal ++ .step 3 :: afterRenewal) = some final :=
    Option.isSome_iff_exists.1 rfl
  have hactivity : (limited.run beforeRenewal).bind (fun site => site.registry.activities[3]?) =
      some ⟨.calling (.addOptions [.setting "calls" "timeout" "10s"]), false⟩ := rfl
  have hlength : (limited.run beforeRenewal).map (fun site => site.registry.activities.length) =
      some 4 := rfl
  have hearly : (limited.run (beforeRenewal ++ .step 3 :: afterRenewal)).bind
      (fun site => site.progress? 2) = some (.finished (.ok (.connections
        ⟨⟨1, 0, 1, 0⟩, [⟨"10.0.0.1:9000",
          [⟨⟨"10.0.0.1:9000", "", none⟩, some (.ofSecs 1), []⟩]⟩]⟩))) := rfl
  have hlate : (limited.run (beforeRenewal ++ .step 3 :: afterRenewal)).bind
      (fun site => site.progress? 4) = some (.finished (.ok (.connections
        ⟨⟨2, 1, 1, 0⟩, [⟨"10.0.0.1:9000",
          [⟨⟨"10.0.0.1:9000", "", none⟩, some (.ofSecs 1), [("timeout", "10s")]⟩]⟩]⟩))) := rfl
  have hcalls : Calls (limited.history (beforeRenewal ++ .step 3 :: afterRenewal)) 4
      (.getConnections "chat") := by
    obtain ⟨mid, hmid⟩ : ∃ mid, limited.run (beforeRenewal ++ [.step 3]) = some mid :=
      Option.isSome_iff_exists.1 rfl
    have hlength : (limited.run (beforeRenewal ++ [.step 3])).map
        (fun site => site.registry.activities.length) = some 4 := rfl
    rw [hmid] at hlength
    exact Option.some.inj hlength ▸ Calls.of_split hmid (afterRenewal.drop 1)
  rw [hpast] at hactivity hlength
  rw [hfinal] at hearly hlate
  refine ⟨past, final, _, _, hpast, hfinal, hearly, rfl, hlate, rfl, ?_⟩
  exact (generation_safety hfinal).2 beforeRenewal afterRenewal past 3 _ rfl hpast hactivity rfl 4
    "chat" _ (Option.some.inj hlength).le hcalls hlate

end ServiceRegistry
