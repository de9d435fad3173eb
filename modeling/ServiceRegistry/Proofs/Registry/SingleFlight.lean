import ServiceRegistry.Proofs.Registry.Sharing

/-!
# Single flight

At any moment one reading at most is behind the gate. A caller reads the root only if the readings before
it have failed or are out of date, so that as long as nothing disturbs them all who come to a cache that is
to be filled share one scan and its dials, and a reading that fails leaves the cache to the next caller.
-/
namespace ServiceRegistry

/-- The call for the connections of a service was made in a run, and had not ended at a site. -/
def Seeks (past : List (Site × Move)) (root : String) (site : Site) (who : Nat) (key : ServiceKey) :
    Prop :=
  ∃ service, ServiceKey.make root service = .ok key ∧ Calls past who (.getConnections service) ∧
    ∀ outcome, site.progress? who ≠ some (.finished outcome)

/-- Who is after a service and has not ended goes on towards a list of it. -/
theorem Progress.Serves.resolves {progress : Progress} {root service : String} {key : ServiceKey}
    (h : progress.Serves root service) (hkey : ServiceKey.make root service = .ok key)
    (hgoes : ∀ outcome, progress ≠ .finished outcome) : progress.Resolves service key := by
  rcases h with hcalling | ⟨other, hother, hsought⟩ | ⟨outcome, hended⟩
  · exact .inl hcalling
  · rw [hkey] at hother
    cases hother
    cases progress with
    | looking found =>
      cases hsought
      exact .inr (.inl rfl)
    | building errand build =>
      cases errand with
      | resolve found =>
        cases hsought
        exact .inr (.inr (.inl ⟨build, rfl⟩))
      | refresh | rebuild => cases hsought
    | _ => cases hsought
  · exact absurd hended (hgoes outcome)

/-- Who is met at a site was called before. -/
theorem Calls.of_met {site mid final : Site} {earlier later : List Move} {who : Nat} {call : Call}
    {progress : Progress} (hearlier : site.run earlier = some mid) (hlater : mid.run later = some final)
    (hcall : Calls (site.history (earlier ++ later)) who call)
    (hmet : mid.progress? who = some progress) : Calls (site.history earlier) who call := by
  obtain ⟨early, hmem, hlength⟩ := hcall
  rw [Site.history_append hearlier] at hmem
  rcases List.mem_append.1 hmem with hbefore | hafter
  · exact ⟨early, hbefore, hlength⟩
  · obtain ⟨activity, hactivity, -⟩ := Option.map_eq_some_iff.1 hmet
    have hlt := lt_length_of_getElem? hactivity
    have hle := (Site.precedes_of_mem_history hlater hafter).1.length_le
    omega

section
variable {store : Store} {config : Config} {dialer : Dialer} {faults : Faults}
  {moves between : List Move} {site final : Site}
  (hrun : (Site.start store config dialer faults).run moves = some site)
  (hbetween : site.run between = some final)
include hrun hbetween

/-- A caller goes on towards a list as long as nothing disturbs it. -/
theorem Seeks.resolves (hundisturbed : Undisturbed (site.history between))
    (hopen : final.registry.closed = false) {who : Nat} {key : ServiceKey}
    (h : Seeks ((Site.start store config dialer faults).history (moves ++ between)) config.root site who
      key) :
    ∃ service progress, final.progress? who = some progress ∧ progress.Resolves service key := by
  obtain ⟨service, hkey, ⟨early, hmem, hlength⟩, hgoes⟩ := h
  refine ⟨service, Site.resolves_of_unfailed hrun hbetween hkey
    (fun early reader => hundisturbed.unfailed early reader key) hopen ?_⟩
  rw [Site.history_append hrun] at hmem
  rcases List.mem_append.1 hmem with hbefore | hafter
  · obtain ⟨progress, hprogress, hserves⟩ := Calls.progress
      (P := fun progress => progress.Serves config.root service) (.inl rfl) (.inr (.inr ⟨_, rfl⟩))
      (fun there progress hconfig h => hconfig ▸ Progress.Serves.stepFrom (hconfig ▸ h) who) hrun
      ⟨early, hbefore, hlength⟩
    refine .inr ⟨progress, hprogress, hserves.resolves hkey fun outcome hended => ?_⟩
    exact hgoes outcome (hprogress.trans (congrArg some hended))
  · exact .inl ⟨early, hafter, hlength⟩

/-- What a caller was handed is about the service that it has called for. -/
theorem Handed.of_seeks {early : Site} {stamp : Stamp} {rows : List Row} {who : Nat} {listing : Listing}
    (h : Handed (site.history between) early stamp rows who listing) {key : ServiceKey}
    (hseeks : Seeks ((Site.start store config dialer faults).history (moves ++ between)) config.root site
      who key) :
    listing = early.found stamp rows key ∨
      ∃ late, (late, .step who) ∈ site.history between ∧ late.progress? who = some (.looking key) ∧
        late.registry.cache.filled.isSome = true ∧
        ∃ entry ∈ site.history between, entry.1.Rereads entry.2 := by
  obtain ⟨late, progress, other, hmem, hprogress, hsought, hlisting⟩ := h
  obtain ⟨service, hkey, hcall, -⟩ := hseeks
  obtain ⟨before, after, rfl, hbefore⟩ := Site.split_of_mem_history hmem
  have hlate : (Site.start store config dialer faults).run (moves ++ before) = some late := by
    rw [Site.run_append, hrun]
    exact hbefore
  have hrest : late.run (.step who :: after) = some final := by
    rw [Site.run_append, hbefore] at hbetween
    exact hbetween
  rw [← List.append_assoc] at hcall
  rw [(hcall.of_met hlate hrest hprogress).sought hlate hprogress hsought] at hkey
  cases hkey
  rcases hlisting with hfound | ⟨rfl, hfilled, hrereads⟩
  · exact .inl hfound
  · exact .inr ⟨late, hmem, hprogress, hfilled, hrereads⟩

/-- A caller that has ended was handed a list. -/
theorem Seeks.listing (hundisturbed : Undisturbed (site.history between))
    (hopen : final.registry.closed = false) {who : Nat} {key : ServiceKey}
    (h : Seeks ((Site.start store config dialer faults).history (moves ++ between)) config.root site who
      key) {outcome : Except Error Outcome}
    (hended : final.progress? who = some (.finished outcome)) :
    ∃ listing, outcome = .ok (.connections listing) := by
  obtain ⟨service, progress, hprogress, hresolves⟩ := h.resolves hrun hbetween hundisturbed hopen
  rw [hended] at hprogress
  cases hprogress
  exact hresolves.listing

/-- A caller that has not ended can be led to its end by those who are on their way to connections. -/
theorem Seeks.ends (hundisturbed : Undisturbed (site.history between))
    (hopen : final.registry.closed = false) {who : Nat} {key : ServiceKey}
    (h : Seeks ((Site.start store config dialer faults).history (moves ++ between)) config.root site who
      key) (hgoes : ∀ outcome, final.progress? who ≠ some (.finished outcome)) :
    Site.Ends Progress.isSeeking final who := by
  have harranged := (Site.arranged_of_run hrun).run hbetween
  obtain ⟨service, progress, hprogress, hresolves⟩ := h.resolves hrun hbetween hundisturbed hopen
  rcases hresolves with rfl | rfl | ⟨build, rfl⟩ | ⟨listing, rfl⟩
  · exact harranged.seeker_ends hprogress
  · exact harranged.looker_ends hprogress
  · exact (harranged.reader_ends hprogress).mono fun _ => Progress.isSeeking_of_isBuilding
  · exact absurd hprogress (hgoes _)

/-- All callers share one scan, or none has ended and nothing was dialed for them. -/
theorem Seeks.share (hunread : site.Unread) (hundisturbed : Undisturbed (site.history between))
    (hopen : final.registry.closed = false) :
    rootScans (site.history between) ≤ 1 ∧
      (dialed (site.history between) = [] ∧
          (∀ who key, Seeks ((Site.start store config dialer faults).history (moves ++ between))
            config.root site who key → ∀ outcome, final.progress? who ≠ some (.finished outcome)) ∨
        ∃ early stamp rows, Shared (site.history between) early stamp rows ∧
          ∀ who key outcome, Seeks ((Site.start store config dialer faults).history (moves ++ between))
            config.root site who key → final.progress? who = some (.finished outcome) →
              ∃ listing, outcome = .ok (.connections listing) ∧
                (listing = early.found stamp rows key ∨
                  ∃ late, (late, .step who) ∈ site.history between ∧
                    late.progress? who = some (.looking key) ∧
                    late.registry.cache.filled.isSome = true ∧
                    ∃ entry ∈ site.history between, entry.1.Rereads entry.2)) := by
  have hcache : final.registry.cache.closed = false := by
    by_contra hclosed
    have hfinal : (Site.start store config dialer faults).run (moves ++ between) = some final := by
      rw [Site.run_append, hrun]
      exact hbetween
    rw [Site.closed_of_cache_closed hfinal (by simpa using hclosed)] at hopen
    cases hopen
  have hlisting : ∀ who key outcome, Seeks ((Site.start store config dialer faults).history
      (moves ++ between)) config.root site who key → final.progress? who = some (.finished outcome) →
      ∃ listing, outcome = .ok (.connections listing) :=
    fun who key outcome hseeks => hseeks.listing hrun hbetween hundisturbed hopen
  rcases Site.stretch_of_run (Site.arranged_of_run hrun) hunread hbetween hundisturbed hcache with
    hunfilled | ⟨early, stamp, rows, hfilled⟩
  · have hnobody : ∀ who key, Seeks ((Site.start store config dialer faults).history
        (moves ++ between)) config.root site who key →
        ∀ outcome, final.progress? who ≠ some (.finished outcome) := by
      intro who key hseeks outcome hended
      obtain ⟨listing, rfl⟩ := hlisting who key outcome hseeks hended
      obtain ⟨service, -, -, hgoes⟩ := hseeks
      exact hgoes _ (hunfilled.ended who listing hended)
    cases hunfilled.underway with
    | idle hscans hdialed => exact ⟨by omega, .inl ⟨hdialed, hnobody⟩⟩
    | scanning hreader hcurrent hscans hdialed => exact ⟨by omega, .inl ⟨hdialed, hnobody⟩⟩
    | @dialing reader key stamp early rows due hreader hcurrent hshared =>
      exact ⟨hshared.once.le, .inr ⟨early, stamp, rows, hshared, fun who key outcome hseeks hended =>
        absurd hended (hnobody who key hseeks outcome)⟩⟩
  · refine ⟨hfilled.shared.once.le, .inr ⟨early, stamp, rows, hfilled.shared, ?_⟩⟩
    intro who key outcome hseeks hended
    obtain ⟨listing, rfl⟩ := hlisting who key outcome hseeks hended
    refine ⟨listing, rfl, ?_⟩
    rcases hfilled.ended who listing hended with hbefore | hhanded
    · obtain ⟨service, -, -, hgoes⟩ := hseeks
      exact absurd hbefore (hgoes _)
    · exact hhanded.of_seeks hrun hbetween hseeks

end

/-- One reading at most is behind the gate. Between two readings of the root by callers the store has failed
the first or a new generation has begun. If nothing disturbs them, all callers who come to a cache that is to
be filled share one scan of the root and its dials: none fails, each can go on to its end, and each has the
list that the scan has found, unless it has come when the cache was filled and the watcher has read the
store since. A reading that fails does nothing to the cache, and the next caller in the line reads for
itself. -/
theorem single_flight {store : Store} {config : Config} {dialer : Dialer} {faults : Faults}
    {moves : List Move} {site : Site}
    (hrun : (Site.start store config dialer faults).run moves = some site) :
    (∀ first second errand other build reach,
      site.progress? first = some (.building errand build) → build.isInside = true →
      site.progress? second = some (.building other reach) → reach.isInside = true → first = second) ∧
    (∀ first second key other stamp taken between later, site.Stamps first (.resolve key) stamp →
      (site.step first).run between = some later → later.Stamps second (.resolve other) taken →
        (∃ early, (early, .step first) ∈ (site.step first).history between ∧
            early.Fails first (.resolve key)) ∨
          stamp.generation < taken.generation ∧
            ∃ entry ∈ (site.step first).history between, entry.1.renews entry.2 = true) ∧
    (∀ between final, site.Unread → site.run between = some final →
      Undisturbed (site.history between) → final.registry.closed = false →
        rootScans (site.history between) ≤ 1 ∧
        (dialed (site.history between) = [] ∧
            (∀ who key, Seeks ((Site.start store config dialer faults).history (moves ++ between))
              config.root site who key → ∀ outcome, final.progress? who ≠ some (.finished outcome)) ∨
          ∃ early stamp rows, Shared (site.history between) early stamp rows ∧
            ∀ who key outcome, Seeks ((Site.start store config dialer faults).history (moves ++ between))
              config.root site who key → final.progress? who = some (.finished outcome) →
                ∃ listing, outcome = .ok (.connections listing) ∧
                  (listing = early.found stamp rows key ∨
                    ∃ late, (late, .step who) ∈ site.history between ∧
                      late.progress? who = some (.looking key) ∧
                      late.registry.cache.filled.isSome = true ∧
                      ∃ entry ∈ site.history between, entry.1.Rereads entry.2)) ∧
        ∀ who key, Seeks ((Site.start store config dialer faults).history (moves ++ between))
          config.root site who key → (∀ outcome, final.progress? who ≠ some (.finished outcome)) →
            Site.Ends Progress.isSeeking final who) ∧
    ∀ who errand, site.canStep who = true → site.Fails who errand →
      (site.step who).registry.cache = site.registry.cache ∧
      (site.step who).registry.gate = site.registry.gate.release ∧
      (∀ key, errand = .resolve key → site.registry.cache.filled = none ∧
        ∃ e, (site.step who).progress? who = some (.finished (.error e))) ∧
      ∀ next rest key, site.registry.gate.line = who :: next :: rest →
        site.progress? next = some (.building (.resolve key) .queued) →
        site.registry.cache.closed = false → site.registry.cache.filled = none →
          ∃ mid stamp, (site.step who).run [.step next] = some mid ∧ mid.canStep next = true ∧
            mid.Stamps next (.resolve key) stamp := by
  have harranged := Site.arranged_of_run hrun
  refine ⟨?_, ?_, ?_, ?_⟩
  · intro first second errand other build reach hfirst hinside hsecond hreached
    exact (harranged.orderly.unique hfirst hinside hsecond hreached).1
  · intro first second key other stamp taken between later hstamps hbetween hlater
    exact Site.renewed_between harranged hstamps hbetween hlater
  · intro between final hunread hbetween hundisturbed hopen
    obtain ⟨hle, hshare⟩ := Seeks.share hrun hbetween hunread hundisturbed hopen
    exact ⟨hle, hshare, fun who key hseeks => hseeks.ends hrun hbetween hundisturbed hopen⟩
  · intro who errand hready hfails
    obtain ⟨hcache, hgate, htold⟩ := hfails.step
    refine ⟨hcache, hgate, fun key herrand => ⟨?_, htold key herrand⟩,
      fun next rest key hline => harranged.next_reads hready hfails hline⟩
    obtain ⟨stamp, flight, e, mid, hactivity, -⟩ := hfails
    subst herrand
    exact harranged.orderly.resolving who key _ (Site.progress?_of_activity hactivity) rfl

/-- Two callers come at once. The first reads the root while the second waits at the gate, and the second
finds its list in the cache. -/
def twoAtOnce : List Move :=
  [.request (.put "svc/chat/10.0.0.1:9000" "" none), .call (.getConnections "chat"),
    .call (.getConnections "chat"), .step 1, .step 1, .step 2, .step 2, .step 1, .step 1, .step 1,
    .step 1, .step 2]

theorem single_flight_two_at_once :
    ∃ final listing, Site.sample.run twoAtOnce = some final ∧
      final.progress? 1 = some (.finished (.ok (.connections listing))) ∧
      final.progress? 2 = some (.finished (.ok (.connections listing))) ∧
      listing.connections.length = 1 ∧
      ∃ early stamp rows, Shared (Site.sample.history twoAtOnce) early stamp rows := by
  obtain ⟨final, hfinal⟩ : ∃ final, Site.sample.run twoAtOnce = some final :=
    Option.isSome_iff_exists.1 rfl
  obtain ⟨key, hkey⟩ : ∃ key, ServiceKey.make "svc" "chat" = .ok key := ⟨_, rfl⟩
  have hopen : (Site.sample.run twoAtOnce).map (fun site => site.registry.closed) = some false := rfl
  have hfirst : (Site.sample.run twoAtOnce).bind (fun site => site.progress? 1) =
      some (.finished (.ok (.connections
        ⟨⟨0, 0, 1, 0⟩, [⟨"10.0.0.1:9000", [⟨⟨"10.0.0.1:9000", "", none⟩, none, []⟩]⟩]⟩))) := rfl
  have hsecond : (Site.sample.run twoAtOnce).bind (fun site => site.progress? 2) =
      some (.finished (.ok (.connections
        ⟨⟨0, 0, 1, 0⟩, [⟨"10.0.0.1:9000", [⟨⟨"10.0.0.1:9000", "", none⟩, none, []⟩]⟩]⟩))) := rfl
  have hundisturbed : Undisturbed (Site.sample.history twoAtOnce) := undisturbed_of_all rfl
  rw [hfinal] at hopen hfirst hsecond
  refine ⟨final, _, hfinal, hfirst, hsecond, rfl, ?_⟩
  obtain ⟨-, ⟨-, hnobody⟩ | ⟨early, stamp, rows, hshared, -⟩, -⟩ :=
    (@single_flight _ _ _ _ [] _ rfl).2.2.1 twoAtOnce final Site.unread_start hfinal hundisturbed
      (Option.some.inj hopen)
  · have hcalls : Calls (Site.sample.history twoAtOnce) 1 (.getConnections "chat") :=
      ⟨_, .tail _ (.head _), rfl⟩
    exact absurd hfirst (hnobody 1 key ⟨"chat", hkey, hcalls, nofun⟩ _)
  · exact ⟨early, stamp, rows, hshared⟩

end ServiceRegistry
