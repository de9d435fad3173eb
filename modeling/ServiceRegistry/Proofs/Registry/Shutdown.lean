import ServiceRegistry.Proofs.Registry.Coherence
import ServiceRegistry.Proofs.Registry.Draining

/-!
# A registry after its end

From the first step of a call that closes the registry on, new calls are turned away at once. When the
first of these calls has returned, nothing of the registry is left in the cache or at the registrar, the
watcher only lets go, and callers who are still waiting are told of an error. And unless a revocation has
failed, no key is attached to a lease of the registry, whoever was at the registrar when it was closed.
-/
namespace ServiceRegistry

/-- The calls that a closed registry turns away. -/
def Call.isGuarded : Call → Bool
  | .register _ _ _ | .unregister | .getConnections _ | .getConnection _ _ => true
  | .addOptions _ | .invalidate | .close => false

/-- A call to close the registry takes its first step. -/
def Site.BeginsToClose (site : Site) (move : Move) : Prop :=
  ∃ who, move = .step who ∧ site.progress? who = some (.calling .close)

/-- The first call to close the registry. -/
def ClosesFirst (past : List (Site × Move)) (who : Nat) : Prop :=
  ∃ before site after, past = before ++ (site, .step who) :: after ∧
    site.progress? who = some (.calling .close) ∧ ∀ entry ∈ before, ¬ entry.1.BeginsToClose entry.2

theorem ClosesFirst.append {past : List (Site × Move)} {who : Nat} (h : ClosesFirst past who)
    (later : List (Site × Move)) : ClosesFirst (past ++ later) who := by
  obtain ⟨before, site, after, rfl, hrest⟩ := h
  exact ⟨before, site, after ++ later, by simp, hrest⟩

/-- The first call to close the registry has taken its first step earlier, or takes it now. -/
theorem ClosesFirst.of_append {past : List (Site × Move)} {site : Site} {move : Move} {who : Nat}
    (h : ClosesFirst (past ++ [(site, move)]) who) :
    ClosesFirst past who ∨ move = .step who ∧ site.progress? who = some (.calling .close) ∧
      ∀ entry ∈ past, ¬ entry.1.BeginsToClose entry.2 := by
  obtain ⟨before, early, after, hpast, hcalling, hfirst⟩ := h
  rcases List.eq_nil_or_concat after with rfl | ⟨after, last, rfl⟩
  · obtain ⟨rfl, hlast⟩ := List.append_inj' hpast rfl
    cases hlast
    exact .inr ⟨rfl, hcalling, hfirst⟩
  · rw [List.concat_eq_append, ← List.cons_append, ← List.append_assoc] at hpast
    obtain ⟨rfl, -⟩ := List.append_inj' hpast rfl
    exact .inl ⟨before, early, after, rfl, hcalling, hfirst⟩

theorem ClosesFirst.begins {past : List (Site × Move)} {who : Nat} (h : ClosesFirst past who) :
    ∃ entry ∈ past, entry.1.BeginsToClose entry.2 := by
  obtain ⟨before, site, after, rfl, hcalling, -⟩ := h
  exact ⟨(site, .step who), by simp, who, rfl, hcalling⟩

namespace Site

section
variable {store : Store} {config : Config} {dialer : Dialer} {faults : Faults} {moves : List Move}
  {site : Site}

/-- The first step of the first call to close a registry. -/
theorem step_close (hopen : site.registry.closed = false) {who : Nat}
    (hactivity : site.registry.activities[who]? = some ⟨.calling .close, false⟩) :
    (site.step who).progress? who = some (.unregistering true .queued) ∧
      (site.step who).registry.closed = true := by
  have hresult : site.stepFrom who (.calling .close) = (.unregistering true .queued,
      (site.mapRegistry fun registry =>
        { registry with closed := true }.cancel Registry.watcher).enterRegistrar who) := by
    simp only [stepFrom, stepCalling, hopen, Bool.false_eq_true, if_false]
  have hframe := site.frame_stepFrom who (.calling .close)
  rw [hresult] at hframe
  rw [step_of_activity hactivity, hresult]
  exact ⟨progress?_settle_self hframe _ (progress?_of_activity hactivity), rfl⟩

/-- A registry is open until a call to close it takes its first step, and closed from then on. -/
theorem closed_iff_of_run (hrun : (start store config dialer faults).run moves = some site) :
    site.registry.closed = true ↔
      ∃ entry ∈ (start store config dialer faults).history moves, entry.1.BeginsToClose entry.2 := by
  refine history_induction (P := fun past site => site.registry.closed = true ↔
    ∃ entry ∈ past, entry.1.BeginsToClose entry.2) ?_ ?_ hrun
  · refine ⟨fun hclosed => absurd hclosed Bool.false_ne_true, ?_⟩
    rintro ⟨entry, hmem, -⟩
    cases hmem
  · intro before mid move after hbefore ih hmove
    have hbacked := (inLine_of_run hbefore).2
    constructor
    · intro hclosed
      by_cases hmid : mid.registry.closed = true
      · obtain ⟨entry, hmem, hbegins⟩ := ih.1 hmid
        exact ⟨entry, List.mem_append_left _ hmem, hbegins⟩
      · refine ⟨(mid, move), by simp, ?_⟩
        by_contra hother
        have hopen := open_of_after (by simpa using hmid) hmove fun who hstep hcalling =>
          hother ⟨who, hstep, hcalling⟩
        rw [hclosed] at hopen
        cases hopen
    · rintro ⟨entry, hmem, hbegins⟩
      by_cases hmid : mid.registry.closed = true
      · exact closed_of_after hmid hmove
      · rcases List.mem_append.1 hmem with hearlier | hlast
        · exact absurd (ih.2 ⟨entry, hearlier, hbegins⟩) hmid
        · cases List.mem_singleton.1 hlast
          obtain ⟨who, rfl, hcalling⟩ := hbegins
          obtain ⟨-, rfl⟩ := of_after_step hmove
          exact (step_close (by simpa using hmid) (hbacked.activity_of_progress? hcalling rfl)).2

/-! ## The end is over when the first call has returned -/

/-- A client never takes back that it has closed the store. -/
theorem closes_le_of_after {site after : Site} {move : Move} (h : site.after move = some after) :
    site.client.closes ≤ after.client.closes := by
  cases acted_of_after h with
  | deed hactivity hready hdeed hframe =>
    rcases hdeed.closing_cases with ⟨-, hcalls, -⟩ | ⟨-, -, -, -, hcalls⟩ | ⟨outcome, -, -, rfl⟩ |
      ⟨-, -, rfl⟩
    · exact hcalls.ge
    · exact hcalls.ge
    · exact le_rfl
    · show site.client.closes ≤ (ClientEvent.close :: site.client.log).countP ClientEvent.isClose
      rw [List.countP_cons_of_pos rfl]
      exact Nat.le_succ _
  | outside hother hcall hregistry hclient => rw [hclient]
  | _ => exact le_rfl

theorem Ending.over_of_closes {site : Site} (h : site.Ending) (hcloses : 1 ≤ site.client.closes) :
    site.Over := by
  cases h with
  | going _ _ hnone => omega
  | departing _ _ _ _ hnone => omega
  | leaving _ _ _ _ hnone => omega
  | ended hover => exact hover

/-- A call that closes the registry goes on to do so until it has closed the store. -/
theorem closing_of_step {site after : Site} {who : Nat} {progress : Progress}
    (hbacked : site.Backed) (hclosed : site.registry.closed = true)
    (hprogress : site.progress? who = some progress) (hclosing : progress.isClosing = true)
    (hmove : site.after (.step who) = some after) :
    after.Stands Progress.isClosing who ∨ 1 ≤ after.client.closes := by
  have hcall : progress.isBackground = false := by
    by_contra hbackground
    rw [Progress.not_isClosing_of_isBackground (by simpa using hbackground)] at hclosing
    cases hclosing
  have hactivity := hbacked.activity_of_progress? hprogress hcall
  obtain ⟨next, mid, rfl, hdeed, hframe⟩ := deed_of_after hactivity hmove
  have hself := progress?_settle_self hframe next hprogress
  rcases hdeed.closing_cases with ⟨-, -, hkeeps, -⟩ | ⟨-, -, hopen, -⟩ | ⟨outcome, -, rfl, -⟩ |
    ⟨-, -, rfl⟩
  · exact .inl ⟨next, hself, hkeeps.trans hclosing⟩
  · rw [hclosed] at hopen
    cases hopen
  · exact .inl ⟨_, hself, rfl⟩
  · right
    show 1 ≤ (ClientEvent.close :: site.client.log).countP ClientEvent.isClose
    rw [List.countP_cons_of_pos rfl]
    exact Nat.le_add_left 1 _

/-- The first call to close a registry is on its way to close the store, or has closed it. -/
theorem closer_of_run (hrun : (start store config dialer faults).run moves = some site) {who : Nat}
    (hfirst : ClosesFirst ((start store config dialer faults).history moves) who) :
    site.Stands Progress.isClosing who ∨ 1 ≤ site.client.closes := by
  refine history_induction (P := fun past site => ClosesFirst past who →
    site.Stands Progress.isClosing who ∨ 1 ≤ site.client.closes) ?_ ?_ hrun hfirst
  · rintro ⟨before, site, after, hpast, -⟩
    cases before <;> cases hpast
  · intro before mid move after hbefore ih hmove hfirst
    have hbacked := (inLine_of_run hbefore).2
    rcases hfirst.of_append with hearlier | ⟨rfl, hcalling, hnone⟩
    · rcases ih hearlier with ⟨progress, hprogress, hclosing⟩ | hcloses
      · by_cases hother : move = .step who
        · subst hother
          exact closing_of_step hbacked ((closed_iff_of_run hbefore).2 hearlier.begins) hprogress
            hclosing hmove
        · exact .inl ⟨progress, progress?_of_other hmove hother hprogress, hclosing⟩
      · exact .inr (hcloses.trans (closes_le_of_after hmove))
    · have hopen : mid.registry.closed = false := by
        by_contra hclosed
        obtain ⟨entry, hmem, hbegins⟩ := (closed_iff_of_run hbefore).1 (by simpa using hclosed)
        exact hnone entry hmem hbegins
      obtain ⟨-, rfl⟩ := of_after_step hmove
      have hstep := step_close hopen (hbacked.activity_of_progress? hcalling rfl)
      exact .inl ⟨_, hstep.1, rfl⟩

/-- Once the first call to close a registry has returned, the end is over. -/
theorem over_of_returned (hrun : (start store config dialer faults).run moves = some site) {who : Nat}
    (hfirst : ClosesFirst ((start store config dialer faults).history moves) who)
    {outcome : Except Error Outcome} (hreturned : site.progress? who = some (.finished outcome)) :
    site.Over := by
  rcases closer_of_run hrun hfirst with ⟨progress, hprogress, hclosing⟩ | hcloses
  · rw [hreturned] at hprogress
    cases hprogress
    cases hclosing
  · exact (ending_of_run hrun).over_of_closes hcloses

end

/-! ## What is left when the end is over -/

theorem draining_of_run {store : Store} {config : Config} {dialer : Dialer} {faults : Faults}
    {moves : List Move} {site : Site}
    (hrun : (start store config dialer faults).run moves = some site)
    (hemptied : site.registry.cache.Sealed) : site.Draining :=
  ⟨hemptied, queues_of_run hrun, orderly_of_run hrun, (inLine_of_run hrun).2⟩

/-- A caller who is after the connections of a service has no chance to get a list any more, and the next
of its steps that does not lead on tells it of an error. -/
theorem Draining.sought_or_told {site after : Site} {move : Move} {who : Nat} {key : ServiceKey}
    (h : site.Draining) (hmove : site.after move = some after)
    (hcaller : ∃ progress, site.progress? who = some progress ∧
      (progress.sought? = some key ∨ ∃ e, progress = .finished (.error e))) :
    ∃ progress, after.progress? who = some progress ∧
      (progress.sought? = some key ∨ ∃ e, progress = .finished (.error e)) := by
  obtain ⟨progress, hprogress, hcaller⟩ := hcaller
  by_cases hother : move = .step who
  · subst hother
    rcases hcaller with hsought | ⟨e, rfl⟩
    · have hcall : progress.isBackground = false := by
        cases progress with
        | looking other => rfl
        | building errand build =>
          cases errand with
          | resolve other => rfl
          | _ => cases hsought
        | _ => cases hsought
      have hactivity := h.backed.activity_of_progress? hprogress hcall
      obtain ⟨-, rfl⟩ := of_after_step hmove
      refine ⟨_, progress?_step hactivity, ?_⟩
      rw [if_neg (by simp [Activity.isDropped])]
      cases progress with
      | looking other =>
        right
        exact ⟨.closed, by simp [stepFrom, stepLooking, Cache.lookup, h.emptied.closed]⟩
      | building errand build =>
        cases errand with
        | resolve other =>
          cases hsought
          have haway := turnedAway_stepBuild h.emptied.closed who (.resolve key) build
          cases hbuilding : (site.stepBuild who (.resolve key) build).1.isBuilding with
          | true =>
            obtain ⟨later, hlater, -⟩ := haway.goes hbuilding
            left
            show Progress.sought? (site.stepBuild who _ build).1 = _
            rw [hlater]
            rfl
          | false => exact .inr (haway.told key rfl hbuilding)
        | _ => cases hsought
      | _ => cases hsought
    · exact ⟨_, finished_of_after hprogress hmove, .inr ⟨e, rfl⟩⟩
  · exact ⟨progress, progress?_of_other hmove hother hprogress, hcaller⟩

/-- A caller who is after the connections of a service can be told of an error. -/
theorem Draining.caller_told {site : Site} (h : site.Draining) {who : Nat} {key : ServiceKey}
    {progress : Progress} (hprogress : site.progress? who = some progress)
    (hsought : progress.sought? = some key) :
    ∃ moves later e, site.run moves = some later ∧
      later.progress? who = some (.finished (.error e)) := by
  cases progress with
  | looking other =>
    have hactivity := h.backed.activity_of_progress? hprogress rfl
    refine ⟨[.step who], _, .closed, run_step (canStep_of_due hactivity rfl (Nat.zero_le _)), ?_⟩
    rw [progress?_step hactivity]
    simp [Activity.isDropped, stepFrom, stepLooking, Cache.lookup, h.emptied.closed]
  | building errand build =>
    cases errand with
    | resolve other => exact h.reader_told hprogress
    | _ => cases hsought
  | _ => cases hsought

/-- No lease is kept when the end is over. -/
theorem Over.not_keeps {site : Site} (h : site.Over) (hline : site.InLine) (hstanding : site.Standing)
    (lease : LeaseId) : ¬ site.Keeps lease := by
  rintro (⟨current, hactive, -⟩ | ⟨who, progress, hprogress, hlease⟩)
  · rw [h.vacant.active] at hactive
    cases hactive
  · have hidle := (h.vacant.unregistered hline hstanding).1 who progress hprogress
    rw [Progress.isPending_of_lease? hlease] at hidle
    cases hidle

/-- The watcher of a closed registry only lets go. -/
theorem Tended.step_watcher {site : Site} (h : site.Tended) (hclosed : site.registry.closed = true) :
    (site.step Registry.watcher).toLink = site.toLink := by
  obtain ⟨progress, hactivity⟩ := h.closing hclosed
  rw [step, hactivity]
  by_cases hdropped : Activity.isDropped ⟨progress, true⟩ = true
  · simp only [hdropped, if_true]
    rfl
  · cases progress with
    | finished outcome => rfl
    | _ => exact absurd rfl hdropped

/-- A closed registry turns new calls away at once. -/
theorem step_of_closed {site : Site} (hbacked : site.Backed) (hclosed : site.registry.closed = true)
    {who : Nat} {call : Call} (hcalling : site.progress? who = some (.calling call))
    (hguarded : call.isGuarded = true) :
    site.canStep who = true ∧ site.step who = site.settle who (.finished (.error .closed)) := by
  have hactivity := hbacked.activity_of_progress? hcalling rfl
  refine ⟨canStep_of_due hactivity rfl (Nat.zero_le _), ?_⟩
  rw [step_of_activity hactivity]
  cases call with
  | addOptions | invalidate | close => cases hguarded
  | _ => simp only [stepFrom, stepCalling, Registry.ensureOpen, hclosed, if_true]

end Site

/-- After the first step of a call that closes the registry, a call that registers, unregisters or asks for
connections ends at its own first step with the error that the registry is closed, and nothing else
changes. The store is closed at most once. When the first call that closes the registry has returned, the
cache is empty for good, callers who are after a list can be told of an error and come to nothing else, a
step of the watcher is no business of the store, and the status is unregistered for good. If besides no
revocation has failed, no key is attached to a lease that was granted to the registry. -/
theorem close_terminal_and_complete {store : Store} {config : Config} {dialer : Dialer}
    {faults : Faults} {moves : List Move} {final : Site}
    (hrun : (Site.start store config dialer faults).run moves = some final) :
    ((∃ entry ∈ (Site.start store config dialer faults).history moves,
        entry.1.BeginsToClose entry.2) →
      ∀ who call, final.progress? who = some (.calling call) → call.isGuarded = true →
        final.canStep who = true ∧ final.step who = final.settle who (.finished (.error .closed))) ∧
    final.client.closes ≤ 1 ∧
    ∀ closer outcome, ClosesFirst ((Site.start store config dialer faults).history moves) closer →
      final.progress? closer = some (.finished outcome) →
        ∀ later last, final.run later = some last →
          last.registry.cache.entries = [] ∧ last.registry.cache.filled = none ∧
          (∀ who progress key, final.progress? who = some progress → progress.sought? = some key →
            (∀ result, last.progress? who = some (.finished result) → ∃ e, result = .error e) ∧
            ∃ further latest e, last.run further = some latest ∧
              latest.progress? who = some (.finished (.error e))) ∧
          (last.step Registry.watcher).toLink = last.toLink ∧
          last.registry.registrar.status = .unregistered ∧
          (Reliable store faults →
            RevocationsSucceed ((Site.start store config dialer faults).history (moves ++ later)) →
            ∀ lease, Granted ((Site.start store config dialer faults).history (moves ++ later)) lease →
              ∀ key, last.store.leaseOf key ≠ some lease) := by
  refine ⟨fun hbegun who call hcalling hguarded => ?_, (Site.ending_of_run hrun).closes_le, ?_⟩
  · exact Site.step_of_closed (Site.inLine_of_run hrun).2 ((Site.closed_iff_of_run hrun).2 hbegun)
      hcalling hguarded
  · intro closer outcome hfirst hreturned later last hlater
    have hlast : (Site.start store config dialer faults).run (moves ++ later) = some last := by
      rw [Site.run_append, hrun]
      exact hlater
    have hover : last.Over := by
      refine Site.over_of_returned hlast ?_ (Site.finished_of_run hreturned hlater)
      rw [Site.history_append hrun]
      exact hfirst.append _
    obtain ⟨hline, -⟩ := Site.inLine_of_run hlast
    have hstanding := Site.standing_of_run hlast
    refine ⟨hover.emptied.entries, hover.emptied.filled, ?_,
      (Site.tended_of_run hlast).step_watcher hover.closed, (hover.vacant.unregistered hline hstanding).2, ?_⟩
    · intro who progress key hprogress hsought
      have hdraining := Site.draining_of_run hrun (Site.over_of_returned hrun hfirst hreturned).emptied
      obtain ⟨-, now, hnow, hcaller⟩ := Site.run_induction
        (P := fun site => site.Draining ∧ ∃ progress, site.progress? who = some progress ∧
          (progress.sought? = some key ∨ ∃ e, progress = .finished (.error e)))
        ⟨hdraining, progress, hprogress, .inl hsought⟩
        (fun _ _ _ ⟨hsite, hcaller⟩ hmove => ⟨hsite.moved hmove, hsite.sought_or_told hmove hcaller⟩)
        hlater
      constructor
      · intro result hresult
        rw [hresult] at hnow
        cases hnow
        rcases hcaller with hnone | ⟨e, he⟩
        · cases hnone
        · cases he
          exact ⟨e, rfl⟩
      · rcases hcaller with hseeks | ⟨e, rfl⟩
        · exact (hdraining.run hlater).caller_told hnow hseeks
        · exact ⟨[], last, e, rfl, hnow⟩
    · intro hreliable hrevoked lease hgranted key hkey
      have hkept := (kept_of_run hreliable hlast hrevoked).kept lease hgranted (.inr ⟨key, hkey⟩)
      exact hover.not_keeps hline hstanding lease hkept

/-- One call asks for connections and one registers an instance. Another one closes the registry when the
first reads the store and the second waits for the answer to its first request. -/
def closedMeanwhile : List Move :=
  [.call (.getConnections "chat"), .step 1, .step 1, .step 1, .step 1,
    .call (.register "chat" "10.0.0.1" 9000), .step 2, .step 2,
    .call .close, .step 3, .call .unregister,
    .step 2, .step 2, .step 2, .step 2, .step 3, .step 3, .step 3, .step 3, .step 3]

theorem close_terminal_and_complete_meanwhile :
    ∃ final key, Site.sample.run closedMeanwhile = some final ∧
      ClosesFirst (Site.sample.history closedMeanwhile) 3 ∧
      final.progress? 3 = some (.finished (.ok .done)) ∧
      Granted (Site.sample.history closedMeanwhile) ⟨1⟩ ∧
      RevocationsSucceed (Site.sample.history closedMeanwhile) ∧
      final.step 4 = final.settle 4 (.finished (.error .closed)) ∧
      final.client.closes ≤ 1 ∧ final.registry.cache.entries = [] ∧
      (final.progress? 1).bind Progress.sought? = some key ∧
      (∃ further latest e, final.run further = some latest ∧
        latest.progress? 1 = some (.finished (.error e))) ∧
      final.registry.registrar.status = .unregistered ∧
      ∀ key, final.store.leaseOf key ≠ some ⟨1⟩ := by
  obtain ⟨final, hfinal⟩ : ∃ final, Site.sample.run closedMeanwhile = some final :=
    Option.isSome_iff_exists.1 rfl
  -- where the first call to close the registry takes its first step
  obtain ⟨mid, hmid⟩ : ∃ mid, Site.sample.run (closedMeanwhile.take 9) = some mid :=
    Option.isSome_iff_exists.1 rfl
  have hcloses : (Site.sample.run (closedMeanwhile.take 9)).bind (fun site => site.progress? 3) =
      some (.calling .close) := rfl
  have hopen : (Site.sample.run (closedMeanwhile.take 9)).map (fun site => site.registry.closed) =
      some false := rfl
  rw [hmid] at hcloses hopen
  have hfirst : ClosesFirst (Site.sample.history closedMeanwhile) 3 := by
    refine ⟨_, mid, _, (Site.history_append hmid (closedMeanwhile.drop 9)), hcloses,
      fun entry hmem hbegins => ?_⟩
    have hclosed := (Site.closed_iff_of_run hmid).2 ⟨entry, hmem, hbegins⟩
    exact absurd (hclosed.symm.trans (Option.some.inj hopen)) Bool.noConfusion
  -- where the lease is granted
  obtain ⟨asking, hasking⟩ : ∃ asking, Site.sample.run (closedMeanwhile.take 11) = some asking :=
    Option.isSome_iff_exists.1 rfl
  let chat : EndpointKey := ⟨⟨"svc", "chat", by decide, by decide⟩, "10.0.0.1:9000"⟩
  have hgranting : (Site.sample.run (closedMeanwhile.take 11)).bind
      (fun site => site.registry.activities[2]?) =
        some ⟨.registering chat (.granting ⟨.grant 30, .plain, 0⟩), false⟩ := rfl
  have hgrant : (Site.sample.run (closedMeanwhile.take 11)).map
      (fun site => (site.receive (⟨.grant 30, .plain, 0⟩ : Flight .grant)).1) =
        some (.ok ⟨1⟩) := rfl
  rw [hasking] at hgranting hgrant
  have hgranted : Granted (Site.sample.history closedMeanwhile) ⟨1⟩ :=
    ⟨asking, 2, Site.mem_history_of_run hasking (.step 2) (closedMeanwhile.drop 12),
      chat, _, _, hgranting, Prod.ext (Option.some.inj hgrant) rfl⟩
  have hrevoked : RevocationsSucceed (Site.sample.history closedMeanwhile) := by decide
  have hreturned : (Site.sample.run closedMeanwhile).bind (fun site => site.progress? 3) =
      some (.finished (.ok .done)) := rfl
  have hcalling : (Site.sample.run closedMeanwhile).bind (fun site => site.progress? 4) =
      some (.calling .unregister) := rfl
  have hsought : (Site.sample.run closedMeanwhile).map (fun site =>
      (site.progress? 1).bind Progress.sought?) = some (some chat.service) := rfl
  rw [hfinal] at hreturned hcalling hsought
  obtain ⟨hturned, honce, hreturn⟩ := close_terminal_and_complete hfinal
  obtain ⟨hentries, -, htold, -, hstatus, hleases⟩ := hreturn 3 _ hfirst hreturned [] final rfl
  have hsought := Option.some.inj hsought
  obtain ⟨progress, hprogress, hseeks⟩ := Option.bind_eq_some_iff.1 hsought
  exact ⟨final, _, hfinal, hfirst, hreturned, hgranted, hrevoked,
    (hturned hfirst.begins 4 .unregister hcalling rfl).2, honce, hentries, hsought,
    (htold 1 progress _ hprogress hseeks).2, hstatus,
    hleases reliable_empty hrevoked ⟨1⟩ hgranted⟩

end ServiceRegistry
