import ServiceRegistry.Proofs.Registry.Attachment

/-!
# The end of a registration

An unregistration takes the active registration away from the registrar before it asks the store for
anything, and gives it back on no way out. It asks for two things, the deletion of the key and the
revocation of the lease, and each of them may be carried out or not, whatever the answer says. So when it
fails, the key is still attached to its live lease just if the store has carried out neither of the two,
and the registry knows of its registration in no case.
-/
namespace ServiceRegistry

/-- What an unregistration of the registration asks for. -/
def Unregistering.Ends (current : Active) : Unregistering → Prop
  | .queued => False
  | .deleting lease flight =>
    lease = current.lease ∧ flight.request = .delete current.key.text
  | .revoking _ flight => flight.request = .revoke current.lease
  | .leaving _ => True

theorem Unregistering.Ends.isHandled {current : Active} {stage : Unregistering}
    (h : stage.Ends current) (closing : Bool) :
    (Progress.unregistering closing stage).isHandled = true := by
  cases stage with
  | queued => cases h
  | _ => rfl

/-- The key is not attached to the lease, or the lease is not live. -/
def Store.Parted (store : Store) (key : String) (lease : LeaseId) : Prop :=
  store.leaseOf key ≠ some lease ∨ store.isLive lease = false

namespace Store

theorem Carries.not_parted {store : Store} {key : EndpointKey} {lease : LeaseId}
    (h : store.Carries key lease) : ¬ store.Parted key.text lease := by
  obtain ⟨hkey, hlive⟩ := h
  rintro (hother | hdead)
  · exact hother (leaseOf_eq_some.2 ⟨_, hkey⟩)
  · rw [hlive] at hdead
    cases hdead

theorem parted_of_not_involves {store : Store} {lease : LeaseId} (h : ¬ store.Involves lease)
    (key : String) : store.Parted key lease :=
  .inl fun hkey => h (.inr ⟨key, hkey⟩)

theorem Parted.same {before after : Store} {key : String} {lease : LeaseId}
    (h : before.Parted key lease) (hsame : before.SameHoldings after) : after.Parted key lease := by
  unfold Parted
  rw [hsame.leaseOf, hsame.isLive]
  exact h

/-- Only a request that is about the key brings it together with a lease that was granted before. -/
theorem Parted.moved {before after : Store} {move : Move} {key : String} {lease : LeaseId}
    (h : before.Parted key lease) (hstore : Site.StoreMoved before move after)
    (hgranted : lease.number ≤ before.granted) (hundisturbed : ¬ move.Disturbs key lease) :
    after.Parted key lease := by
  rcases h with hother | hdead
  · left
    intro hkey
    rcases hstore.leaseOf_cases hkey with hbefore | ⟨m, request, rfl, hattaches⟩
    · exact hother hbefore
    · cases request with
      | put text value given =>
        cases given with
        | none => cases hattaches
        | some id =>
          cases hattaches
          exact hundisturbed (.inl rfl)
      | _ => cases hattaches
  · right
    cases hstore with
    | same hsame => exact (hsame.isLive lease).trans hdead
    | closed => rfl
    | served hserved =>
      by_contra hlive
      rcases hserved.isLive_cases (by simpa using hlive) with hbefore | ⟨rfl, -⟩
      · rw [hdead] at hbefore
        cases hbefore
      · simp only at hgranted
        omega

end Store

namespace Site

/-- Whether the move lets the store carry out what an activity has asked for. -/
def carriesOut (site : Site) (who : Nat) (move : Move) : Bool :=
  match move, (site.progress? who).bind Progress.flight? with
  | .step other, some ⟨_, flight⟩ => other = who && site.toLink.carriesOut flight
  | _, _ => false

/-- An unregistration can take its turn and finds the registration. -/
structure Takes (site : Site) (closing : Bool) (who : Nat) (current : Active) : Prop where
  activity : site.registry.activities[who]? = some ⟨.unregistering closing .queued, false⟩
  active : site.registry.registrar.active = some current

/-- The unregistration is over, or goes on to close cache and store. -/
def HasLeft (site : Site) (who : Nat) : Prop :=
  site.progress? who = some .sealing ∨ ∃ outcome, site.progress? who = some (.finished outcome)

/-- While an activity is handled, the registry does nothing to content and leases but by its steps. -/
theorem InLine.storeMoved_of_other {site after : Site} {move : Move} (h : site.InLine)
    (hbacked : site.Backed) (hending : site.Ending) {who : Nat} {progress : Progress}
    (hprogress : site.progress? who = some progress) (hhandled : progress.isHandled = true)
    (hmove : site.after move = some after) (hother : move ≠ .step who) :
    StoreMoved site.store move after.store := by
  cases h.course hbacked hmove with
  | calm hcalm => exact hcalm.store
  | @deed other former next mid hactivity hready hdeed hframe =>
    have hmet : site.progress? other = some former := progress?_of_activity hactivity
    rcases hdeed.store_cases with ⟨-, hsame⟩ | ⟨m, flight, answer, received, hflight, -⟩ | ⟨rfl, -⟩
    · exact .same hsame fun hsound => hsound.same hsame
    · obtain ⟨rfl, -⟩ := h.handled_unique hmet
        (Progress.isHandled_of_isPending (Progress.isPending_of_flight? hflight)) hprogress hhandled
      exact absurd rfl hother
    · have hmem := (h.queues.mem_line who).2
        ⟨progress, hprogress, Progress.isAtRegistrar_of_isHandled hhandled⟩
      rw [(hending.vacant hmet).line] at hmem
      cases hmem

/-- What an unregistration does in its turn. -/
theorem Takes.after {site next : Site} {closing : Bool} {who : Nat} {current : Active}
    (h : site.Takes closing who current) (hmove : site.after (.step who) = some next) :
    ∃ flight : Flight .delete, flight.request = .delete current.key.text ∧
      next.progress? who = some (.unregistering closing (.deleting current.lease flight)) ∧
      site.store.SameHoldings next.store := by
  obtain ⟨progress, mid, rfl, hdeed, hframe⟩ := deed_of_after h.activity hmove
  cases hdeed with
  | aside hformer => cases hformer
  | lack hactive =>
    rw [h.active] at hactive
    cases hactive
  | remove hactive hsend =>
    rw [h.active] at hactive
    cases hactive
    exact ⟨_, (of_sent hsend).2.1,
      progress?_settle_self hframe _ (progress?_of_activity h.activity), (of_sent hsend).1.store⟩

/-- How far the end of a registration has come, and what has become of its key and its lease since it was
taken at an early site. -/
structure Removal (early : Site) (past : List (Site × Move)) (site : Site) (closing : Bool) (who : Nat)
    (current : Active) (stage : Unregistering) : Prop where
  progress : site.progress? who = some (.unregistering closing stage)
  ends : stage.Ends current
  granted : current.lease.number ≤ site.store.granted
  /-- An unregistration that has succeeded has ended the lease. -/
  revoked : stage = .leaving (.ok ()) → ¬ site.store.Involves current.lease
  kept : early.store.Carries current.key current.lease →
    (∀ entry ∈ past, ¬ entry.2.Disturbs current.key.text current.lease) →
      (∀ entry ∈ past, entry.1.carriesOut who entry.2 = false) →
        site.store.Carries current.key current.lease
  parted : (∀ entry ∈ past, ¬ entry.2.Disturbs current.key.text current.lease) →
    (∃ entry ∈ past, entry.1.carriesOut who entry.2 = true) →
      site.store.Parted current.key.text current.lease

section
variable {past : List (Site × Move)} {early site after : Site} {move : Move} {closing : Bool}
  {who : Nat} {current : Active} {stage : Unregistering} {faults : Faults}

/-- Others leave the end of a registration where it is. -/
theorem Removal.other (h : Removal early past site closing who current stage) (hline : site.InLine)
    (hbacked : site.Backed) (hending : site.Ending) (hmove : site.after move = some after)
    (hother : move ≠ .step who) :
    Removal early (past ++ [(site, move)]) after closing who current stage := by
  have hstore := hline.storeMoved_of_other hbacked hending h.progress (h.ends.isHandled closing)
    hmove hother
  have hidle : site.carriesOut who move = false := by
    unfold carriesOut
    split
    · rename_i other _ flight _
      have hne : other ≠ who := fun he => hother (he ▸ rfl)
      simp [hne]
    · rfl
  have hnot : ¬ site.store.Involves current.lease → ¬ after.store.Involves current.lease := by
    intro hgone hinvolves
    rcases hstore.involves_cases hinvolves with hbefore | hnew
    · exact hgone hbefore
    · have hle := h.granted
      rw [hnew] at hle
      simp only at hle
      omega
  refine ⟨progress?_of_other hmove hother h.progress, h.ends,
    h.granted.trans (Int.ofNat_le.2 hstore.granted_le), fun hdone => hnot (h.revoked hdone), ?_, ?_⟩
  · intro hcarries hundisturbed hnone
    have hbefore := h.kept hcarries
      (fun entry hmem => hundisturbed entry (List.mem_append_left _ hmem))
      fun entry hmem => hnone entry (List.mem_append_left _ hmem)
    exact hbefore.moved hstore (hundisturbed (site, move) (by simp))
  · rintro hundisturbed ⟨entry, hmem, hcarries⟩
    rcases List.mem_append.1 hmem with hmem | hlast
    · have hbefore := h.parted
        (fun entry hmem => hundisturbed entry (List.mem_append_left _ hmem)) ⟨entry, hmem, hcarries⟩
      exact hbefore.moved hstore h.granted (hundisturbed (site, move) (by simp))
    · cases List.mem_singleton.1 hlast
      rw [hidle] at hcarries
      cases hcarries

/-- What becomes of key and lease, by whether others have disturbed them and whether the store has carried
anything out for the unregistration. -/
def Fates (early : Site) (past : List (Site × Move)) (store : Store) (who : Nat) (current : Active) :
    Prop :=
  (early.store.Carries current.key current.lease →
    (∀ entry ∈ past, ¬ entry.2.Disturbs current.key.text current.lease) →
      (∀ entry ∈ past, entry.1.carriesOut who entry.2 = false) →
        store.Carries current.key current.lease) ∧
  ((∀ entry ∈ past, ¬ entry.2.Disturbs current.key.text current.lease) →
    (∃ entry ∈ past, entry.1.carriesOut who entry.2 = true) →
      store.Parted current.key.text current.lease)

/-- What has become of key and lease after a step of the unregistration. -/
theorem Removal.fates (h : Removal early past site closing who current stage)
    (hcarried : site.carriesOut who (.step who) = true →
      after.store.Parted current.key.text current.lease)
    (hidle : site.carriesOut who (.step who) = false → site.store.SameHoldings after.store) :
    Fates early (past ++ [(site, .step who)]) after.store who current := by
  refine ⟨fun hcarries hundisturbed hnone => ?_, fun hundisturbed hsome => ?_⟩
  · have hbefore := h.kept hcarries (fun entry hmem => hundisturbed entry (List.mem_append_left _ hmem))
      fun entry hmem => hnone entry (List.mem_append_left _ hmem)
    exact hbefore.same (hidle (hnone (site, .step who) (by simp)))
  · cases hlast : site.carriesOut who (.step who) with
    | true => exact hcarried hlast
    | false =>
      obtain ⟨entry, hmem, hcarries⟩ := hsome
      rcases List.mem_append.1 hmem with hmem | hmem
      · have hbefore := h.parted
          (fun entry hmem => hundisturbed entry (List.mem_append_left _ hmem))
          ⟨entry, hmem, hcarries⟩
        exact hbefore.same (hidle hlast)
      · cases List.mem_singleton.1 hmem
        rw [hlast] at hcarries
        cases hcarries

theorem carriesOut_step {progress : Progress} (hprogress : site.progress? who = some progress)
    {m : Method} {flight : Flight m} (hflight : progress.flight? = some ⟨m, flight⟩) :
    site.carriesOut who (.step who) = site.toLink.carriesOut flight := by
  simp [carriesOut, hprogress, hflight]

/-- The answer to a request is taken that parts key and lease if it is carried out. -/
theorem Removal.fates_of_receive {m : Method} {flight : Flight m} {answer : Except Error (Answer m)}
    {received : Site} (h : Removal early past site closing who current stage)
    (hflight : (Progress.unregistering closing stage).flight? = some ⟨m, flight⟩)
    (hreceive : site.receive flight = (answer, received))
    (hholdings : received.store.SameHoldings after.store)
    (hparts : ∀ given, site.store.serve site.clock flight.request = .ok (given, received.store) →
      received.store.Parted current.key.text current.lease) :
    Fates early (past ++ [(site, .step who)]) after.store who current := by
  have hstore : (site.toLink.receive flight).2.store = received.store :=
    congrArg (fun result => result.2.store) hreceive
  have hcarries : site.carriesOut who (.step who) = site.toLink.carriesOut flight :=
    carriesOut_step h.progress hflight
  refine h.fates (fun hout => ?_) fun hout => ?_
  · obtain ⟨given, later, hserve, hlater⟩ := Link.receive_of_carriesOut (hcarries ▸ hout)
    obtain rfl : received.store = later := hstore.symm.trans hlater
    exact (hparts given hserve).same hholdings
  · have hsame := Link.receive_of_not_carriesOut (hcarries ▸ hout)
    rw [hstore] at hsame
    exact hsame ▸ hholdings

/-- The answer to the deletion is taken, and the revocation is asked for. -/
theorem Removal.own_deleting {lease : LeaseId} {former : Flight .delete}
    (h : Removal early past site closing who current (.deleting lease former)) (hbacked : site.Backed)
    (hmove : site.after (.step who) = some after) :
    ∃ next, Removal early (past ++ [(site, .step who)]) after closing who current next := by
  have hactivity := hbacked.activity_of_progress? h.progress rfl
  obtain ⟨next, mid, rfl, hdeed, hframe⟩ := deed_of_after hactivity hmove
  have hself := progress?_settle_self hframe next h.progress
  have hgranted := h.granted.trans (Int.ofNat_le.2 hdeed.granted_le)
  obtain ⟨rfl, hrequest⟩ := h.ends
  cases hdeed with
  | aside hformer => cases hformer
  | @delete _ _ _ flight answer received _ hreceive hsend =>
    obtain ⟨hkept, hparted⟩ : Fates early (past ++ [(site, .step who)]) mid.store who current := by
      refine h.fates_of_receive rfl hreceive (of_sent hsend).1.store fun given hserve => ?_
      have hserved := Store.served_of_serve hserve
      rw [hrequest] at hserved
      cases hserved with
      | read hreads => cases hreads
      | delete hcontent =>
        refine .inl fun hkey => ?_
        rw [Store.leaseOf, hcontent, if_pos rfl] at hkey
        cases hkey
    exact ⟨_, hself, (of_sent hsend).2.1, hgranted, (fun hdone => by cases hdone), hkept, hparted⟩

/-- The answer to the revocation is taken, and the outcome is known. -/
theorem Removal.own_revoking {store : Store} {deleted : Except Error Unit} {former : Flight .revoke}
    (h : Removal early past site closing who current (.revoking deleted former))
    (hreliable : Reliable store faults) (hasks : site.AsksLeases faults) (hbacked : site.Backed)
    (hsound : site.store.Sound) (hmove : site.after (.step who) = some after) :
    ∃ next, Removal early (past ++ [(site, .step who)]) after closing who current next := by
  have hactivity := hbacked.activity_of_progress? h.progress rfl
  obtain ⟨next, mid, rfl, hdeed, hframe⟩ := deed_of_after hactivity hmove
  have hself := progress?_settle_self hframe next h.progress
  have hgranted := h.granted.trans (Int.ofNat_le.2 hdeed.granted_le)
  have hrequest : former.request = .revoke current.lease := h.ends
  cases hdeed with
  | aside hformer => cases hformer
  | @revoke _ _ _ answer received hreceive =>
    obtain ⟨hkept, hparted⟩ : Fates early (past ++ [(site, .step who)]) received.store who current :=
      h.fates_of_receive rfl hreceive (.refl _) fun given hserve =>
        Store.parted_of_not_involves (Store.not_involves_of_revoke (hrequest ▸ hserve)) _
    refine ⟨_, hself, trivial, hgranted, fun hdone => ?_, hkept, hparted⟩
    -- an unregistration succeeds only if the revocation was answered so, or has found no lease
    have hanswer : (site.receive former).1 = .ok () ∨
        ∃ number, (site.receive former).1 = .error (.leaseNotFound number) := by
      have hremoval : removal deleted answer = .ok () := Unregistering.leaving.inj hdone
      rw [hreceive]
      unfold removal at hremoval
      split at hremoval
      · cases hremoval
      · exact .inr ⟨_, rfl⟩
      · cases hremoval
      · exact .inl rfl
    have hgone := not_involves_of_revoked hreliable (hasks.meets who _ _ former h.progress rfl)
      hsound hanswer
    rw [hreceive, hrequest] at hgone
    exact hgone

/-- The unregistration goes on to its next request or to its outcome. -/
theorem Removal.own {store : Store} (h : Removal early past site closing who current stage)
    (hreliable : Reliable store faults) (hasks : site.AsksLeases faults) (hbacked : site.Backed)
    (hsound : site.store.Sound) (hmove : site.after (.step who) = some after)
    (hstage : ∀ outcome, stage ≠ .leaving outcome) :
    ∃ next, Removal early (past ++ [(site, .step who)]) after closing who current next := by
  cases stage with
  | queued => exact h.ends.elim
  | deleting => exact h.own_deleting hbacked hmove
  | revoking => exact h.own_revoking hreliable hasks hbacked hsound hmove
  | leaving outcome => exact absurd rfl (hstage outcome)

/-- The unregistration leaves the registrar. -/
theorem Removal.leaves {outcome : Except Error Unit}
    (h : Removal early past site closing who current (.leaving outcome)) (hbacked : site.Backed)
    (hmove : site.after (.step who) = some after) : after.HasLeft who := by
  have hactivity := hbacked.activity_of_progress? h.progress rfl
  obtain ⟨next, mid, rfl, hdeed, hframe⟩ := deed_of_after hactivity hmove
  have hself := progress?_settle_self hframe next h.progress
  cases hdeed with
  | aside hformer => cases hformer
  | leaveUnregistered => exact .inr ⟨_, hself⟩
  | leaveClosing => exact .inl hself

theorem HasLeft.moved (h : site.HasLeft who) (hbacked : site.Backed)
    (hmove : site.after move = some after) : after.HasLeft who := by
  rcases h with hsealing | ⟨outcome, hended⟩
  · by_cases hother : move = .step who
    · subst hother
      have hactivity := hbacked.activity_of_progress? hsealing rfl
      obtain ⟨next, mid, rfl, hdeed, hframe⟩ := deed_of_after hactivity hmove
      cases hdeed with
      | aside hformer => cases hformer
      | shut => exact .inr ⟨_, progress?_settle_self hframe _ hsealing⟩
    · exact .inl (progress?_of_other hmove hother hsealing)
  · exact .inr ⟨outcome, finished_of_after hended hmove⟩

/-- A store stays as stores are, whatever is done at the site. -/
theorem sound_moved (h : site.store.Sound) (hline : site.InLine) (hbacked : site.Backed)
    (hmove : site.after move = some after) : after.store.Sound := by
  cases hline.course hbacked hmove with
  | deed hactivity hready hdeed hframe => exact hdeed.sound h
  | calm hcalm => exact hcalm.store.sound h

end

section
variable {store : Store} {config : Config} {dialer : Dialer} {faults : Faults}

theorem sound_of_run {moves : List Move} {final : Site} (h : store.Sound)
    (hrun : (start store config dialer faults).run moves = some final) : final.store.Sound := by
  refine history_induction (P := fun _ site => site.store.Sound) h ?_ hrun
  intro before site move after hbefore hsound hmove
  obtain ⟨hline, hbacked⟩ := inLine_of_run hbefore
  exact sound_moved hsound hline hbacked hmove

/-- From when a registration is taken until the registrar is left, its removal goes on. -/
theorem removal_of_run {before later : List Move} {early known : Site} {closing : Bool} {who : Nat}
    {current : Active} (hreliable : Reliable store faults)
    (hbefore : (start store config dialer faults).run before = some early)
    (htakes : early.Takes closing who current)
    (hlater : early.run (.step who :: later) = some known) :
    (∃ stage, Removal early (early.history (.step who :: later)) known closing who current stage) ∨
      known.HasLeft who := by
  obtain ⟨next, hnext, hrest⟩ := Option.bind_eq_some_iff.1 ((run_cons _ _ _).symm.trans hlater)
  have hnumber : current.lease.number ≤ early.store.granted :=
    numbered_of_run hreliable hbefore
      (granted_of_concerns hbefore ((standing_of_run hbefore).concerns_of_active htakes.active))
  rw [history_cons hnext]
  refine history_induction (P := fun past site =>
    (∃ stage, Removal early ((early, .step who) :: past) site closing who current stage) ∨
      site.HasLeft who) ?_ ?_ hrest
  · obtain ⟨flight, hrequest, hprogress, hsame⟩ := htakes.after hnext
    have hqueued : early.carriesOut who (.step who) = false := by
      simp [carriesOut, progress?_of_activity htakes.activity, Progress.flight?]
    left
    refine ⟨_, hprogress, ⟨rfl, hrequest⟩, hsame.granted ▸ hnumber, (fun hdone => by cases hdone), ?_, ?_⟩
    · exact fun hcarries _ _ => hcarries.same hsame
    · rintro - ⟨entry, hmem, hcarries⟩
      cases List.mem_singleton.1 hmem
      rw [hqueued] at hcarries
      cases hcarries
  · intro moves site move after hmoves ih hmove
    have hsite : (start store config dialer faults).run (before ++ .step who :: moves) =
        some site := by
      rw [run_append, hbefore, Option.bind_some, run_cons, hnext]
      exact hmoves
    obtain ⟨hline, hbacked⟩ := inLine_of_run hsite
    rcases ih with ⟨stage, hremoval⟩ | hleft
    · by_cases hother : move = .step who
      · subst hother
        cases stage with
        | leaving outcome => exact .inr (hremoval.leaves hbacked hmove)
        | queued => exact hremoval.ends.elim
        | deleting | revoking =>
          exact .inl (hremoval.own hreliable (asksLeases_of_run hsite) hbacked
            (sound_of_run hreliable.sound hsite) hmove fun _ hstage => by cases hstage)
      · exact .inl ⟨stage, hremoval.other hline hbacked (ending_of_run hsite) hmove hother⟩
    · exact .inr (hleft.moved hbacked hmove)

end

end Site

open Site in
/-- An unregistration that returns without an error has ended the lease and taken its keys away. One that
fails loses nothing as long as the store has carried out one of its two requests; if it has carried out
neither, the key stays attached to its live lease, and the registry has forgotten its registration. -/
theorem unregister_loses_nothing_iff {store : Store} {config : Config} {dialer : Dialer}
    {faults : Faults} {before later : List Move} {early known final : Site} {who : Nat}
    {current : Active} {outcome : Except Error Unit} (hreliable : Reliable store faults)
    (hbefore : (Site.start store config dialer faults).run before = some early)
    (htakes : early.Takes false who current)
    (hlater : early.run (.step who :: later) = some known)
    (hknown : known.progress? who = some (.unregistering false (.leaving outcome)))
    (hreturn : known.after (.step who) = some final) :
    final.progress? who = some (.finished (outcome.map fun _ => .done)) ∧
      (outcome = .ok () → ¬ final.store.Involves current.lease) ∧
      (early.store.Carries current.key current.lease →
        (∀ move ∈ later, ¬ move.Disturbs current.key.text current.lease) →
          ((outcome ≠ .ok () → final.store.Carries current.key current.lease →
              ∃ now, final.registry.registrar.active = some now ∧ now.lease = current.lease) ↔
            ∃ entry ∈ early.history (.step who :: later),
              entry.1.carriesOut who entry.2 = true)) := by
  have hsite : (Site.start store config dialer faults).run (before ++ .step who :: later) =
      some known := by
    rw [run_append, hbefore]
    exact hlater
  obtain ⟨stage, hremoval⟩ : ∃ stage,
      Removal early (early.history (.step who :: later)) known false who current stage := by
    refine (removal_of_run hreliable hbefore htakes hlater).resolve_right ?_
    rintro (hsealing | ⟨ended, hended⟩)
    · rw [hknown] at hsealing
      cases hsealing
    · rw [hknown] at hended
      cases hended
  obtain rfl : stage = .leaving outcome := by
    have hsame := hremoval.progress
    rw [hknown] at hsame
    cases hsame
    rfl
  obtain ⟨hfinished, hstore, hactive⟩ : final.progress? who =
      some (.finished (outcome.map fun _ => .done)) ∧ final.store = known.store ∧
        final.registry.registrar.active = none := by
    have hactivity := (inLine_of_run hsite).2.activity_of_progress? hknown rfl
    obtain ⟨next, mid, rfl, hdeed, hframe⟩ := deed_of_after hactivity hreturn
    cases hdeed with
    | aside hformer => cases hformer
    | leaveUnregistered =>
      exact ⟨progress?_settle_self hframe _ hknown, rfl,
        ((standing_of_run hsite).fits who _ hknown).1⟩
  rw [hstore, hactive]
  refine ⟨hfinished, fun hdone => hremoval.revoked (hdone ▸ rfl), fun hcarries hcalm => ?_⟩
  have hundisturbed : ∀ entry ∈ early.history (.step who :: later),
      ¬ entry.2.Disturbs current.key.text current.lease := by
    intro entry hmem
    rcases List.mem_cons.1 (mem_of_mem_history hmem) with hstep | hmem
    · rw [hstep]
      exact id
    · exact hcalm _ hmem
  constructor
  · intro hknows
    by_contra hnone
    push Not at hnone
    have hstays := hremoval.kept hcarries hundisturbed fun entry hmem => by
      simpa using hnone entry hmem
    obtain ⟨now, hnow, -⟩ := hknows
      (fun hdone => hremoval.revoked (hdone ▸ rfl) (.inl hstays.2)) hstays
    cases hnow
  · rintro hsome - hstays
    exact absurd (hremoval.parted hundisturbed hsome) hstays.not_parted

/-- The first deletion and the first revocation do not get to the store. -/
def removalFails : Faults :=
  (Faults.none.add (⟨0, .refused (.store "boom"), some 1⟩ : Fault .delete)).add
    (⟨0, .refused (.store "boom"), some 1⟩ : Fault .revoke)

def cutOff : Site := .start .empty (Config.make "svc" []) .onFirstUse removalFails

theorem genuine_removalFails (m : Method) : removalFails.Genuine m := by
  refine .add (.add (Faults.genuine_none m) ?_) ?_
  · exact nofun
  · exact nofun

theorem reliable_removalFails : Reliable .empty removalFails := by
  refine ⟨Store.sound_empty, genuine_removalFails _, genuine_removalFails _, ?_⟩
  intro fault hfault number htreatment
  cases List.mem_singleton.1 hfault
  cases htreatment

/-- An instance is registered, and a call to unregister it is about to take its turn. -/
def beforeRemoval : List Move :=
  .call (.register "chat" "10.0.0.1" 9000) :: List.replicate 6 (.step 1) ++
    [.call .unregister, .step 3]

/-- Where the call is about to take its turn. -/
def aboutToRemove : Site := (cutOff.run beforeRemoval).get rfl

/-- The call gets to its outcome. -/
def untilOutcome : List Move := [.step 3, .step 3, .step 3]

/-- Where the call is about to return. -/
def failedToRemove : Site := (aboutToRemove.run untilOutcome).get rfl

/-- The registration of these runs. -/
def cutOffActive : Active := ⟨⟨⟨"svc", "chat", by decide, by decide⟩, "10.0.0.1:9000"⟩, ⟨1⟩, 2⟩

/-- Neither request gets to the store, and the registration is lost by the failure. -/
theorem unregister_loses_what_stays :
    ∃ final, cutOff.run beforeRemoval = some aboutToRemove ∧
      aboutToRemove.Takes false 3 cutOffActive ∧
      aboutToRemove.run untilOutcome = some failedToRemove ∧
      failedToRemove.progress? 3 =
        some (.unregistering false (.leaving (.error (.store "boom")))) ∧
      failedToRemove.after (.step 3) = some final ∧
      aboutToRemove.store.Carries cutOffActive.key cutOffActive.lease ∧
      (∀ entry ∈ aboutToRemove.history untilOutcome, entry.1.carriesOut 3 entry.2 = false) ∧
      ¬ (final.store.Carries cutOffActive.key cutOffActive.lease →
          ∃ now, final.registry.registrar.active = some now ∧ now.lease = cutOffActive.lease) := by
  obtain ⟨final, hfinal⟩ : ∃ final, failedToRemove.after (.step 3) = some final :=
    Option.isSome_iff_exists.1 rfl
  have hearly : cutOff.run beforeRemoval = some aboutToRemove := (Option.some_get _).symm
  have hknown : aboutToRemove.run untilOutcome = some failedToRemove := (Option.some_get _).symm
  have htakes : aboutToRemove.Takes false 3 cutOffActive := ⟨rfl, rfl⟩
  have hcarries : aboutToRemove.store.Carries cutOffActive.key cutOffActive.lease := ⟨rfl, rfl⟩
  have hnone : ∀ entry ∈ aboutToRemove.history untilOutcome,
      entry.1.carriesOut 3 entry.2 = false := by
    decide
  obtain ⟨-, -, hiff⟩ :=
    unregister_loses_nothing_iff reliable_removalFails hearly htakes hknown rfl hfinal
  refine ⟨final, hearly, htakes, hknown, rfl, hfinal, hcarries, hnone, fun hknows => ?_⟩
  obtain ⟨entry, hmem, hcarried⟩ := (hiff hcarries (by simp [Move.Disturbs])).1 fun _ => hknows
  rw [hnone entry hmem] at hcarried
  cases hcarried

/-- A second unregistration, of which both requests would get to the store. -/
def secondUnregister : List Move := .call .unregister :: List.replicate 3 (.step 4)

/-- The instance stays attached to its live lease, and a later call finds nothing to unregister. -/
theorem forgotten_registration_stays :
    ∃ final, cutOff.run (beforeRemoval ++ untilOutcome ++ .step 3 :: secondUnregister) = some final ∧
      final.progress? 3 = some (.finished (.error (.store "boom"))) ∧
      final.progress? 4 = some (.finished (.error .notRegistered)) ∧
      final.store.Carries cutOffActive.key cutOffActive.lease ∧
      final.client.faults .delete = [] ∧ final.client.faults .revoke = [] :=
  ⟨(cutOff.run (beforeRemoval ++ untilOutcome ++ .step 3 :: secondUnregister)).get rfl,
    (Option.some_get _).symm, rfl, rfl, ⟨rfl, rfl⟩, rfl, rfl⟩

end ServiceRegistry
