import Mathlib.Logic.Relation
import ServiceRegistry.Proofs.Registry.Guard

/-!
# Nobody waits forever for a lock

A registry has three locks: the gate in front of the readers of the store, the lock of the registrar, and
the lock of the cache. Who stands at the registrar comes to no other lock, and who waits for the cache can
take its next step as soon as it gets it; only the holder of the gate may have to wait for another lock, the
one of the cache. So those who wait for each other are never in a circle: each call waits, at last, for an
activity that can go on when its time has come, and so it comes to its end.
-/
namespace ServiceRegistry

/-- One stands before the other in a line. -/
def Ahead (line : List Nat) (other who : Nat) : Prop :=
  ∃ front behind, line = front ++ who :: behind ∧ other ∈ front

theorem Ahead.idxOf_lt {line : List Nat} {other who : Nat} (h : Ahead line other who)
    (hnodup : line.Nodup) : line.idxOf other < line.idxOf who := by
  obtain ⟨front, behind, rfl, hmem⟩ := h
  have hnot : who ∉ front := fun hwho =>
    (List.nodup_append.1 hnodup).2.2 who hwho who List.mem_cons_self rfl
  rw [List.idxOf_append_of_mem hmem, List.idxOf_append_of_notMem hnot]
  exact Nat.lt_add_right _ (List.idxOf_lt_length_of_mem hmem)

/-- The head of a line stands before all others. -/
theorem ahead_of_head {line : List Nat} {first who : Nat} (hhead : line.head? = some first)
    (hmem : who ∈ line) (hne : who ≠ first) : Ahead line first who := by
  obtain ⟨rest, rfl⟩ := List.head?_eq_some_iff.1 hhead
  obtain ⟨front, behind, rfl⟩ := List.append_of_mem ((List.mem_cons.1 hmem).resolve_left hne)
  exact ⟨first :: front, behind, rfl, List.mem_cons_self⟩

namespace GuardedSite

variable {guarded later : GuardedSite}

/-! ## Who waits for whom -/

/-- One is ahead of the other at a lock for which the other waits. -/
inductive WaitsFor (guarded : GuardedSite) (who other : Nat) : Prop
  | gate (hahead : Ahead guarded.site.registry.gate.line other who)
  | registrar (hahead : Ahead guarded.site.registry.registrar.lock.line other who)
  | cache (hblocked : guarded.isBlocked who = true) (hahead : Ahead guarded.guard.names other who)

/-- The place of an activity in the line of the cache, or behind that line its places at the other
locks. -/
def rank (guarded : GuardedSite) (who : Nat) : Nat :=
  if who ∈ guarded.guard.names then guarded.guard.names.idxOf who
  else guarded.guard.names.length + guarded.site.registry.gate.line.idxOf who +
    guarded.site.registry.registrar.lock.line.idxOf who

section
variable (h : guarded.Kept) {who other : Nat}
include h

/-- Who stands in the line in front of the gate is a reader. -/
theorem Kept.reads_of_mem (hmem : who ∈ guarded.site.registry.gate.line) :
    ∃ errand build, guarded.site.progress? who = some (.building errand build) := by
  obtain ⟨progress, hprogress, hbuilding⟩ := (h.arranged.queues.mem_line who).1 hmem
  cases progress with
  | building errand build => exact ⟨errand, build, hprogress⟩
  | _ => cases hbuilding

/-- Nobody stands in both lines. -/
theorem Kept.not_mem_registrar (hmem : who ∈ guarded.site.registry.gate.line) :
    who ∉ guarded.site.registry.registrar.lock.line := by
  intro hboth
  obtain ⟨errand, build, hprogress⟩ := h.reads_of_mem hmem
  obtain ⟨met, hmet, hat⟩ := (h.arranged.inLine.queues.mem_line who).1 hboth
  rw [hprogress] at hmet
  cases hmet
  cases hat

/-- Who waits at the gate has not come to the cache. -/
theorem Kept.not_mem_of_gate (hahead : Ahead guarded.site.registry.gate.line other who) :
    who ∉ guarded.guard.names := by
  intro hwho
  have hmem : who ∈ guarded.site.registry.gate.line := by
    obtain ⟨front, behind, hline, -⟩ := hahead
    exact hline ▸ List.mem_append_right _ List.mem_cons_self
  obtain ⟨errand, build, hprogress⟩ := h.reads_of_mem hmem
  obtain ⟨access, htouches⟩ := h.touches_of_mem hwho
  obtain ⟨met, hmet, haccess⟩ := htouches.stands
  rw [hprogress] at hmet
  cases hmet
  have hholder : guarded.site.registry.gate.holder? = some who := by
    cases build with
    | queued =>
      cases errand with
      | resolve key =>
        exact Site.holder_of_canStep htouches.ready
          (h.arranged.backed.activity_of_progress? hprogress rfl)
      | refresh | rebuild => cases haccess
    | _ => exact h.arranged.orderly.exclusive who errand _ hprogress rfl
  -- but the holder has nobody before it
  rw [Lock.holder?_eq_head?] at hholder
  have hlt := hahead.idxOf_lt h.arranged.queues.nodup
  obtain ⟨rest, hrest⟩ := List.head?_eq_some_iff.1 hholder
  rw [hrest, List.idxOf_cons_self] at hlt
  exact Nat.not_lt_zero _ hlt

/-- Who stands at the registrar has not come to the cache. -/
theorem Kept.not_mem_of_registrar (hmem : who ∈ guarded.site.registry.registrar.lock.line) :
    who ∉ guarded.guard.names := by
  intro hwho
  obtain ⟨progress, hprogress, hat⟩ := (h.arranged.inLine.queues.mem_line who).1 hmem
  obtain ⟨access, htouches⟩ := h.touches_of_mem hwho
  obtain ⟨met, hmet, haccess⟩ := htouches.stands
  rw [hprogress] at hmet
  cases hmet
  cases progress with
  | registering | unregistering => cases haccess
  | _ => cases hat

/-- Who is waited for has the lower rank. -/
theorem Kept.rank_lt (hwaits : guarded.WaitsFor who other) : guarded.rank other < guarded.rank who := by
  have hlower : other ∈ guarded.guard.names → guarded.rank other < guarded.guard.names.length := by
    intro hmem
    rw [rank, if_pos hmem]
    exact List.idxOf_lt_length_of_mem hmem
  cases hwaits with
  | gate hahead =>
    have hnot := h.not_mem_of_gate hahead
    have hlt := hahead.idxOf_lt h.arranged.queues.nodup
    obtain ⟨front, behind, hline, hmem⟩ := hahead
    have hother := h.not_mem_registrar (hline ▸ List.mem_append_left _ hmem)
    have hwho := h.not_mem_registrar (hline ▸ List.mem_append_right front List.mem_cons_self)
    have hhigher : guarded.rank who = _ := if_neg hnot
    by_cases hin : other ∈ guarded.guard.names
    · have hlow := hlower hin
      omega
    · rw [hhigher, rank, if_neg hin, List.idxOf_eq_length hother, List.idxOf_eq_length hwho]
      omega
  | registrar hahead =>
    have hlt := hahead.idxOf_lt h.arranged.inLine.queues.nodup
    obtain ⟨front, behind, hline, hmem⟩ := hahead
    have hother : other ∈ guarded.site.registry.registrar.lock.line :=
      hline ▸ List.mem_append_left _ hmem
    have hwho : who ∈ guarded.site.registry.registrar.lock.line :=
      hline ▸ List.mem_append_right front List.mem_cons_self
    have hnot : other ∉ guarded.site.registry.gate.line := fun hgate =>
      h.not_mem_registrar hgate hother
    have hgate : who ∉ guarded.site.registry.gate.line := fun hgate =>
      h.not_mem_registrar hgate hwho
    rw [rank, rank, if_neg (h.not_mem_of_registrar hother), if_neg (h.not_mem_of_registrar hwho),
      List.idxOf_eq_length hnot, List.idxOf_eq_length hgate]
    omega
  | cache hblocked hahead =>
    have hlt := hahead.idxOf_lt h.nodup
    obtain ⟨front, behind, hline, hmem⟩ := hahead
    rw [rank, rank, if_pos (hline ▸ List.mem_append_left _ hmem),
      if_pos (hline ▸ List.mem_append_right front List.mem_cons_self)]
    exact hlt

/-- Nobody waits for itself, through however many others. -/
theorem Kept.not_waits_in_circle : ¬ Relation.TransGen guarded.WaitsFor who who := by
  have hdescends : ∀ last, Relation.TransGen guarded.WaitsFor who last →
      guarded.rank last < guarded.rank who := by
    intro last hchain
    induction hchain with
    | single hwaits => exact h.rank_lt hwaits
    | tail hchain hwaits ih => exact (h.rank_lt hwaits).trans ih
  exact fun hcircle => Nat.lt_irrefl _ (hdescends who hcircle)

end

/-! ## Who can go on -/

/-- An activity can come to the cache or take its next step when some time has passed. -/
def CanGoOn (guarded : GuardedSite) (who : Nat) : Prop :=
  ∃ time move later, (move = .ask who ∨ move = .make (.step who)) ∧
    guarded.run [.make (.wait time), move] = some later

/-- Who could take a step at its site and does not wait at the cache can go on. -/
theorem canGoOn_of_ready {who : Nat} (time : Nat)
    (hready : Site.canStep { guarded.site with clock := guarded.site.clock + time } who = true)
    (hfree : guarded.isBlocked who = false) : guarded.CanGoOn who := by
  let there : GuardedSite :=
    { guarded with site := { guarded.site with clock := guarded.site.clock + time } }
  have hthere : there.site.canStep who = true := hready
  have hwaits : guarded.after (.make (.wait time)) = some there := rfl
  by_cases hasks : there.mustAsk who = true
  · have haccess : (there.site.access? who).isSome = true := by
      rw [mustAsk, Bool.and_eq_true] at hasks
      exact hasks.1
    obtain ⟨access, haccess⟩ := Option.isSome_iff_exists.1 haccess
    have hnot : who ∉ there.guard.names := by simpa [mustAsk, haccess] using hasks
    exact ⟨time, _, _, .inl rfl,
      by rw [run_cons, hwaits, Option.bind_some, run_cons, after_ask hthere haccess hnot]; rfl⟩
  · have hunblocked : there.isBlocked who = false := hfree
    have hstep : there.canStep who = true := by simp [canStep, hthere, hasks, hunblocked]
    exact ⟨time, _, _, .inr rfl,
      by rw [run_cons, hwaits, Option.bind_some, run_cons, after_step hstep]; rfl⟩

/-- Who was asked to end can do so at once. -/
theorem asked_ends {who : Nat} {progress : Progress}
    (hactivity : guarded.site.registry.activities[who]? = some ⟨progress, true⟩)
    (hgoing : ∀ outcome, progress ≠ .finished outcome) :
    guarded.after (.make (.step who)) = some ⟨guarded.site.drop who, guarded.guard.leave who⟩ := by
  obtain ⟨-, hstep⟩ := Site.step_of_asked hactivity hgoing
  have hdropped := Site.isDropped_of_going hgoing
  have hready : guarded.canStep who = true := by
    simp [canStep, mustAsk, isBlocked, Site.canStep, Site.due, Site.access?, hactivity, hdropped]
  rw [after_step hready, hstep]

/-- Who stands in a line waits for its head, or is the head. -/
theorem waits_for_head {line : List Nat} {first who : Nat} (hhead : line.head? = some first)
    (hmem : who ∈ line) (hwaits : Ahead line first who → guarded.WaitsFor who first) :
    Relation.ReflTransGen guarded.WaitsFor who first := by
  by_cases he : who = first
  · exact he ▸ .refl
  · exact .single (hwaits (ahead_of_head hhead hmem he))

section
variable (h : guarded.Kept) {who : Nat}
include h

/-- Who holds the lock of the cache can take its step at once, and lets go of the lock with it. -/
theorem Kept.holder_steps (hholds : who ∈ guarded.guard.holders) :
    guarded.after (.make (.step who)) = some ⟨guarded.site.step who, guarded.guard.leave who⟩ := by
  have hmem := Guard.mem_names_of_mem_holders hholds
  obtain ⟨access, htouches⟩ := h.touches_of_mem hmem
  refine after_step ?_
  simp [canStep, mustAsk, isBlocked, htouches.ready, hmem, hholds]

/-- Who has come to the cache waits, if it waits, for one that can go on. -/
theorem Kept.waits_at_cache (hmem : who ∈ guarded.guard.names) :
    ∃ other, Relation.ReflTransGen guarded.WaitsFor who other ∧ guarded.CanGoOn other := by
  have hsteps : ∀ other, other ∈ guarded.guard.holders → guarded.CanGoOn other := by
    intro other hholds
    obtain ⟨access, htouches⟩ := h.touches_of_mem (Guard.mem_names_of_mem_holders hholds)
    exact canGoOn_of_ready 0 htouches.ready (by simp [isBlocked, hholds])
  by_cases hholds : who ∈ guarded.guard.holders
  · exact ⟨who, .refl, hsteps who hholds⟩
  · cases hline : guarded.guard.line with
    | nil => simp [Guard.names, hline] at hmem
    | cons first rest =>
      have hfirst := Guard.head_mem_holders hline
      have hne : who ≠ first.1 := fun he => hholds (he ▸ hfirst)
      have hhead : guarded.guard.names.head? = some first.1 := by simp [Guard.names, hline]
      by_cases hblocked : guarded.isBlocked who = true
      · exact ⟨first.1, .single (.cache hblocked (ahead_of_head hhead hmem hne)), hsteps _ hfirst⟩
      · obtain ⟨access, htouches⟩ := h.touches_of_mem hmem
        exact ⟨who, .refl, canGoOn_of_ready 0 htouches.ready (by simpa using hblocked)⟩

/-- Who waits for its time alone can go on, or waits at the cache for one that can. -/
theorem Kept.waits_for_time {progress : Progress} {time : Nat}
    (hactivity : guarded.site.registry.activities[who]? = some ⟨progress, false⟩)
    (hdue : guarded.site.dueFrom who progress = some time)
    (hlater : ∀ clock, Site.dueFrom { guarded.site with clock := clock } who progress =
      guarded.site.dueFrom who progress) :
    ∃ other, Relation.ReflTransGen guarded.WaitsFor who other ∧ guarded.CanGoOn other := by
  by_cases hmem : who ∈ guarded.guard.names
  · exact h.waits_at_cache hmem
  · let there : Site := { guarded.site with clock := guarded.site.clock + time }
    have hthere : there.registry.activities[who]? = some ⟨progress, false⟩ := hactivity
    have hready : there.canStep who = true :=
      Site.canStep_of_due hthere ((hlater _).trans hdue) (Nat.le_add_left _ _)
    exact ⟨who, .refl, canGoOn_of_ready time hready (by simp [isBlocked, hmem])⟩

/-- A call that has not returned waits, if it waits, for one that can go on. -/
theorem Kept.waits {progress : Progress} (hprogress : guarded.site.progress? who = some progress)
    (hcall : progress.isBackground = false) :
    ∃ other, Relation.ReflTransGen guarded.WaitsFor who other ∧ guarded.CanGoOn other := by
  have hactivity := h.arranged.backed.activity_of_progress? hprogress hcall
  have hregistrar : progress.isAtRegistrar = true →
      ∃ other, Relation.ReflTransGen guarded.WaitsFor who other ∧ guarded.CanGoOn other := by
    intro hat
    have hmem := (h.arranged.inLine.queues.mem_line who).2 ⟨progress, hprogress, hat⟩
    obtain ⟨first, hhead⟩ := Option.isSome_iff_exists.1
      (List.isSome_head?.2 (List.ne_nil_of_mem hmem))
    obtain ⟨met, hmet, hthere⟩ :=
      (h.arranged.inLine.queues.mem_line first).1 (List.mem_of_mem_head? hhead)
    have hbusy : met.isBackground = false := by
      by_contra hback
      rw [Progress.not_isAtRegistrar_of_isBackground (by simpa using hback)] at hthere
      cases hthere
    obtain ⟨⟨time, hdue⟩, hlater⟩ :=
      Site.dueFrom_of_head ((Lock.holder?_eq_head? _).trans hhead) hthere
    obtain ⟨other, hrest, hgoes⟩ :=
      h.waits_for_time (h.arranged.backed.activity_of_progress? hmet hbusy) hdue hlater
    exact ⟨other, (waits_for_head hhead hmem .registrar).trans hrest, hgoes⟩
  cases progress with
  | building errand build =>
    have hmem := (h.arranged.queues.mem_line who).2 ⟨_, hprogress, rfl⟩
    obtain ⟨first, hhead⟩ := Option.isSome_iff_exists.1
      (List.isSome_head?.2 (List.ne_nil_of_mem hmem))
    obtain ⟨met, found, hmet⟩ := h.reads_of_mem (List.mem_of_mem_head? hhead)
    obtain ⟨⟨progress, asked⟩, hfirst, rfl⟩ := Option.map_eq_some_iff.1 hmet
    have hchain : Relation.ReflTransGen guarded.WaitsFor who first :=
      waits_for_head hhead hmem .gate
    cases asked with
    | true =>
      have hends := asked_ends hfirst fun outcome he => by cases he
      exact ⟨first, hchain, 0, _, _, .inr rfl,
        by rw [run_cons, show guarded.after (.make (.wait 0)) = some guarded from rfl,
          Option.bind_some, run_cons, hends]; rfl⟩
    | false =>
      obtain ⟨⟨time, hdue⟩, hlater⟩ :=
        Site.dueFrom_of_gate_head met found ((Lock.holder?_eq_head? _).trans hhead)
      obtain ⟨other, hrest, hgoes⟩ := h.waits_for_time hfirst hdue hlater
      exact ⟨other, hchain.trans hrest, hgoes⟩
  | registering | unregistering => exact hregistrar rfl
  | calling | looking | locating | sealing =>
    exact h.waits_for_time hactivity rfl fun _ => rfl
  | _ => cases hcall

end

/-! ## Every call comes to its end -/

/-- All who have come to the cache take their steps, so that its lock is free. -/
theorem Kept.drains (h : guarded.Kept) :
    ∃ moves later, guarded.run moves = some later ∧ (∀ move ∈ moves, move.isInner = true) ∧
      later.guard = Guard.free := by
  induction hlength : guarded.guard.line.length using Nat.strong_induction_on generalizing guarded with
  | _ length ih =>
    subst hlength
    cases hline : guarded.guard.line with
    | nil => exact ⟨[], guarded, rfl, by simp, congrArg Guard.mk hline⟩
    | cons first rest =>
      have hstep := h.holder_steps (Guard.head_mem_holders hline)
      have hshorter : (guarded.guard.leave first.1).line.length < guarded.guard.line.length := by
        simp only [Guard.leave, hline, List.filter_cons, ne_eq, not_true_eq_false, decide_false,
          Bool.false_eq_true, if_false, List.length_cons]
        exact Nat.lt_succ_of_le (List.length_filter_le _ _)
      obtain ⟨moves, later, hrun, hinner, hfree⟩ := ih _ hshorter (h.moved hstep) rfl
      refine ⟨.make (.step first.1) :: moves, later, ?_, ?_, hfree⟩
      · rw [run_cons, hstep]
        exact hrun
      · simpa [GuardedMove.isInner] using hinner

/-- What the activities of a site can do they can do at the guarded site, when nobody has come to the
cache. -/
theorem run_of_leads {kind : Progress → Bool} {site last : Site} (hleads : Site.Leads kind site last) :
    ∃ moves, GuardedSite.run ⟨site, Guard.free⟩ moves = some ⟨last, Guard.free⟩ ∧
      ∀ move ∈ moves, move.isInner = true := by
  obtain ⟨plain, hrun, hpasses⟩ := hleads
  induction plain generalizing site with
  | nil =>
    cases hrun
    exact ⟨[], rfl, by simp⟩
  | cons move plain ih =>
    obtain ⟨next, hnext, hrest⟩ := Option.bind_eq_some_iff.1 ((Site.run_cons _ _ _).symm.trans hrun)
    rw [Site.history_cons hnext] at hpasses
    obtain ⟨moves, hmoves, hinner⟩ := ih hrest fun entry hmem => hpasses entry (.tail _ hmem)
    have hgoes : ∀ first : List GuardedMove,
        GuardedSite.run ⟨site, Guard.free⟩ first = some ⟨next, Guard.free⟩ →
          (∀ move ∈ first, move.isInner = true) →
          ∃ moves, GuardedSite.run ⟨site, Guard.free⟩ moves = some ⟨last, Guard.free⟩ ∧
            ∀ move ∈ moves, move.isInner = true := by
      intro first hfirst hall
      refine ⟨first ++ moves, by rw [run_append, hfirst]; exact hmoves, fun move hmem => ?_⟩
      exact (List.mem_append.1 hmem).elim (hall move) (hinner move)
    cases hpasses _ List.mem_cons_self with
    | @wait _ time =>
      cases hnext
      exact hgoes [.make (.wait time)] rfl (by simp [GuardedMove.isInner])
    | @step _ who hstands =>
      obtain ⟨hready, rfl⟩ := Site.of_after_step hnext
      let there : GuardedSite := ⟨site, Guard.free⟩
      cases haccess : site.access? who with
      | none =>
        have hstep : there.canStep who = true := by
          simp [there, canStep, mustAsk, isBlocked, Guard.names, Guard.free, hready, haccess]
        refine hgoes [.make (.step who)] ?_ (by simp [GuardedMove.isInner])
        rw [run_cons, after_step hstep]
        rfl
      | some access =>
        have hasked : there.after (.ask who) = some ⟨site, Guard.free.enter who access⟩ :=
          after_ask hready haccess (by simp [there, Guard.names, Guard.free])
        have hholds : who ∈ (Guard.free.enter who access).holders := Guard.head_mem_holders rfl
        have hstep : GuardedSite.canStep ⟨site, Guard.free.enter who access⟩ who = true := by
          simp [canStep, mustAsk, isBlocked, hholds, hready]
        refine hgoes [.ask who, .make (.step who)] ?_ (by simp [GuardedMove.isInner])
        rw [run_cons, hasked, Option.bind_some, run_cons, after_step hstep, Option.bind_some, run_nil,
          Guard.leave_enter_free]

end GuardedSite

/-- A call goes on as a call until it ends. -/
theorem Site.stepFrom_of_call (site : Site) (who : Nat) {progress : Progress}
    (h : progress.isBackground = false) :
    (site.stepFrom who progress).1.isBackground = false ∨
      ∃ outcome, (site.stepFrom who progress).1 = .finished outcome := by
  have hregistrar : progress.isAtRegistrar = true →
      (site.stepFrom who progress).1.isBackground = false ∨
        ∃ outcome, (site.stepFrom who progress).1 = .finished outcome := by
    intro hat
    rcases (site.deed_of_stepFrom who progress).leaves_cases hat with hstill | hsealing | hended
    · left
      by_contra hback
      rw [Progress.not_isAtRegistrar_of_isBackground (by simpa using hback)] at hstill
      cases hstill
    · rw [hsealing]
      exact .inl rfl
    · exact .inr hended
  cases progress with
  | calling call =>
    cases call with
    | register | unregister | getConnections | getConnection | close =>
      simp only [stepFrom, stepCalling]
      split <;> first | exact .inl rfl | exact .inr ⟨_, rfl⟩
    | addOptions | invalidate => exact .inr ⟨_, rfl⟩
  | looking key =>
    simp only [stepFrom, stepLooking]
    split <;> first | exact .inl rfl | exact .inr ⟨_, rfl⟩
  | building errand build =>
    cases errand with
    | resolve key =>
      have hproceeds := site.proceeds_stepBuild who (.resolve key) build
      simp only [stepFrom]
      generalize site.stepBuild who (.resolve key) build = result at hproceeds
      cases hproceeds with
      | onward => exact .inl rfl
      | conclude => exact .inr ⟨_, rfl⟩
    | refresh | rebuild => cases h
  | locating key options flight =>
    simp only [stepFrom, stepLocating]
    split <;> exact .inr ⟨_, rfl⟩
  | registering | unregistering => exact hregistrar rfl
  | sealing => exact .inr ⟨_, rfl⟩
  | _ => cases h

/-- A call that was made has ended or goes on as a call. -/
theorem Calls.goes_on {store : Store} {config : Config} {dialer : Dialer} {faults : Faults}
    {moves : List Move} {final : Site}
    (hrun : (Site.start store config dialer faults).run moves = some final) {who : Nat} {call : Call}
    (hcall : Calls ((Site.start store config dialer faults).history moves) who call) :
    ∃ progress, final.progress? who = some progress ∧
      (progress.isBackground = false ∨ ∃ outcome, progress = .finished outcome) := by
  refine Calls.progress (P := fun progress => progress.isBackground = false ∨
    ∃ outcome, progress = .finished outcome) (.inl rfl) (.inr ⟨_, rfl⟩) ?_ hrun hcall
  rintro site progress - (hcall | ⟨outcome, rfl⟩)
  · exact site.stepFrom_of_call who hcall
  · exact .inr ⟨outcome, rfl⟩

namespace GuardedSite

/-- Whoever was asked to end lets go of all that it holds. -/
theorem Kept.asked_leaves {guarded : GuardedSite} (h : guarded.Kept) {who : Nat} {progress : Progress}
    (hactivity : guarded.site.registry.activities[who]? = some ⟨progress, true⟩)
    (hgoing : ∀ outcome, progress ≠ .finished outcome) :
    guarded.after (.make (.step who)) = some ⟨guarded.site.drop who, guarded.guard.leave who⟩ ∧
      who ∉ (guarded.site.drop who).registry.gate.line ∧
      who ∉ (guarded.site.drop who).registry.registrar.lock.line ∧
      who ∉ (guarded.guard.leave who).names ∧
      (guarded.site.registry.gate.holder? = some who →
        (guarded.site.drop who).registry.gate = guarded.site.registry.gate.release) := by
  have hends := asked_ends hactivity hgoing
  have hkept := h.moved hends
  have hended : (guarded.site.drop who).progress? who = some (.finished (.ok .done)) :=
    Site.progress?_settle_self (guarded.site.frame_leaveLocks who) _
      (Site.progress?_of_activity hactivity)
  refine ⟨hends, fun hmem => ?_, fun hmem => ?_, Guard.not_mem_names_leave, Lock.leave_of_holder?⟩
  · obtain ⟨met, hmet, hbuilding⟩ := (hkept.arranged.queues.mem_line who).1 hmem
    rw [hended] at hmet
    cases hmet
    cases hbuilding
  · obtain ⟨met, hmet, hat⟩ := (hkept.arranged.inLine.queues.mem_line who).1 hmem
    rw [hended] at hmet
    cases hmet
    cases hat

end GuardedSite

/-- In every state that a registry comes to, with any calls, readers, watcher and renewals in it: a call
that has not returned waits, directly or through others, for an activity that can come to the cache or take
its next step when some time has passed, and it can be led to its end by time and the steps of activities.
Nobody waits for itself through others. The gate and the registrar are held or waited for by just those who
are at them, and who has come to the cache can take its step there; so a step that leads away from a lock,
however it has come to that, lets go of it. Who holds the lock of the cache can take its step at once, and
lets go of the lock with it. And who was asked to end while it goes on, such as the watcher at the gate, can
do so at once, and leaves every lock and every line. -/
theorem no_deadlock {store : Store} {config : Config} {dialer : Dialer} {faults : Faults}
    {moves : List GuardedMove} {guarded : GuardedSite}
    (hrun : (GuardedSite.start store config dialer faults).run moves = some guarded) :
    (∀ who call, Calls ((Site.start store config dialer faults).history
        (moves.filterMap GuardedMove.plain?)) who call →
      (∀ outcome, guarded.site.progress? who ≠ some (.finished outcome)) →
        (∃ other, Relation.ReflTransGen guarded.WaitsFor who other ∧ guarded.CanGoOn other) ∧
        ∃ further later outcome, guarded.run further = some later ∧
          (∀ move ∈ further, move.isInner = true) ∧
          later.site.progress? who = some (.finished outcome)) ∧
    (∀ who, ¬ Relation.TransGen guarded.WaitsFor who who) ∧
    (∀ who, (who ∈ guarded.site.registry.gate.line ↔ guarded.site.Stands Progress.isBuilding who) ∧
      (who ∈ guarded.site.registry.registrar.lock.line ↔
        guarded.site.Stands Progress.isAtRegistrar who) ∧
      (who ∈ guarded.guard.names → ∃ access, guarded.site.Touches who access) ∧
      (who ∈ guarded.guard.holders → guarded.after (.make (.step who)) =
        some ⟨guarded.site.step who, guarded.guard.leave who⟩)) ∧
    ∀ who progress, guarded.site.registry.activities[who]? = some ⟨progress, true⟩ →
      (∀ outcome, progress ≠ .finished outcome) →
        guarded.after (.make (.step who)) = some ⟨guarded.site.drop who, guarded.guard.leave who⟩ ∧
        who ∉ (guarded.site.drop who).registry.gate.line ∧
        who ∉ (guarded.site.drop who).registry.registrar.lock.line ∧
        who ∉ (guarded.guard.leave who).names ∧
        (guarded.site.registry.gate.holder? = some who →
          (guarded.site.drop who).registry.gate = guarded.site.registry.gate.release) := by
  have hkept := GuardedSite.kept_of_run hrun
  have hsite : (Site.start store config dialer faults).run (moves.filterMap GuardedMove.plain?) =
      some guarded.site := GuardedSite.run_site hrun
  refine ⟨fun who call hcall hgoing => ⟨?_, ?_⟩, fun who => hkept.not_waits_in_circle,
    fun who => ⟨hkept.arranged.queues.mem_line who, hkept.arranged.inLine.queues.mem_line who,
      hkept.touches_of_mem, hkept.holder_steps⟩, fun who progress => hkept.asked_leaves⟩
  · obtain ⟨progress, hprogress, hbusy | ⟨outcome, rfl⟩⟩ := hcall.goes_on hsite
    · exact hkept.waits hprogress hbusy
    · exact absurd hprogress (hgoing outcome)
  · -- first the line of the cache empties, then the call is led to its end
    obtain ⟨first, there, hfirst, hinner, hfree⟩ := hkept.drains
    have hthere := GuardedSite.run_site hfirst
    have hrun' : (Site.start store config dialer faults).run (moves.filterMap GuardedMove.plain? ++
        first.filterMap GuardedMove.plain?) = some there.site := by
      rw [Site.run_append, hsite]
      exact hthere
    have hcalled : Calls ((Site.start store config dialer faults).history
        (moves.filterMap GuardedMove.plain? ++ first.filterMap GuardedMove.plain?)) who call := by
      rw [Site.history_append hsite]
      exact hcall.mono (List.subset_append_left _ _)
    obtain ⟨progress, hprogress, hbusy | ⟨outcome, rfl⟩⟩ := hcalled.goes_on hrun'
    · obtain ⟨last, outcome, hleads, hended⟩ :=
        (Site.arranged_of_run hrun').call_ends hprogress hbusy
      obtain ⟨rest, hrest, hinner'⟩ := GuardedSite.run_of_leads hleads
      refine ⟨first ++ rest, ⟨last, Guard.free⟩, outcome, ?_, fun move hmem => ?_, hended⟩
      · rw [GuardedSite.run_append, hfirst, Option.bind_some, ← hrest, ← hfree]
      · exact (List.mem_append.1 hmem).elim (hinner move) (hinner' move)
    · exact ⟨first, there, outcome, hfirst, hinner, hprogress⟩

/-- The watcher comes through the gate to renew the entry of a service and asks for a stamp, a caller stands
behind it since the cache was invalidated, and then the registry is closed. -/
def closedAtGate : List GuardedMove :=
  [.make (.step 0), .make (.step 0), .make (.call (.getConnections "chat")), .make (.step 1), .ask 1,
    .make (.step 1), .ask 1, .make (.step 1), .ask 1, .make (.step 1), .make (.step 1), .ask 1,
    .make (.step 1), .make (.request (.put "svc/chat/10.0.0.1:9000" "" none)), .make (.step 0), .ask 0,
    .make (.step 0), .make (.call .invalidate), .ask 2, .make (.call (.getConnections "chat")),
    .make (.step 2), .make (.step 3), .ask 3, .make (.step 3), .make (.step 0), .ask 0,
    .make (.call .close), .make (.step 4)]

theorem no_deadlock_closed_at_gate :
    ∃ guarded, (GuardedSite.start .empty (Config.make "svc" []) .onFirstUse .none).run closedAtGate =
        some guarded ∧
      guarded.site.registry.gate.line = [Registry.watcher, 3] ∧
      guarded.guard.names = [Registry.watcher] ∧ guarded.site.registry.registrar.lock.line = [4] ∧
      (∀ who, ¬ Relation.TransGen guarded.WaitsFor who who) ∧
      (∃ other, Relation.ReflTransGen guarded.WaitsFor 3 other ∧ guarded.CanGoOn other) ∧
      (∃ further later outcome, guarded.run further = some later ∧
        (∀ move ∈ further, move.isInner = true) ∧
        later.site.progress? 3 = some (.finished outcome)) ∧
      ∃ later, guarded.after (.make (.step Registry.watcher)) = some later ∧
        later.site.registry.gate = .held 3 [] ∧ Registry.watcher ∉ later.guard.names := by
  obtain ⟨guarded, hrun⟩ : ∃ guarded, (GuardedSite.start .empty (Config.make "svc" []) .onFirstUse
      .none).run closedAtGate = some guarded := Option.isSome_iff_exists.1 rfl
  have hgate : ((GuardedSite.start .empty (Config.make "svc" []) .onFirstUse .none).run
      closedAtGate).map (fun guarded => guarded.site.registry.gate) =
        some (.held Registry.watcher [3]) := rfl
  have hlines : ((GuardedSite.start .empty (Config.make "svc" []) .onFirstUse .none).run
      closedAtGate).map (fun guarded =>
        (guarded.guard.names, guarded.site.registry.registrar.lock.line)) =
          some ([Registry.watcher], [4]) := rfl
  have hwatcher : ((GuardedSite.start .empty (Config.make "svc" []) .onFirstUse .none).run
      closedAtGate).map (fun guarded => guarded.site.registry.activities[Registry.watcher]?.any
        fun activity => activity.isDropped) = some true := rfl
  have hcaller : ((GuardedSite.start .empty (Config.make "svc" []) .onFirstUse .none).run
      closedAtGate).map (fun guarded => (guarded.site.progress? 3).any Progress.isBuilding) =
        some true := rfl
  rw [hrun] at hgate hlines hwatcher hcaller
  replace hgate : guarded.site.registry.gate = .held Registry.watcher [3] := Option.some.inj hgate
  obtain ⟨hnames, hregistrar⟩ := Prod.mk.inj (Option.some.inj hlines)
  -- the caller was the fourth activity to begin
  have hcall : Calls ((Site.start .empty (Config.make "svc" []) .onFirstUse .none).history
      (closedAtGate.filterMap GuardedMove.plain?)) 3 (.getConnections "chat") := by
    let before := (closedAtGate.take 19).filterMap GuardedMove.plain?
    obtain ⟨mid, hmid⟩ : ∃ mid, Site.sample.run before = some mid := Option.isSome_iff_exists.1 rfl
    have hlength : (Site.sample.run before).map (fun site => site.registry.activities.length) =
        some 3 := rfl
    rw [hmid] at hlength
    exact Option.some.inj hlength ▸
      Calls.of_split hmid ((closedAtGate.drop 20).filterMap GuardedMove.plain?)
  have hgoing : ∀ outcome, guarded.site.progress? 3 ≠ some (.finished outcome) := by
    intro outcome hended
    simp [hended, Progress.isBuilding] at hcaller
  obtain ⟨hcalls, hcircle, -, hasked⟩ := no_deadlock hrun
  obtain ⟨hwaits, hends⟩ := hcalls 3 _ hcall hgoing
  have hdropped : ∃ progress, guarded.site.registry.activities[Registry.watcher]? =
      some ⟨progress, true⟩ ∧ ∀ outcome, progress ≠ .finished outcome := by
    cases hactivity : guarded.site.registry.activities[Registry.watcher]? with
    | none => simp [hactivity] at hwatcher
    | some activity =>
      obtain ⟨progress, cancelled⟩ := activity
      simp only [Option.map_some, hactivity, Option.any_some, Activity.isDropped, Option.some.injEq,
        Bool.and_eq_true] at hwatcher
      obtain ⟨rfl, hgoing⟩ := hwatcher
      refine ⟨progress, rfl, fun outcome he => ?_⟩
      rw [he] at hgoing
      cases hgoing
  obtain ⟨progress, hactivity, hleaves⟩ := hdropped
  obtain ⟨hstep, -, -, hnot, hrelease⟩ := hasked Registry.watcher progress hactivity hleaves
  refine ⟨guarded, hrun, congrArg Lock.line hgate, hnames, hregistrar, hcircle, hwaits, hends, _, hstep,
    ?_, hnot⟩
  rw [hrelease (by rw [hgate]; rfl), hgate]
  rfl

end ServiceRegistry
