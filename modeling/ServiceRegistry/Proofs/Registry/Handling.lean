import ServiceRegistry.Proofs.Registry.Line

/-!
# Everyone in a line is handled

Whoever is at the head of a line gets to leave it, if it is given the time to wait for what it has asked
for. So everyone in the line comes to its head. At the registrar this holds whatever the store answers:
a registration and an unregistration have a bounded number of steps in front of them.
-/
namespace ServiceRegistry

/-- How many steps an activity at the registrar has in front of it at most when it is handled. -/
def Progress.left : Progress → Nat
  | .registering _ .queued => 7
  | .registering _ (.replacing _) => 6
  | .registering _ (.granting _) => 5
  | .registering _ (.attaching _ _) => 4
  | .registering _ (.opening _ _) => 3
  | .registering _ (.abandoning _ _) => 2
  | .registering _ (.leaving _) => 1
  | .unregistering _ .queued => 4
  | .unregistering _ (.deleting _ _) => 3
  | .unregistering _ (.revoking _ _) => 2
  | .unregistering _ (.leaving _) => 1
  | _ => 0

namespace Site

theorem run_step {site : Site} {who : Nat} (hready : site.canStep who = true) :
    site.run [.step who] = some (site.step who) := by
  rw [run_cons, Site.after, if_pos hready]
  rfl

/-- An activity takes its next step when the time has come. -/
theorem run_wait_step {site : Site} {who time : Nat} {progress : Progress}
    (hactivity : site.registry.activities[who]? = some ⟨progress, false⟩)
    (hdue : site.dueFrom who progress = some time)
    (hlater : ∀ clock, Site.dueFrom { site with clock := clock } who progress =
      site.dueFrom who progress) :
    site.run [.wait time, .step who] =
      some ((Site.stepFrom { site with clock := site.clock + time } who progress).2.settle who
        (Site.stepFrom { site with clock := site.clock + time } who progress).1) := by
  let there : Site := { site with clock := site.clock + time }
  have hthere : there.registry.activities[who]? = some ⟨progress, false⟩ := hactivity
  have hready : there.canStep who = true :=
    canStep_of_due hthere ((hlater _).trans hdue) (Nat.le_add_left time site.clock)
  rw [run_cons, show site.after (.wait time) = some there from rfl, Option.bind_some,
    run_step hready, step_of_activity hthere]

theorem not_mem_wait_step {who other time : Nat} (hne : other ≠ who) :
    Move.step other ∉ [.wait time, .step who] := by
  intro hmem
  rcases List.mem_cons.1 hmem with hwaits | hmem
  · cases hwaits
  · cases List.mem_singleton.1 hmem
    exact hne rfl

/-! ## Stretches in which some go on -/

/-- Time passes, or an activity that stands at a point of some kind goes on. -/
inductive Passes (kind : Progress → Bool) : Site × Move → Prop
  | wait {site : Site} {time : Nat} : Passes kind (site, .wait time)
  | step {site : Site} {who : Nat} (hstands : site.Stands kind who) : Passes kind (site, .step who)

theorem Passes.mono {kind other : Progress → Bool} {entry : Site × Move}
    (hsub : ∀ progress, kind progress = true → other progress = true) (h : Passes kind entry) :
    Passes other entry := by
  cases h with
  | wait => exact .wait
  | step hstands =>
    obtain ⟨progress, hprogress, hkind⟩ := hstands
    exact .step ⟨progress, hprogress, hsub progress hkind⟩

/-- One site leads to another if some go on, and nothing else happens. -/
def Leads (kind : Progress → Bool) (site later : Site) : Prop :=
  ∃ moves, site.run moves = some later ∧ ∀ entry ∈ site.history moves, Passes kind entry

namespace Leads

variable {kind other : Progress → Bool}

theorem refl (kind : Progress → Bool) (site : Site) : Leads kind site site :=
  ⟨[], rfl, fun _ hmem => by cases hmem⟩

theorem trans {first second third : Site} (h : Leads kind first second)
    (h' : Leads kind second third) : Leads kind first third := by
  obtain ⟨moves, hrun, hpasses⟩ := h
  obtain ⟨later, hlater, hpasses'⟩ := h'
  refine ⟨moves ++ later, by rw [run_append, hrun]; exact hlater, fun entry hmem => ?_⟩
  rw [history_append hrun] at hmem
  exact (List.mem_append.1 hmem).elim (hpasses entry) (hpasses' entry)

theorem mono {site later : Site} (hsub : ∀ progress, kind progress = true → other progress = true)
    (h : Leads kind site later) : Leads other site later := by
  obtain ⟨moves, hrun, hpasses⟩ := h
  exact ⟨moves, hrun, fun entry hmem => (hpasses entry hmem).mono hsub⟩

theorem of_step {site : Site} {who : Nat} (hready : site.canStep who = true)
    (hstands : site.Stands kind who) : Leads kind site (site.step who) := by
  refine ⟨[.step who], run_step hready, fun entry hmem => ?_⟩
  have hafter : site.after (.step who) = some (site.step who) := by rw [Site.after, if_pos hready]
  rw [history_cons hafter] at hmem
  cases List.mem_singleton.1 hmem
  exact .step hstands

theorem of_wait (site : Site) (time : Nat) :
    Leads kind site { site with clock := site.clock + time } := by
  refine ⟨[.wait time], rfl, fun entry hmem => ?_⟩
  cases List.mem_singleton.1 hmem
  exact .wait

end Leads

/-- An activity that waits for its time alone goes on when the time has come. -/
theorem leads_step {kind : Progress → Bool} {site : Site} {who time : Nat} {progress : Progress}
    (hactivity : site.registry.activities[who]? = some ⟨progress, false⟩)
    (hkind : kind progress = true) (hdue : site.dueFrom who progress = some time)
    (hlater : ∀ clock, Site.dueFrom { site with clock := clock } who progress =
      site.dueFrom who progress) :
    Leads kind site
      ((Site.stepFrom { site with clock := site.clock + time } who progress).2.settle who
        (Site.stepFrom { site with clock := site.clock + time } who progress).1) := by
  let there : Site := { site with clock := site.clock + time }
  have hthere : there.registry.activities[who]? = some ⟨progress, false⟩ := hactivity
  have hready : there.canStep who = true :=
    canStep_of_due hthere ((hlater _).trans hdue) (Nat.le_add_left time site.clock)
  have hstep : Leads kind there (there.step who) :=
    .of_step hready ⟨progress, progress?_of_activity hthere, hkind⟩
  rw [step_of_activity hthere] at hstep
  exact (Leads.of_wait site time).trans hstep

/-! ## To the head of a line -/

/-- If every head of a line can leave it, everyone in the line comes to its head, by whatever leads from
site to site. Who has left may come again, behind all others. -/
theorem comes_forward (lock : Site → Lock) (kind : Progress → Bool) (Inv : Site → Prop)
    (Reach : Site → Site → Prop) (hrefl : ∀ site, Reach site site)
    (htrans : ∀ first second third, Reach first second → Reach second third → Reach first third)
    (hqueues : ∀ site, Inv site → (lock site).Queues (site.Stands kind))
    (hleaves : ∀ site head met, Inv site → (lock site).holder? = some head →
      site.progress? head = some met → kind met = true →
      ∃ later behind, Reach site later ∧ Inv later ∧
        (∀ other progress, other ≠ head → site.progress? other = some progress →
          later.progress? other = some progress) ∧
        (lock later).line = (lock site).line.tail ++ behind)
    {site : Site} (h : Inv site) {who : Nat} {progress : Progress}
    (hprogress : site.progress? who = some progress) (hkind : kind progress = true) :
    ∃ later, Reach site later ∧ Inv later ∧ (lock later).holder? = some who ∧
      later.progress? who = some progress := by
  have hmem : who ∈ (lock site).line := ((hqueues site h).mem_line who).2 ⟨_, hprogress, hkind⟩
  obtain ⟨ahead, behind, hline⟩ := List.append_of_mem hmem
  induction ahead generalizing site behind with
  | nil =>
    refine ⟨site, hrefl site, h, ?_, hprogress⟩
    rw [Lock.holder?_eq_head?, hline]
    rfl
  | cons first ahead ih =>
    have hhead : (lock site).holder? = some first := by
      rw [Lock.holder?_eq_head?, hline]
      rfl
    have hne : who ≠ first := by
      have hnodup := (hqueues site h).nodup
      rw [hline, List.cons_append, List.nodup_cons] at hnodup
      rintro rfl
      exact hnodup.1 (List.mem_append_right _ List.mem_cons_self)
    obtain ⟨met, hmet, hstands⟩ := (hqueues site h).wants_of_holder? hhead
    obtain ⟨mid, again, hmid, hinv, hstays, hleft⟩ := hleaves site first met h hhead hmet hstands
    have hlater : (lock mid).line = ahead ++ who :: (behind ++ again) := by
      rw [hleft, hline]
      simp
    obtain ⟨later, hreach, hlast⟩ := ih hinv (hstays who progress hne hprogress)
      (hlater ▸ List.mem_append_right _ List.mem_cons_self) _ hlater
    exact ⟨later, htrans _ _ _ hmid hreach, hlast⟩

/-- If every head of a line can leave it, everyone in the line comes to its head. -/
theorem comes_to_head (lock : Site → Lock) (kind : Progress → Bool) (Inv : Site → Prop)
    (hqueues : ∀ site, Inv site → (lock site).Queues (site.Stands kind))
    (hleaves : ∀ site head met, Inv site → (lock site).holder? = some head →
      site.progress? head = some met → kind met = true →
      ∃ moves later, site.run moves = some later ∧ Inv later ∧
        (∀ other, other ≠ head → Move.step other ∉ moves) ∧ lock later = (lock site).release)
    {site : Site} (h : Inv site) {who : Nat} {progress : Progress}
    (hprogress : site.progress? who = some progress) (hkind : kind progress = true) :
    ∃ moves later, site.run moves = some later ∧ Inv later ∧ (lock later).holder? = some who ∧
      later.progress? who = some progress := by
  obtain ⟨later, ⟨moves, hrun⟩, hlater⟩ := comes_forward lock kind Inv
    (fun site later => ∃ moves, site.run moves = some later) (fun _ => ⟨[], rfl⟩)
    (fun _ _ _ ⟨moves, hrun⟩ ⟨further, hrest⟩ =>
      ⟨moves ++ further, by rw [run_append, hrun]; exact hrest⟩)
    hqueues
    (fun site head met hsite hhead hmet hstands => by
      obtain ⟨moves, later, hrun, hinv, hmoves, hrelease⟩ :=
        hleaves site head met hsite hhead hmet hstands
      exact ⟨later, [], ⟨moves, hrun⟩, hinv,
        fun other met hne hmet => progress?_of_run hrun (hmoves other hne) hmet,
        by rw [hrelease, Lock.line_release, List.append_nil]⟩)
    h hprogress hkind
  exact ⟨moves, later, hrun, hlater⟩

/-! ## At the registrar -/

/-- Who is handled gets nearer to its end with each step, and a registration ends. -/
theorem Deed.left_lt {site mid : Site} {who : Nat} {former next : Progress}
    (h : site.Deed who former next mid) (hat : former.isAtRegistrar = true) :
    next.left < former.left ∧ ∀ key stage, former = .registering key stage →
      (∃ later, next = .registering key later) ∨ ∃ outcome, next = .finished outcome := by
  cases h with
  | aside hformer =>
    rw [Progress.not_isAtRegistrar_of_isAside hformer] at hat
    cases hat
  | begin | turnAway | replace | beginAgain | grant | refuse | attach | detach | register | abandon
  | giveUp =>
    refine ⟨by simp [Progress.left], ?_⟩
    rintro key stage ⟨⟩
    exact .inl ⟨_, rfl⟩
  | leave =>
    refine ⟨Nat.zero_lt_one, ?_⟩
    rintro key stage ⟨⟩
    exact .inr ⟨_, rfl⟩
  | lack | remove | delete | revoke =>
    refine ⟨by simp [Progress.left], ?_⟩
    rintro key stage ⟨⟩
  | leaveUnregistered | leaveClosing =>
    refine ⟨Nat.zero_lt_one, ?_⟩
    rintro key stage ⟨⟩
  | _ => cases hat

/-- An activity at the head of the line waits for nothing but the answer to its request. -/
theorem dueFrom_of_head {site : Site} {who : Nat} {progress : Progress}
    (hhead : site.registry.registrar.lock.holder? = some who) (hat : progress.isAtRegistrar = true) :
    (∃ time, site.dueFrom who progress = some time) ∧
      ∀ clock, Site.dueFrom { site with clock := clock } who progress = site.dueFrom who progress := by
  cases progress with
  | registering key stage =>
    cases stage with
    | queued => exact ⟨⟨0, if_pos hhead⟩, fun _ => rfl⟩
    | _ => exact ⟨⟨_, rfl⟩, fun _ => rfl⟩
  | unregistering closing stage =>
    cases stage with
    | queued => exact ⟨⟨0, if_pos hhead⟩, fun _ => rfl⟩
    | _ => exact ⟨⟨_, rfl⟩, fun _ => rfl⟩
  | _ => cases hat

/-- The line at the registrar and its activities stay in order. -/
theorem InLine.run {site later : Site} {moves : List Move} (h : site.InLine) (hbacked : site.Backed)
    (hrun : site.run moves = some later) : later.InLine ∧ later.Backed :=
  run_induction (P := fun site => site.InLine ∧ site.Backed) ⟨h, hbacked⟩
    (fun _ _ _ ⟨hsite, hback⟩ hmove => ⟨hsite.moved hback hmove, hback.moved hmove⟩) hrun

/-- Who leaves the registrar is done, or closes the registry. -/
theorem Deed.leaves_cases {site mid : Site} {who : Nat} {former next : Progress}
    (h : site.Deed who former next mid) (hat : former.isAtRegistrar = true) :
    next.isAtRegistrar = true ∨ next = .sealing ∨ ∃ outcome, next = .finished outcome := by
  cases h with
  | aside hformer =>
    rw [Progress.not_isAtRegistrar_of_isAside hformer] at hat
    cases hat
  | begin | turnAway | replace | beginAgain | grant | refuse | attach | detach | register | abandon
  | giveUp | lack | remove | delete | revoke => exact .inl rfl
  | leave | leaveUnregistered => exact .inr (.inr ⟨_, rfl⟩)
  | leaveClosing => exact .inr (.inl rfl)
  | _ => cases hat

/-- The head of the line at the registrar leaves it. It is done then, unless it closes the registry. -/
theorem InLine.head_leaves {site : Site} (h : site.InLine) (hbacked : site.Backed) {who : Nat}
    {former : Progress} (hhead : site.registry.registrar.lock.holder? = some who)
    (hprogress : site.progress? who = some former) (hat : former.isAtRegistrar = true) :
    ∃ later, Leads Progress.isAtRegistrar site later ∧
      (∀ other progress, other ≠ who → site.progress? other = some progress →
        later.progress? other = some progress) ∧
      later.registry.registrar.lock = site.registry.registrar.lock.release ∧
      (later.progress? who = some .sealing ∧ (∀ key stage, former ≠ .registering key stage) ∨
        ∃ outcome, later.progress? who = some (.finished outcome)) := by
  induction hleft : former.left using Nat.strong_induction_on generalizing site former with
  | _ left ih =>
    subst hleft
    have hcall : former.isBackground = false := by
      cases former with
      | registering | unregistering => rfl
      | _ => cases hat
    have hactivity := hbacked.activity_of_progress? hprogress hcall
    obtain ⟨⟨time, hdue⟩, hlater⟩ := dueFrom_of_head hhead hat
    have hrun := run_wait_step hactivity hdue hlater
    have hleads : Leads Progress.isAtRegistrar site _ := leads_step hactivity hat hdue hlater
    let there : Site := { site with clock := site.clock + time }
    have hdeed : there.Deed who former (there.stepFrom who former).1 (there.stepFrom who former).2 :=
      there.deed_of_stepFrom who former
    have hframe : there.Frame (there.stepFrom who former).2 := there.frame_stepFrom who former
    have hself := progress?_settle_self hframe (there.stepFrom who former).1
      (progress?_of_activity hactivity)
    have hothers : ∀ other progress, other ≠ who → site.progress? other = some progress →
        ((there.stepFrom who former).2.settle who (there.stepFrom who former).1).progress? other =
          some progress :=
      fun other progress hne hmet => progress?_of_run hrun (not_mem_wait_step hne) hmet
    obtain ⟨hless, hkind⟩ := hdeed.left_lt hat
    have hkept := h.run hbacked hrun
    rcases hdeed.lock_cases with ⟨hsame, hstays⟩ | ⟨-, -, hnot, -⟩ | ⟨hrelease, -, hgone⟩
    · obtain ⟨later, hfurther, hmoves, hleaves, hends⟩ := ih _ hless hkept.1 hkept.2
        (hsame ▸ hhead) hself (hstays ▸ hat) rfl
      refine ⟨later, hleads.trans hfurther, fun other progress hne hmet =>
        hmoves other progress hne (hothers other progress hne hmet),
        hleaves.trans (congrArg Lock.release hsame), hends.imp_left fun ⟨hsealing, hnot⟩ =>
        ⟨hsealing, fun key stage hformer => ?_⟩⟩
      rcases hkind key stage hformer with ⟨further, hnext⟩ | ⟨outcome, hnext⟩
      · exact hnot key further hnext
      · rw [hstays, hnext] at hat
        cases hat
    · rw [hat] at hnot
      cases hnot
    · refine ⟨_, hleads, hothers, hrelease, ?_⟩
      rcases hdeed.leaves_cases hat with hstill | hsealing | ⟨outcome, hended⟩
      · rw [hstill] at hgone
        cases hgone
      · refine .inl ⟨hself.trans (congrArg some hsealing), fun key stage hformer => ?_⟩
        rcases hkind key stage hformer with ⟨further, hnext⟩ | ⟨outcome, hnext⟩
        · cases hsealing.symm.trans hnext
        · cases hsealing.symm.trans hnext
      · exact .inr ⟨outcome, hself.trans (congrArg some hended)⟩

/-- Who has come to the registrar gets to the head of the line. -/
theorem InLine.comes_forward {site : Site} (h : site.InLine) (hbacked : site.Backed) {who : Nat}
    {progress : Progress} (hprogress : site.progress? who = some progress)
    (hat : progress.isAtRegistrar = true) :
    ∃ later, Leads Progress.isAtRegistrar site later ∧ (later.InLine ∧ later.Backed) ∧
      later.registry.registrar.lock.holder? = some who ∧ later.progress? who = some progress := by
  refine Site.comes_forward (fun site => site.registry.registrar.lock) Progress.isAtRegistrar
    (fun site => site.InLine ∧ site.Backed) (Leads Progress.isAtRegistrar) (.refl _)
    (fun _ _ _ => .trans) (fun _ ⟨hsite, _⟩ => hsite.queues) ?_ ⟨h, hbacked⟩ hprogress hat
  rintro there head met ⟨hthere, hback⟩ hfirst hmet hstands
  obtain ⟨later, hleads, hmoves, hrelease, -⟩ := hthere.head_leaves hback hfirst hmet hstands
  obtain ⟨moves, hrun, -⟩ := id hleads
  exact ⟨later, [], hleads, hthere.run hback hrun, hmoves,
    by rw [hrelease, Lock.line_release, List.append_nil]⟩

/-- A registration that has come to the registrar can be carried to its end. -/
theorem InLine.registration_ends {site : Site} (h : site.InLine) (hbacked : site.Backed) {who : Nat}
    {key : EndpointKey} {stage : Registering}
    (hprogress : site.progress? who = some (.registering key stage)) :
    ∃ moves later outcome, site.run moves = some later ∧
      later.progress? who = some (.finished outcome) := by
  obtain ⟨there, hcomes, ⟨hline, hback⟩, hhead, hstays⟩ := h.comes_forward hbacked hprogress rfl
  obtain ⟨last, hleaves, -, -, ⟨-, hnot⟩ | ⟨outcome, hended⟩⟩ := hline.head_leaves hback hhead hstays rfl
  · exact absurd rfl (hnot key stage)
  · obtain ⟨moves, hrun, -⟩ := hcomes.trans hleaves
    exact ⟨moves, last, outcome, hrun, hended⟩

end Site

end ServiceRegistry
