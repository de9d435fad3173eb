import ServiceRegistry.Proofs.Registry.Attendance

/-!
# Every call can come to its end

A call waits for an answer, for a dial, or for those who are ahead of it in a line. An answer and a dial
come in time. Whoever is at the head of a line leaves it when it is given the time: at the registrar
whatever the store answers, and at the gate whatever is found behind it, since a reading that fails, that
is dropped or whose cache is closed makes room like any other. So each call can be led to its end by time
and by the steps of activities alone.
-/
namespace ServiceRegistry

/-- Whether the activity is on its way to the connections of a service, or reads the store. -/
def Progress.isSeeking : Progress → Bool
  | .calling (.getConnections _) | .looking _ | .building _ _ => true
  | _ => false

namespace Progress

theorem isSeeking_of_isBuilding {progress : Progress} (h : progress.isBuilding = true) :
    progress.isSeeking = true := by
  cases progress with
  | building => rfl
  | _ => cases h

end Progress

namespace Site

/-! ## The two lines -/

/-- Who concludes a reading leaves the gate, and may come to it again behind all others. -/
theorem line_conclude (site : Site) (who : Nat) (errand : Errand) (result : Except Error Listing) :
    ∃ behind, (site.conclude who errand result).2.registry.gate.line =
      site.registry.gate.line.tail ++ behind := by
  have hrelease : site.releaseGate.registry.gate.line = site.registry.gate.line.tail :=
    Lock.line_release _
  cases errand with
  | resolve key => exact ⟨[], hrelease.trans (List.append_nil _).symm⟩
  | rebuild changes =>
    cases result with
    | ok listing => exact ⟨[], hrelease.trans (List.append_nil _).symm⟩
    | error e =>
      simp only [conclude, listenAfter]
      split <;> exact ⟨[], hrelease.trans (List.append_nil _).symm⟩
  | refresh key rest changes =>
    cases result with
    | ok listing =>
      cases rest with
      | nil => exact ⟨[], hrelease.trans (List.append_nil _).symm⟩
      | cons next rest =>
        refine ⟨[who], ?_⟩
        simp only [conclude, refreshNext, enterGate, mapRegistry, Lock.line_enter]
        rw [hrelease]
    | error e =>
      simp only [conclude, listenAfter]
      split <;> exact ⟨[], hrelease.trans (List.append_nil _).symm⟩

/-- What keeps the gate and the registrar of a site in order. -/
structure Arranged (site : Site) : Prop where
  queues : site.registry.gate.Queues (site.Stands Progress.isBuilding)
  orderly : site.Orderly
  inLine : site.InLine
  backed : site.Backed

theorem Arranged.moved {site after : Site} {move : Move} (h : site.Arranged)
    (hmove : site.after move = some after) : after.Arranged :=
  ⟨queues_moved h.queues h.orderly hmove, h.orderly.moved (moved_of_after hmove),
    h.inLine.moved h.backed hmove, h.backed.moved hmove⟩

theorem Arranged.run {site later : Site} {moves : List Move} (h : site.Arranged)
    (hrun : site.run moves = some later) : later.Arranged :=
  run_induction h (fun _ _ _ hsite hmove => hsite.moved hmove) hrun

theorem Arranged.leads {kind : Progress → Bool} {site later : Site} (h : site.Arranged)
    (hleads : Leads kind site later) : later.Arranged := by
  obtain ⟨moves, hrun, -⟩ := hleads
  exact h.run hrun

theorem arranged_of_run {store : Store} {config : Config} {dialer : Dialer} {faults : Faults}
    {moves : List Move} {site : Site}
    (hrun : (start store config dialer faults).run moves = some site) : site.Arranged :=
  ⟨queues_of_run hrun, orderly_of_run hrun, (inLine_of_run hrun).1, (inLine_of_run hrun).2⟩

/-- The head of the line in front of the gate leaves it, and a caller is done then. -/
theorem Arranged.head_leaves {site : Site} (h : site.Arranged) {who : Nat} {errand : Errand}
    {build : Build} (hholder : site.registry.gate.holder? = some who)
    (hactivity : site.registry.activities[who]? = some ⟨.building errand build, false⟩) :
    ∃ later behind, Leads Progress.isBuilding site later ∧
      (∀ other progress, other ≠ who → site.progress? other = some progress →
        later.progress? other = some progress) ∧
      later.registry.gate.line = site.registry.gate.line.tail ++ behind ∧
      ∀ key, errand = .resolve key → ∃ outcome, later.progress? who = some (.finished outcome) := by
  induction hleft : build.toGo using Nat.strong_induction_on generalizing site build with
  | _ left ih =>
    subst hleft
    obtain ⟨⟨time, hdue⟩, hlater⟩ := dueFrom_of_gate_head errand build hholder
    let there : Site := { site with clock := site.clock + time }
    have hrun := run_wait_step hactivity hdue hlater
    have hleads : Leads Progress.isBuilding site _ := leads_step hactivity rfl hdue hlater
    have hframe : there.Frame (there.stepBuild who errand build).2 :=
      there.frame_stepFrom who (.building errand build)
    have hothers : ∀ other progress, other ≠ who → site.progress? other = some progress →
        ((there.stepBuild who errand build).2.settle who
          (there.stepBuild who errand build).1).progress? other = some progress :=
      fun other progress hne hmet => progress?_of_run hrun (not_mem_wait_step hne) hmet
    have hself := progress?_settle_self hframe (there.stepBuild who errand build).1
      (progress?_of_activity hactivity)
    have hproceeds := there.proceeds_stepBuild who errand build
    change site.run _ = some ((there.stepBuild who errand build).2.settle who
      (there.stepBuild who errand build).1) at hrun
    change Leads Progress.isBuilding site ((there.stepBuild who errand build).2.settle who
      (there.stepBuild who errand build).1) at hleads
    generalize there.stepBuild who errand build = result at *
    cases hproceeds with
    | @onward further after hless hregistry =>
      have hsame : (after.settle who (.building errand further)).registry.gate = site.registry.gate := by
        rw [gate_settle, hregistry]
      have hthere : (after.settle who (.building errand further)).registry.activities[who]? =
          some ⟨.building errand further, false⟩ := by
        simp [settle, mapRegistry, Registry.move, hregistry, there, hactivity]
      obtain ⟨later, behind, hrest, hmoves, hline, hends⟩ := ih _ hless (h.run hrun)
        (hsame ▸ hholder) hthere rfl
      exact ⟨later, behind, hleads.trans hrest, fun other progress hne hmet =>
        hmoves other progress hne (hothers other progress hne hmet), hsame ▸ hline, hends⟩
    | @conclude outcome mid hgate hfails =>
      obtain ⟨behind, hline⟩ := mid.line_conclude who errand outcome
      refine ⟨_, behind, hleads, hothers, hgate ▸ hline, ?_⟩
      rintro key rfl
      exact ⟨_, hself⟩

/-- Who stands in the line in front of the gate gets to its head. -/
theorem Arranged.comes_forward {site : Site} (h : site.Arranged) {who : Nat} {progress : Progress}
    (hprogress : site.progress? who = some progress) (hbuilding : progress.isBuilding = true) :
    ∃ later, Leads Progress.isBuilding site later ∧ later.Arranged ∧
      later.registry.gate.holder? = some who ∧ later.progress? who = some progress := by
  refine Site.comes_forward (fun site => site.registry.gate) Progress.isBuilding Arranged
    (Leads Progress.isBuilding) (.refl _) (fun _ _ _ => .trans) (fun _ hsite => hsite.queues) ?_ h
    hprogress hbuilding
  intro there head progress hthere hhead hmet hstands
  obtain ⟨⟨met, asked⟩, hactivity, rfl⟩ := Option.map_eq_some_iff.1 hmet
  cases met with
  | building errand build =>
    cases asked with
    | true =>
      obtain ⟨hready, hrelease⟩ := asked_leaves hhead hactivity
      have hleads : Leads Progress.isBuilding there (there.step head) :=
        .of_step hready ⟨_, progress?_of_activity hactivity, rfl⟩
      exact ⟨_, [], hleads, hthere.leads hleads,
        fun other met hne hmet => progress?_of_run (run_step hready) (by simpa using hne) hmet,
        by rw [hrelease, Lock.line_release, List.append_nil]⟩
    | false =>
      obtain ⟨later, behind, hleads, hmoves, hline, -⟩ := hthere.head_leaves hhead hactivity
      exact ⟨later, behind, hleads, hthere.leads hleads, hmoves, hline⟩
  | _ => cases hstands

/-! ## Calls -/

/-- An activity can be led to its end by activities of a kind. -/
def Ends (kind : Progress → Bool) (site : Site) (who : Nat) : Prop :=
  ∃ later outcome, Leads kind site later ∧ later.progress? who = some (.finished outcome)

section
variable {kind : Progress → Bool} {site : Site} {who : Nat}

theorem Ends.mono {other : Progress → Bool} (h : Ends kind site who)
    (hsub : ∀ progress, kind progress = true → other progress = true) : Ends other site who := by
  obtain ⟨later, outcome, hleads, hended⟩ := h
  exact ⟨later, outcome, hleads.mono hsub, hended⟩

theorem Ends.of_leads {later : Site} (h : Ends kind later who) (hleads : Leads kind site later) :
    Ends kind site who := by
  obtain ⟨last, outcome, hrest, hended⟩ := h
  exact ⟨last, outcome, hleads.trans hrest, hended⟩

/-- A call that waits for its time alone goes on when the time has come. -/
theorem Arranged.goes_on (h : site.Arranged) (kind : Progress → Bool) {progress : Progress} {time : Nat}
    (hprogress : site.progress? who = some progress) (hcall : progress.isBackground = false)
    (hdue : site.dueFrom who progress = some time)
    (hlater : ∀ clock, Site.dueFrom { site with clock := clock } who progress =
      site.dueFrom who progress) (hkind : kind progress = true) :
    ∃ later, Leads kind site later ∧ later.Arranged ∧ later.progress? who =
      some (Site.stepFrom { site with clock := site.clock + time } who progress).1 := by
  have hactivity := h.backed.activity_of_progress? hprogress hcall
  have hleads : Leads kind site _ := leads_step hactivity hkind hdue hlater
  exact ⟨_, hleads, h.leads hleads,
    progress?_settle_self (Site.frame_stepFrom _ who progress) _ hprogress⟩

variable (h : site.Arranged)
include h

theorem Arranged.reader_ends {key : ServiceKey} {build : Build}
    (hprogress : site.progress? who = some (.building (.resolve key) build)) :
    Ends Progress.isBuilding site who := by
  obtain ⟨there, hcomes, harranged, hhead, hstays⟩ := h.comes_forward hprogress rfl
  obtain ⟨last, -, hleaves, -, -, hends⟩ :=
    harranged.head_leaves hhead (harranged.backed.activity_of_progress? hstays rfl)
  obtain ⟨outcome, hended⟩ := hends key rfl
  exact ⟨last, outcome, hcomes.trans hleaves, hended⟩

theorem Arranged.looker_ends {key : ServiceKey}
    (hprogress : site.progress? who = some (.looking key)) : Ends Progress.isSeeking site who := by
  obtain ⟨later, hleads, harranged, hnext⟩ :=
    h.goes_on Progress.isSeeking hprogress rfl rfl (fun _ => rfl) rfl
  refine Ends.of_leads ?_ hleads
  simp only [stepFrom, stepLooking] at hnext
  split at hnext
  · exact ⟨later, _, .refl _ later, hnext⟩
  · exact (harranged.reader_ends hnext).mono fun _ => Progress.isSeeking_of_isBuilding
  · exact ⟨later, _, .refl _ later, hnext⟩

/-- A call for the connections of a service can be led to its end. -/
theorem Arranged.seeker_ends {service : String}
    (hprogress : site.progress? who = some (.calling (.getConnections service))) :
    Ends Progress.isSeeking site who := by
  obtain ⟨later, hleads, harranged, hnext⟩ :=
    h.goes_on Progress.isSeeking hprogress rfl rfl (fun _ => rfl) rfl
  refine Ends.of_leads ?_ hleads
  simp only [stepFrom, stepCalling] at hnext
  split at hnext
  · exact ⟨later, _, .refl _ later, hnext⟩
  · exact ⟨later, _, .refl _ later, hnext⟩
  · exact harranged.looker_ends hnext

theorem Arranged.sealer_ends (hprogress : site.progress? who = some .sealing) :
    Ends (fun _ => true) site who := by
  obtain ⟨later, hleads, -, hnext⟩ := h.goes_on (fun _ => true) hprogress rfl rfl (fun _ => rfl) rfl
  exact ⟨later, _, hleads, hnext⟩

/-- Who has come to the registrar is led to the end of its call. -/
theorem Arranged.registrant_ends {progress : Progress} (hprogress : site.progress? who = some progress)
    (hat : progress.isAtRegistrar = true) : Ends (fun _ => true) site who := by
  obtain ⟨there, hcomes, ⟨hline, hback⟩, hhead, hstays⟩ :=
    h.inLine.comes_forward h.backed hprogress hat
  obtain ⟨last, hleaves, -, -, ⟨hsealing, -⟩ | ⟨outcome, hended⟩⟩ :=
    hline.head_leaves hback hhead hstays hat
  · have hleads : Leads (fun _ => true) site last := (hcomes.trans hleaves).mono fun _ _ => rfl
    exact ((h.leads hleads).sealer_ends hsealing).of_leads hleads
  · exact ⟨last, outcome, (hcomes.trans hleaves).mono fun _ _ => rfl, hended⟩

theorem Arranged.locator_ends {key : ServiceKey} {options : List DialOption}
    {flight : Flight .getPrefix} (hprogress : site.progress? who = some (.locating key options flight)) :
    Ends (fun _ => true) site who := by
  obtain ⟨later, hleads, -, hnext⟩ := h.goes_on (fun _ => true) hprogress rfl rfl (fun _ => rfl) rfl
  simp only [stepFrom, stepLocating] at hnext
  split at hnext <;> exact ⟨later, _, hleads, hnext⟩

/-- A call that has just been made can be led to its end. -/
theorem Arranged.caller_ends {call : Call} (hprogress : site.progress? who = some (.calling call)) :
    Ends (fun _ => true) site who := by
  obtain ⟨later, hleads, harranged, hnext⟩ :=
    h.goes_on (fun _ => true) hprogress rfl rfl (fun _ => rfl) rfl
  have hended : ∀ outcome, later.progress? who = some (.finished outcome) →
      Ends (fun _ => true) later who := fun outcome hended => ⟨later, outcome, .refl _ later, hended⟩
  cases call with
  | getConnections => exact (h.seeker_ends hprogress).mono fun _ _ => rfl
  | addOptions | invalidate => exact (hended _ hnext).of_leads hleads
  | register service host port =>
    refine Ends.of_leads ?_ hleads
    simp only [stepFrom, stepCalling] at hnext
    split at hnext
    · exact hended _ hnext
    · exact hended _ hnext
    · exact harranged.registrant_ends hnext rfl
  | unregister | close =>
    refine Ends.of_leads ?_ hleads
    simp only [stepFrom, stepCalling] at hnext
    split at hnext
    · exact hended _ hnext
    · exact harranged.registrant_ends hnext rfl
  | getConnection service options =>
    refine Ends.of_leads ?_ hleads
    simp only [stepFrom, stepCalling] at hnext
    split at hnext
    · exact hended _ hnext
    · exact hended _ hnext
    · exact harranged.locator_ends hnext

/-- Every call can be led to its end by time and the steps of activities. -/
theorem Arranged.call_ends {progress : Progress} (hprogress : site.progress? who = some progress)
    (hcall : progress.isBackground = false) : Ends (fun _ => true) site who := by
  cases progress with
  | calling => exact h.caller_ends hprogress
  | looking => exact (h.looker_ends hprogress).mono fun _ _ => rfl
  | building errand build =>
    cases errand with
    | resolve key => exact (h.reader_ends hprogress).mono fun _ _ => rfl
    | refresh | rebuild => cases hcall
  | locating => exact h.locator_ends hprogress
  | registering | unregistering => exact h.registrant_ends hprogress rfl
  | sealing => exact h.sealer_ends hprogress
  | _ => cases hcall

end

end Site

end ServiceRegistry
