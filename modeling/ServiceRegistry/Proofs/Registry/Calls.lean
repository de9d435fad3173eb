import ServiceRegistry.Proofs.Registry.History

/-!
# Calls from their beginning to their end

A call is an activity of its own, known by the number that it was given when it was made. Between two
of its own steps an activity stays where it is, so whatever its steps keep is known of it at any later
point of the run. `Calls.progress` is the way to show what becomes of a call.
-/
namespace ServiceRegistry

/-- The call was made during a run, and was given the number. -/
def Calls (past : List (Site × Move)) (who : Nat) (call : Call) : Prop :=
  ∃ site, (site, .call call) ∈ past ∧ site.registry.activities.length = who

theorem Calls.mono {past later : List (Site × Move)} {who : Nat} {call : Call}
    (h : Calls past who call) (hsub : past ⊆ later) : Calls later who call := by
  obtain ⟨site, hmem, hlength⟩ := h
  exact ⟨site, hsub hmem, hlength⟩

/-- A call was made earlier or by the last move. -/
theorem Calls.of_append {past : List (Site × Move)} {site : Site} {move : Move} {who : Nat}
    {call : Call} (h : Calls (past ++ [(site, move)]) who call) :
    Calls past who call ∨ move = .call call ∧ who = site.registry.activities.length := by
  obtain ⟨early, hmem, hlength⟩ := h
  rcases List.mem_append.1 hmem with hbefore | hlast
  · exact .inl ⟨early, hbefore, hlength⟩
  · cases List.mem_singleton.1 hlast
    exact .inr ⟨rfl, hlength.symm⟩

/-- The call was made where the moves before it have led. -/
theorem Calls.of_split {site mid : Site} {before : List Move} {call : Call}
    (hrun : site.run before = some mid) (later : List Move) :
    Calls (site.history (before ++ .call call :: later)) mid.registry.activities.length call :=
  ⟨mid, Site.mem_history_of_run hrun _ later, rfl⟩

namespace Site

/-- An activity stays where it is as long as others move. -/
theorem progress?_of_other {site after : Site} {move : Move} {who : Nat} {progress : Progress}
    (hmove : site.after move = some after) (hother : move ≠ .step who)
    (h : site.progress? who = some progress) : after.progress? who = some progress := by
  obtain ⟨activity, hactivity, rfl⟩ := Option.map_eq_some_iff.1 h
  cases moved_of_after hmove with
  | @turn other former next mid hformer hready hturn hframe =>
    obtain ⟨cancelled, hmid, -⟩ := hframe.kept who activity hactivity
    have hne : other ≠ who := fun he => hother (he ▸ rfl)
    simp [progress?, settle, mapRegistry, Registry.move, hne, hmid]
  | calm hcalm hcache hgate hframe =>
    obtain ⟨cancelled, hafter, -⟩ := hframe.kept who activity hactivity
    rw [progress?_of_activity hafter]

/-- An activity stays where it is in a run in which it takes no step. -/
theorem progress?_of_run {site later : Site} {moves : List Move} {who : Nat} {progress : Progress}
    (hrun : site.run moves = some later) (hother : Move.step who ∉ moves)
    (h : site.progress? who = some progress) : later.progress? who = some progress := by
  induction moves generalizing site with
  | nil => exact Option.some.inj hrun ▸ h
  | cons move moves ih =>
    rw [run_cons] at hrun
    obtain ⟨next, hnext, hrest⟩ := Option.bind_eq_some_iff.1 hrun
    exact ih hrest (List.not_mem_of_not_mem_cons hother)
      (progress?_of_other hnext (List.ne_of_not_mem_cons hother).symm h)

/-- Where an activity is after its own step. -/
theorem progress?_step {site : Site} {who : Nat} {activity : Activity}
    (h : site.registry.activities[who]? = some activity) :
    (site.step who).progress? who = some (if activity.isDropped then .finished (.ok .done)
      else (site.stepFrom who activity.progress).1) := by
  rw [step, h]
  by_cases hdropped : activity.isDropped = true
  · simp only [hdropped, if_true, drop_eq]
    simp [progress?, settle, leaveLocks, mapRegistry, mapRegistrar, Registry.move, h]
  · obtain ⟨cancelled, hmid, -⟩ := (site.frame_stepFrom who activity.progress).kept who activity h
    simp only [hdropped, Bool.false_eq_true, if_false]
    simp [progress?, mapRegistry, Registry.move, hmid]

/-- An activity that has ended does not move any more. -/
theorem finished_of_after {site after : Site} {move : Move} {who : Nat}
    {outcome : Except Error Outcome} (h : site.progress? who = some (.finished outcome))
    (hmove : site.after move = some after) : after.progress? who = some (.finished outcome) := by
  by_cases hother : move = .step who
  · subst hother
    obtain ⟨-, rfl⟩ := of_after_step hmove
    obtain ⟨⟨progress, asked⟩, hactivity, rfl⟩ := Option.map_eq_some_iff.1 h
    rw [progress?_step hactivity]
    simp [Activity.isDropped, Activity.outcome?, stepFrom]
  · exact progress?_of_other hmove hother h

theorem finished_of_run {site later : Site} {moves : List Move} {who : Nat}
    {outcome : Except Error Outcome} (h : site.progress? who = some (.finished outcome))
    (hrun : site.run moves = some later) : later.progress? who = some (.finished outcome) :=
  run_induction (P := fun site => site.progress? who = some (.finished outcome)) h
    (fun _ _ _ hfinished hmove => finished_of_after hfinished hmove) hrun

/-- A call that has just been made has the next number. -/
theorem progress?_call {site after : Site} {call : Call} (h : site.after (.call call) = some after) :
    after.progress? site.registry.activities.length = some (.calling call) := by
  cases h
  simp [progress?, mapRegistry, Registry.begin, Activity.begin]

end Site

/-- What is true of a call when it is made and is kept by each of its steps is true of it at any later
point of the run. -/
theorem Calls.progress {config : Config} {P : Progress → Prop} {who : Nat} {call : Call}
    (hcalling : P (.calling call)) (hended : P (.finished (.ok .done)))
    (hkept : ∀ site progress, site.registry.config = config → P progress →
      P (Site.stepFrom site who progress).1)
    {store : Store} {dialer : Dialer} {faults : Faults} {moves : List Move} {final : Site}
    (hrun : (Site.start store config dialer faults).run moves = some final)
    (hcall : Calls ((Site.start store config dialer faults).history moves) who call) :
    ∃ progress, final.progress? who = some progress ∧ P progress := by
  refine Site.history_induction (P := fun past site => Calls past who call →
    ∃ progress, site.progress? who = some progress ∧ P progress) ?_ ?_ hrun hcall
  · rintro ⟨site, hmem, -⟩
    cases hmem
  · intro before site move after hbefore ih hmove hcalls
    rcases hcalls.of_append with hearlier | ⟨rfl, rfl⟩
    · obtain ⟨progress, hprogress, hholds⟩ := ih hearlier
      by_cases hother : move = .step who
      · subst hother
        obtain ⟨activity, hactivity, rfl⟩ := Option.map_eq_some_iff.1 hprogress
        obtain ⟨-, rfl⟩ := Site.of_after_step hmove
        refine ⟨_, Site.progress?_step hactivity, ?_⟩
        split
        · exact hended
        · exact hkept site _ (Site.precedes_of_run hbefore).config hholds
      · exact ⟨progress, Site.progress?_of_other hmove hother hprogress, hholds⟩
    · exact ⟨_, Site.progress?_call hmove, hcalling⟩

end ServiceRegistry
