import ServiceRegistry.Proofs.Registry.Turn

/-!
# Moves of a site

A move is either the turn of one activity or something that leaves the cache and the gate alone.
`moved_of_after` says so of every move that can be made; whatever is to be shown of all runs is
shown for these two. Both leave the other activities where they stood, so what is known of an
activity after a move was either known of it before or is what its own turn has brought about.
-/
namespace ServiceRegistry

namespace Site

/-- The site with an activity moved on to a point. -/
def settle (site : Site) (who : Nat) (next : Progress) : Site :=
  site.mapRegistry fun registry => registry.move who next

@[simp] theorem cache_settle (site : Site) (who : Nat) (next : Progress) :
    (site.settle who next).registry.cache = site.registry.cache := rfl

@[simp] theorem gate_settle (site : Site) (who : Nat) (next : Progress) :
    (site.settle who next).registry.gate = site.registry.gate := rfl

/-- What a move does to a site. -/
inductive Moved (site : Site) : Move → Site → Prop
  /-- An activity takes a step. -/
  | turn {who : Nat} {activity : Activity} {next : Progress} {mid : Site}
      (hactivity : site.registry.activities[who]? = some activity)
      (hready : site.canStep who = true) (hturn : site.Turn who activity next mid)
      (hframe : site.Frame mid) :
      site.Moved (.step who) (mid.settle who next)
  /-- Something other than a step happens. -/
  | calm {move : Move} {after : Site} (hmove : ∀ who, move ≠ .step who)
      (hcache : after.registry.cache = site.registry.cache)
      (hgate : after.registry.gate = site.registry.gate) (hframe : site.Frame after) :
      site.Moved move after

/-- The activity that can take a step, and the time from which it could. -/
theorem of_canStep {site : Site} {who : Nat} (h : site.canStep who = true) :
    ∃ activity, site.registry.activities[who]? = some activity ∧
      (activity.isDropped = true ∨ activity.isDropped = false ∧
        ∃ time, site.dueFrom who activity.progress = some time ∧ time ≤ site.clock) := by
  unfold canStep at h
  cases hdue : site.due who with
  | none => simp [hdue] at h
  | some time =>
    have hle : time ≤ site.clock := by simpa [hdue] using h
    unfold due at hdue
    split at hdue
    · cases hdue
    · rename_i activity hactivity
      refine ⟨activity, hactivity, ?_⟩
      split at hdue
      · rename_i hdropped
        exact .inl hdropped
      · rename_i hdropped
        exact .inr ⟨by simpa using hdropped, time, hdue, hle⟩

/-- A step that is taken could be taken. -/
theorem of_after_step {site next : Site} {who : Nat} (h : site.after (.step who) = some next) :
    site.canStep who = true ∧ next = site.step who := by
  simp only [Site.after] at h
  split at h
  · rename_i hready
    exact ⟨hready, (Option.some.inj h).symm⟩
  · cases h

/-- The step of an activity that nobody has asked to end. -/
theorem step_of_activity {site : Site} {who : Nat} {progress : Progress}
    (h : site.registry.activities[who]? = some ⟨progress, false⟩) :
    site.step who = (site.stepFrom who progress).2.settle who (site.stepFrom who progress).1 := by
  have hgoing : Activity.isDropped ⟨progress, false⟩ = false := rfl
  rw [step, h]
  simp only [hgoing, Bool.false_eq_true, if_false]
  rfl

theorem isDropped_of_going {progress : Progress} (hgoing : ∀ outcome, progress ≠ .finished outcome) :
    Activity.isDropped ⟨progress, true⟩ = true := by
  cases progress with
  | finished outcome => exact absurd rfl (hgoing outcome)
  | _ => rfl

/-- Who was asked to end can do so at once. -/
theorem step_of_asked {site : Site} {who : Nat} {progress : Progress}
    (h : site.registry.activities[who]? = some ⟨progress, true⟩)
    (hgoing : ∀ outcome, progress ≠ .finished outcome) :
    site.canStep who = true ∧ site.step who = site.drop who := by
  have hdropped := isDropped_of_going hgoing
  exact ⟨by simp [canStep, due, h, hdropped], by simp [step, h, hdropped]⟩

/-- Whoever was asked to end does nothing else. -/
theorem step_of_dropped {site : Site} {who : Nat} {progress : Progress}
    (hready : site.canStep who = true)
    (h : site.registry.activities[who]? = some ⟨progress, true⟩) : site.step who = site.drop who := by
  obtain ⟨activity, hactivity, hgoing⟩ := of_canStep hready
  rw [h] at hactivity
  cases hactivity
  refine (step_of_asked h fun outcome hfinished => ?_).2
  subst hfinished
  rcases hgoing with hdropped | ⟨-, time, hdue, -⟩
  · cases hdropped
  · cases hdue

/-- The step can be taken from the time on that it waits for. -/
theorem canStep_of_due {site : Site} {who : Nat} {progress : Progress} {time : Nat}
    (h : site.registry.activities[who]? = some ⟨progress, false⟩)
    (hdue : site.dueFrom who progress = some time) (hle : time ≤ site.clock) :
    site.canStep who = true := by
  have hgoing : Activity.isDropped ⟨progress, false⟩ = false := rfl
  simp only [canStep, due, h, hgoing, Bool.false_eq_true, if_false, hdue, Option.any_some,
    decide_eq_true_eq]
  exact hle

/-- Who can take a step in front of the gate has come to the gate. -/
theorem holder_of_canStep {site : Site} {who : Nat} {errand : Errand} (h : site.canStep who = true)
    (hactivity : site.registry.activities[who]? = some ⟨.building errand .queued, false⟩) :
    site.registry.gate.holder? = some who := by
  obtain ⟨activity, hsame, hready⟩ := of_canStep h
  rw [hactivity] at hsame
  cases hsame
  rcases hready with hdropped | ⟨-, time, hdue, -⟩
  · cases hdropped
  · simp only [dueFrom, dueBehind] at hdue
    split at hdue
    · assumption
    · cases hdue

/-- What an activity that was asked to end does before it ends. -/
def leaveLocks (site : Site) (who : Nat) : Site :=
  (site.mapRegistrar fun registrar => { registrar with lock := registrar.lock.leave who }).mapRegistry
    fun registry => { registry with gate := registry.gate.leave who }

theorem drop_eq (site : Site) (who : Nat) :
    site.drop who = (site.leaveLocks who).settle who (.finished (.ok .done)) := rfl

theorem frame_leaveLocks (site : Site) (who : Nat) : site.Frame (site.leaveLocks who) :=
  .of_eq rfl rfl rfl rfl (.same rfl rfl) (.refl _)

theorem turn_leaveLocks (site : Site) (who : Nat) (activity : Activity) :
    site.Turn who activity (.finished (.ok .done)) (site.leaveLocks who) :=
  .quiet rfl rfl rfl (.inr (.inr rfl))

/-- Every move is a turn or leaves the cache and the gate alone. -/
theorem moved_of_after {site after : Site} {move : Move} (h : site.after move = some after) :
    site.Moved move after := by
  cases move with
  | step who =>
    simp only [Site.after] at h
    split at h
    · rename_i hready
      obtain ⟨activity, hactivity, hgoing⟩ := of_canStep hready
      simp only [step, hactivity, Option.some.injEq] at h
      rcases hgoing with hdropped | ⟨hdropped, time, hdue, -⟩
      · rw [if_pos hdropped] at h
        rw [← h, drop_eq]
        exact .turn hactivity hready (site.turn_leaveLocks who activity) (site.frame_leaveLocks who)
      · have hgoes : ∀ outcome, activity.progress ≠ .finished outcome := by
          intro outcome hfinished
          rw [hfinished] at hdue
          cases hdue
        have hasked : activity.cancelled = false := by
          rcases activity with ⟨progress, _ | _⟩
          · rfl
          · cases progress with
            | finished outcome => exact absurd rfl (hgoes outcome)
            | _ => cases hdropped
        rw [if_neg (by simp [hdropped])] at h
        rw [← h]
        refine .turn hactivity hready ?_ (site.frame_stepFrom who activity.progress)
        rw [show activity = ⟨activity.progress, false⟩ from hasked ▸ rfl]
        exact site.turn_of_stepFrom who hgoes
    · cases h
  | call call =>
    cases h
    exact .calm (fun _ hstep => by cases hstep) rfl rfl (site.frame_begin rfl)
  | request request =>
    have hseen : site.Seen after := .of_after rfl h rfl rfl
    simp only [Site.after] at h
    split at h
    · cases h
      exact .calm (fun _ hstep => by cases hstep) rfl rfl (.of_eq rfl rfl rfl rfl hseen (.refl _))
    · cases h
      exact .calm (fun _ hstep => by cases hstep) rfl rfl (.refl site)
  | outage | closeStore | wait =>
    have hseen : site.Seen after := .of_after rfl h rfl rfl
    cases h
    exact .calm (fun _ hstep => by cases hstep) rfl rfl (.of_eq rfl rfl rfl rfl hseen (.refl _))

/-! ## Where activities stand after a move -/

theorem Frame.active_cases {before after : Site} (h : before.Frame after) {who : Nat}
    {progress : Progress} (hafter : after.registry.activities[who]? = some ⟨progress, false⟩) :
    before.registry.activities[who]? = some ⟨progress, false⟩ ∨ progress.isBeginning = true := by
  rcases h.begun who progress (progress?_of_activity hafter) with hbefore | ⟨-, hbegins⟩
  · left
    obtain ⟨⟨former, asked⟩, hformer, rfl⟩ := Option.map_eq_some_iff.1 hbefore
    obtain ⟨cancelled, hsame, hcancelled⟩ := h.kept who _ hformer
    rw [hafter] at hsame
    cases hsame
    cases asked with
    | false => exact hformer
    | true => exact absurd (hcancelled rfl) Bool.false_ne_true
  · exact .inr hbegins

section
variable {site mid : Site} {who other : Nat} {next progress : Progress} (hframe : site.Frame mid)
include hframe

/-- An activity that is met after a turn has just been moved, or stood there before, or has begun.
-/
theorem progress?_turned
    (h : (mid.settle who next).progress? other = some progress) :
    other = who ∧ progress = next ∨
      other ≠ who ∧ (site.progress? other = some progress ∨ progress.isBeginning = true) := by
  obtain ⟨activity, hactivity, rfl⟩ := Option.map_eq_some_iff.1 h
  simp only [settle, mapRegistry, Registry.move, List.getElem?_modify] at hactivity
  obtain ⟨former, hformer, hmoved⟩ := Option.map_eq_some_iff.1 hactivity
  by_cases hwho : who = other
  · left
    rw [if_pos hwho] at hmoved
    rw [← hmoved]
    exact ⟨hwho.symm, rfl⟩
  · right
    rw [if_neg hwho] at hmoved
    have hmid : mid.progress? other = some activity.progress := by
      rw [← hmoved, progress?, hformer]
      rfl
    exact ⟨Ne.symm hwho, (hframe.begun other _ hmid).imp_right And.right⟩

/-- The same of activities that nobody has asked to end. -/
theorem active_turned
    (h : (mid.settle who next).registry.activities[other]? = some ⟨progress, false⟩) :
    other = who ∧ progress = next ∨
      other ≠ who ∧ (site.registry.activities[other]? = some ⟨progress, false⟩ ∨
        progress.isBeginning = true) := by
  simp only [settle, mapRegistry, Registry.move, List.getElem?_modify] at h
  obtain ⟨⟨former, asked⟩, hformer, hmoved⟩ := Option.map_eq_some_iff.1 h
  by_cases hwho : who = other
  · left
    rw [if_pos hwho] at hmoved
    cases hmoved
    exact ⟨hwho.symm, rfl⟩
  · right
    rw [if_neg hwho] at hmoved
    cases hmoved
    exact ⟨Ne.symm hwho, hframe.active_cases hformer⟩

end

section
variable {site mid : Site} {who other : Nat} {former next progress : Progress}
  (hframe : site.Frame mid)
include hframe

/-- Where an activity is after its own step. -/
theorem progress?_settle_self (next : Progress) (h : site.progress? who = some former) :
    (mid.settle who next).progress? who = some next := by
  obtain ⟨activity, hactivity, -⟩ := Option.map_eq_some_iff.1 h
  obtain ⟨cancelled, hmid, -⟩ := hframe.kept who activity hactivity
  simp [progress?, settle, mapRegistry, Registry.move, hmid]

/-- The others stay where they are. -/
theorem progress?_settle_other (hne : other ≠ who) (h : site.progress? other = some progress) :
    (mid.settle who next).progress? other = some progress := by
  obtain ⟨activity, hactivity, rfl⟩ := Option.map_eq_some_iff.1 h
  obtain ⟨cancelled, hmid, -⟩ := hframe.kept other activity hactivity
  simp [progress?, settle, mapRegistry, Registry.move, hmid, Ne.symm hne]

end

/-- The activity is met at a point of a kind. -/
def Stands (site : Site) (kind : Progress → Bool) (who : Nat) : Prop :=
  ∃ progress, site.progress? who = some progress ∧ kind progress = true

theorem stands_iff {site : Site} (kind : Progress → Bool) {who : Nat} {progress : Progress}
    (h : site.progress? who = some progress) : site.Stands kind who ↔ kind progress = true := by
  constructor
  · rintro ⟨met, hmet, hkind⟩
    rw [h] at hmet
    cases hmet
    exact hkind
  · exact fun hkind => ⟨progress, h, hkind⟩

/-- Where others stand does not depend on the step of an activity. -/
theorem stands_settle_other {site mid : Site} {who other : Nat} {next : Progress}
    {kind : Progress → Bool} (hframe : site.Frame mid)
    (hkind : ∀ progress : Progress, progress.isBeginning = true → kind progress = false)
    (hne : other ≠ who) : (mid.settle who next).Stands kind other ↔ site.Stands kind other := by
  constructor
  · rintro ⟨progress, hprogress, hstands⟩
    rcases progress?_turned hframe hprogress with ⟨hwho, -⟩ | ⟨-, hbefore | hbegins⟩
    · exact absurd hwho hne
    · exact ⟨progress, hbefore, hstands⟩
    · rw [hkind progress hbegins] at hstands
      cases hstands
  · rintro ⟨progress, hprogress, hstands⟩
    exact ⟨progress, progress?_settle_other hframe hne hprogress, hstands⟩

/-- Who stands at a point of a kind is the same after the step of an activity that keeps its kind. -/
theorem stands_settle {site mid : Site} {who : Nat} {former next : Progress}
    {kind : Progress → Bool} (hframe : site.Frame mid)
    (hkind : ∀ progress : Progress, progress.isBeginning = true → kind progress = false)
    (hprogress : site.progress? who = some former) (hkeeps : kind next = kind former) (other : Nat) :
    (mid.settle who next).Stands kind other ↔ site.Stands kind other := by
  by_cases hwho : other = who
  · rw [hwho, stands_iff kind hprogress, stands_iff kind (progress?_settle_self hframe next hprogress),
      hkeeps]
  · exact stands_settle_other hframe hkind hwho

/-- Where an activity is met after a move, it stood before, or has begun, or is after its own turn.
-/
theorem Moved.progress_cases {site after : Site} {move : Move} (h : site.Moved move after) {who : Nat}
    {progress : Progress} (hprogress : after.progress? who = some progress) :
    move ≠ .step who ∧ (site.progress? who = some progress ∨ progress.isBeginning = true) ∨
      ∃ activity mid, move = .step who ∧ site.canStep who = true ∧
        site.registry.activities[who]? = some activity ∧ site.Turn who activity progress mid ∧
        after = mid.settle who progress := by
  cases h with
  | @turn other activity next mid hactivity hready hturn hframe =>
    rcases progress?_turned hframe hprogress with ⟨rfl, rfl⟩ | ⟨hne, hbefore⟩
    · exact .inr ⟨activity, mid, rfl, hready, hactivity, hturn, rfl⟩
    · exact .inl ⟨fun he => hne (Move.step.inj he).symm, hbefore⟩
  | calm hmove hcache hgate hframe =>
    exact .inl ⟨hmove who, (hframe.begun who progress hprogress).imp_right And.right⟩

end Site

end ServiceRegistry
