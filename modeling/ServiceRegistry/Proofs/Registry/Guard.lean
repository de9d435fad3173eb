import Mathlib.Data.List.TakeWhile
import ServiceRegistry.Proofs.Registry.Fleet
import ServiceRegistry.Proofs.Registry.Passage
import ServiceRegistry.Registry.Guard

/-!
# The lock of the cache and its line

The lock covers all that is done to the cache: a step that comes to no lock does not depend on the cache and
leaves it as it is. A run of a guarded site is a run of its site, and whoever has come to the lock can take
its step from then on, since none of the others can take from it what it has waited for before.
-/
namespace ServiceRegistry

/-! ## The line in front of the cache -/

namespace Guard

variable {guard : Guard} {who : Nat}

@[simp] theorem names_enter (access : Access) : (guard.enter who access).names = guard.names ++ [who] := by
  simp [names, enter]

theorem mem_line_leave {entry : Nat × Access} :
    entry ∈ (guard.leave who).line ↔ entry ∈ guard.line ∧ entry.1 ≠ who := by
  simp [leave]

theorem names_leave : (guard.leave who).names = guard.names.filter (· ≠ who) := by
  simp only [names, leave, List.filter_map]
  rfl

theorem not_mem_names_leave : who ∉ (guard.leave who).names := by
  simp [names_leave]

theorem leave_of_not_mem (h : who ∉ guard.names) : guard.leave who = guard := by
  have hall : ∀ entry ∈ guard.line, decide (entry.1 ≠ who) = true := by
    intro entry hmem
    have hne : entry.1 ≠ who := fun he => h (he ▸ List.mem_map_of_mem hmem)
    simpa using hne
  rw [leave, List.filter_eq_self.2 hall]

theorem leave_enter_free (access : Access) : (free.enter who access).leave who = free := by
  simp [leave, enter, free]

/-- The first in the line holds the lock. -/
theorem head_mem_holders {entry : Nat × Access} {rest : List (Nat × Access)}
    (h : guard.line = entry :: rest) : entry.1 ∈ guard.holders := by
  obtain ⟨first, access⟩ := entry
  cases access with
  | read => simp [holders, h]
  | write => simp [holders, h]

theorem mem_names_of_mem_holders (h : who ∈ guard.holders) : who ∈ guard.names := by
  unfold holders at h
  split at h
  · rename_i first rest hline
    simp only [List.mem_singleton] at h
    simp [names, hline, h]
  · exact (List.takeWhile_sublist _).map Prod.fst |>.subset h

end Guard

namespace Site

/-! ## What is done to the cache -/

section
variable (site : Site) (who : Nat) (cache : Cache)

theorem stepCalling_withCache {call : Call} (h : Progress.access? (.calling call) = none) :
    (site.withCache cache).stepCalling who call =
      ((site.stepCalling who call).1, (site.stepCalling who call).2.withCache cache) := by
  have hopen : (site.withCache cache).registry.ensureOpen = site.registry.ensureOpen := rfl
  have hconfig : (site.withCache cache).registry.config = site.registry.config := rfl
  have hclosed : (site.withCache cache).registry.closed = site.registry.closed := rfl
  cases call with
  | getConnection | addOptions | invalidate => cases h
  | register service host port =>
    simp only [stepCalling, hopen, hconfig]
    cases site.registry.ensureOpen <;> cases EndpointKey.make _ service host port <;> rfl
  | unregister =>
    simp only [stepCalling, hopen]
    cases site.registry.ensureOpen <;> rfl
  | getConnections service =>
    simp only [stepCalling, hopen, hconfig]
    cases site.registry.ensureOpen <;> cases ServiceKey.make _ service <;> rfl
  | close =>
    simp only [stepCalling, hclosed]
    split <;> rfl

theorem stepBuild_withCache {errand : Errand} {build : Build}
    (h : Progress.access? (.building errand build) = none) :
    (site.withCache cache).stepBuild who errand build =
      ((site.stepBuild who errand build).1, (site.stepBuild who errand build).2.withCache cache) := by
  cases build with
  | queued =>
    cases errand with
    | resolve => cases h
    | _ => rfl
  | stamping | dialing => cases errand <;> cases h
  | scanning stamp flight =>
    simp only [stepBuild, receive, withCache, mapRegistry]
    rcases site.toLink.receive flight with ⟨_ | rows, link⟩
    · cases errand with
      | resolve key => rfl
      | refresh | rebuild =>
        simp only [conclude, listenAfter]
        split <;> rfl
    · rfl

theorem stepRegistering_withCache (key : EndpointKey) (stage : Registering) :
    (site.withCache cache).stepRegistering key stage =
      ((site.stepRegistering key stage).1, (site.stepRegistering key stage).2.withCache cache) := by
  have hregistrar : (site.withCache cache).registry.registrar = site.registry.registrar := rfl
  cases stage with
  | queued =>
    simp only [stepRegistering, hregistrar]
    cases site.registry.registrar.active with
    | none => rfl
    | some current =>
      simp only
      split <;> rfl
  | granting flight | attaching lease flight | opening lease flight =>
    simp only [stepRegistering, receive, withCache, mapRegistry]
    rcases site.toLink.receive flight with ⟨_ | answer, link⟩ <;> rfl
  | replacing | abandoning | leaving => rfl

theorem stepUnregistering_withCache (closing : Bool) (stage : Unregistering) :
    (site.withCache cache).stepUnregistering closing stage =
      ((site.stepUnregistering closing stage).1,
        (site.stepUnregistering closing stage).2.withCache cache) := by
  have hregistrar : (site.withCache cache).registry.registrar = site.registry.registrar := rfl
  cases stage with
  | queued =>
    simp only [stepUnregistering, hregistrar]
    cases site.registry.registrar.active <;> rfl
  | deleting | revoking | leaving => rfl

theorem stepRenewing_withCache (key : EndpointKey) (lease : LeaseId) (renewals : Renewals) :
    (site.withCache cache).stepRenewing key lease renewals =
      ((site.stepRenewing key lease renewals).1,
        (site.stepRenewing key lease renewals).2.withCache cache) := by
  have hstore : (site.withCache cache).store = site.store := rfl
  have hclock : (site.withCache cache).clock = site.clock := rfl
  simp only [stepRenewing, hstore, hclock]
  rcases renewals.pull site.store site.clock with _ | _ | ⟨_ | ttl, rest⟩ | _
  · rfl
  · rfl
  · rfl
  · simp only
    split <;> rfl
  · rfl

theorem stepListening_withCache (changes : Changes) :
    (site.withCache cache).stepListening changes =
      ((site.stepListening changes).1, (site.stepListening changes).2.withCache cache) := by
  have hstore : (site.withCache cache).store = site.store := rfl
  have hclock : (site.withCache cache).clock = site.clock := rfl
  simp only [stepListening, hstore, hclock]
  cases changes.pull site.store site.clock <;> rfl

/-- What does nothing to the cache does not depend on it. -/
theorem stepFrom_withCache {progress : Progress} (h : progress.access? = none) :
    (site.withCache cache).stepFrom who progress =
      ((site.stepFrom who progress).1, (site.stepFrom who progress).2.withCache cache) := by
  cases progress with
  | calling call => exact site.stepCalling_withCache who cache h
  | looking | sealing | discarding => cases h
  | building errand build => exact site.stepBuild_withCache who cache h
  | locating key options flight =>
    simp only [stepFrom, stepLocating, receive, withCache, mapRegistry]
    rcases site.toLink.receive flight with ⟨_ | rows, link⟩ <;> rfl
  | registering key stage => exact site.stepRegistering_withCache cache key stage
  | unregistering closing stage => exact site.stepUnregistering_withCache cache closing stage
  | subscribing flight =>
    simp only [stepFrom, receive, withCache, mapRegistry]
    rcases site.toLink.receive flight with ⟨_ | answer, link⟩ <;> rfl
  | listening changes => exact site.stepListening_withCache cache changes
  | renewing key lease renewals => exact site.stepRenewing_withCache cache key lease renewals
  | starting | finished => rfl

end

/-- Who comes to no lock takes the same step whatever is in the cache. -/
theorem step_withCache {site : Site} {who : Nat} (h : site.access? who = none) (cache : Cache) :
    (site.withCache cache).step who = (site.step who).withCache cache := by
  have hsame : (site.withCache cache).registry.activities = site.registry.activities := rfl
  unfold step
  rw [hsame]
  cases hactivity : site.registry.activities[who]? with
  | none => rfl
  | some activity =>
    simp only
    by_cases hdropped : activity.isDropped = true
    · simp only [hdropped, if_true]
      rfl
    · simp only [access?, hactivity, hdropped, Bool.false_eq_true, if_false] at h ⊢
      have hstep : (site.withCache cache).stepFrom who activity.progress =
          ((site.stepFrom who activity.progress).1,
            (site.stepFrom who activity.progress).2.withCache cache) := by
        split at h
        · rename_i service options hcall
          have hopen : (site.withCache cache).registry.ensureOpen = site.registry.ensureOpen := rfl
          have hconfig : (site.withCache cache).registry.config = site.registry.config := rfl
          rw [hcall]
          simp only [stepFrom, stepCalling, hopen, hconfig]
          split at h
          · cases h
          · rename_i hnot
            split
            · rfl
            · rfl
            · rename_i hready hkey
              exact absurd hkey (hnot _ _ hready)
        · exact site.stepFrom_withCache who cache h
      rw [hstep]
      rfl

/-! ## Who comes to the lock -/

/-- What happens elsewhere may ask an activity to end, and leaves it where it is. -/
theorem activity_of_other {site after : Site} {move : Move} {who : Nat} {activity : Activity}
    (hmove : site.after move = some after) (hother : move ≠ .step who)
    (h : site.registry.activities[who]? = some activity) :
    ∃ cancelled, after.registry.activities[who]? = some ⟨activity.progress, cancelled⟩ ∧
      (activity.cancelled = true → cancelled = true) := by
  cases moved_of_after hmove with
  | @turn other former next mid hformer hready hturn hframe =>
    obtain ⟨cancelled, hmid, hasked⟩ := hframe.kept who activity h
    have hne : other ≠ who := fun he => hother (he ▸ rfl)
    exact ⟨cancelled, by simp [settle, mapRegistry, Registry.move, hne, hmid], hasked⟩
  | calm hcalm hcache hgate hframe => exact hframe.kept who activity h

/-- The clock does not go back. -/
theorem clock_le_of_after {site after : Site} {move : Move} (hmove : site.after move = some after) :
    site.clock ≤ after.clock := by
  have hforeign : ∀ (moves : List Move) (first last : Site),
      (∀ move ∈ moves, move.isForeign = true) → first.run moves = some last →
        first.clock ≤ last.clock := by
    intro moves
    induction moves with
    | nil =>
      intro first last _ hrun
      cases hrun
      exact le_rfl
    | cons move moves ih =>
      intro first last hforeign hrun
      obtain ⟨next, hnext, hrest⟩ := Option.bind_eq_some_iff.1 ((run_cons _ _ _).symm.trans hrun)
      refine le_trans ?_ (ih next last (fun other hmem => hforeign other (.tail _ hmem)) hrest)
      have hthis := hforeign move List.mem_cons_self
      cases move with
      | step | call => cases hthis
      | request request =>
        simp only [Site.after] at hnext
        split at hnext <;> (cases hnext; exact le_rfl)
      | outage | closeStore =>
        cases hnext
        exact le_rfl
      | wait time =>
        cases hnext
        exact Nat.le_add_right _ _
  obtain ⟨moves, hall, hrun⟩ := seen_of_after hmove
  have hle := hforeign moves site _ hall (hrun site rfl rfl)
  exact hle

/-- The next step of an activity, which it can take, does something to the cache. -/
structure Touches (site : Site) (who : Nat) (access : Access) : Prop where
  ready : site.canStep who = true
  stands : ∃ progress, site.progress? who = some progress ∧ progress.access? = some access

theorem of_access? {site : Site} {who : Nat} {access : Access} (h : site.access? who = some access) :
    ∃ progress, site.progress? who = some progress ∧ progress.access? = some access := by
  unfold access? at h
  split at h
  · cases h
  · rename_i activity hactivity
    refine ⟨activity.progress, progress?_of_activity hactivity, ?_⟩
    split at h
    · cases h
    · split at h
      · rename_i hprogress
        rw [hprogress]
        split at h
        · exact h
        · cases h
      · exact h

/-- Who can take a step that touches the cache can take it until it does. -/
theorem Touches.moved {site after : Site} {move : Move} {who : Nat} {access : Access}
    (h : site.Touches who access) (horderly : site.Orderly) (hmove : site.after move = some after)
    (hother : move ≠ .step who) : after.Touches who access := by
  obtain ⟨progress, hprogress, haccess⟩ := h.stands
  refine ⟨?_, progress, progress?_of_other hmove hother hprogress, haccess⟩
  obtain ⟨activity, hactivity, hready⟩ := of_canStep h.ready
  rw [progress?_of_activity hactivity] at hprogress
  cases hprogress
  obtain ⟨asked, hafter, hasked⟩ := activity_of_other hmove hother hactivity
  have hgoing : activity.outcome?.isNone = true := by
    obtain ⟨progress, cancelled⟩ := activity
    cases progress with
    | finished => cases haccess
    | _ => rfl
  cases asked with
  | true =>
    have hdropped : Activity.isDropped ⟨activity.progress, true⟩ = true := hgoing
    simp [canStep, due, hafter, hdropped]
  | false =>
    have hcancelled : activity.cancelled = false := by
      by_contra hwas
      cases hasked (by simpa using hwas)
    rcases hready with hdropped | ⟨-, time, hdue, hle⟩
    · simp [Activity.isDropped, hcancelled] at hdropped
    · obtain ⟨progress, cancelled⟩ := activity
      obtain rfl : cancelled = false := hcancelled
      cases progress with
      | building errand build =>
        cases build with
        | queued =>
          have hholder := holder_of_canStep h.ready hactivity
          have hstill := horderly.holder?_moved (moved_of_after hmove) hother hholder
          exact canStep_of_due hafter (if_pos hstill) (Nat.zero_le _)
        | stamping => exact canStep_of_due hafter rfl (Nat.zero_le _)
        | scanning => cases errand <;> cases haccess
        | dialing stamp reading keys due =>
          cases hdue
          exact canStep_of_due hafter rfl (hle.trans (clock_le_of_after hmove))
      | calling | looking | discarding | sealing => exact canStep_of_due hafter rfl (Nat.zero_le _)
      | _ => cases haccess

end Site

/-- The move of the site, if it is one. -/
def GuardedMove.plain? : GuardedMove → Option Move
  | .ask _ => none
  | .make move => some move

/-- Whether the move is the passing of time or made by an activity. -/
def GuardedMove.isInner : GuardedMove → Bool
  | .ask _ | .make (.step _) | .make (.wait _) => true
  | _ => false

namespace GuardedSite

variable {guarded later : GuardedSite}

/-! ## Guarded sites are sites -/

/-- A move of a guarded site is one of its site, and only who moves leaves the lock. -/
theorem site_of_make {move : Move} (h : guarded.after (.make move) = some later) :
    guarded.site.after move = some later.site ∧
      (later.guard = guarded.guard ∧ (∀ who, move ≠ .step who) ∨
        ∃ who, move = .step who ∧ later.guard = guarded.guard.leave who) := by
  have hother : (∀ who, move ≠ .step who) → guarded.after (.make move) =
      (guarded.site.after move).map fun site => { guarded with site := site } := by
    intro hnot
    cases move with
    | step who => exact absurd rfl (hnot who)
    | _ => rfl
  by_cases hstep : ∃ who, move = .step who
  · obtain ⟨who, rfl⟩ := hstep
    simp only [after] at h
    split at h
    · rename_i hready
      cases h
      simp only [canStep, Bool.and_eq_true] at hready
      exact ⟨by rw [Site.after, if_pos hready.1.1], .inr ⟨who, rfl, rfl⟩⟩
    · cases h
  · have hnot : ∀ who, move ≠ .step who := fun who he => hstep ⟨who, he⟩
    rw [hother hnot] at h
    obtain ⟨site, hsite, rfl⟩ := Option.map_eq_some_iff.1 h
    exact ⟨hsite, .inl ⟨rfl, hnot⟩⟩

/-- Who comes to the lock is about to do something to the cache. -/
theorem of_ask {who : Nat} (h : guarded.after (.ask who) = some later) :
    ∃ access, guarded.site.Touches who access ∧ who ∉ guarded.guard.names ∧
      later = { guarded with guard := guarded.guard.enter who access } := by
  simp only [after] at h
  split at h
  · rename_i hready
    obtain ⟨access, haccess, rfl⟩ := Option.map_eq_some_iff.1 h
    simp only [mustAsk, Bool.and_eq_true, Bool.not_eq_true', List.contains_eq_mem,
      decide_eq_false_iff_not] at hready
    exact ⟨access, ⟨hready.1, Site.of_access? haccess⟩, hready.2.2, rfl⟩
  · cases h

theorem after_step {who : Nat} (h : guarded.canStep who = true) :
    guarded.after (.make (.step who)) = some ⟨guarded.site.step who, guarded.guard.leave who⟩ := by
  rw [after, if_pos h]

theorem after_ask {who : Nat} {access : Access} (hready : guarded.site.canStep who = true)
    (haccess : guarded.site.access? who = some access) (hnot : who ∉ guarded.guard.names) :
    guarded.after (.ask who) = some { guarded with guard := guarded.guard.enter who access } := by
  have hasks : guarded.mustAsk who = true := by simp [mustAsk, haccess, hnot]
  simp [after, hready, hasks, haccess]

/-- A run of a guarded site is one of its site. -/
theorem run_site {moves : List GuardedMove} (h : guarded.run moves = some later) :
    guarded.site.run (moves.filterMap GuardedMove.plain?) = some later.site := by
  induction moves generalizing guarded with
  | nil =>
    cases h
    rfl
  | cons move moves ih =>
    obtain ⟨next, hnext, hrest⟩ := Option.bind_eq_some_iff.1 ((run_cons _ _ _).symm.trans h)
    cases move with
    | ask who =>
      obtain ⟨access, -, -, rfl⟩ := of_ask hnext
      have hsite := ih hrest
      exact hsite
    | make move =>
      have hplain : (GuardedMove.make move :: moves).filterMap GuardedMove.plain? =
          move :: moves.filterMap GuardedMove.plain? := rfl
      rw [hplain, Site.run_cons, (site_of_make hnext).1]
      exact ih hrest

/-! ## Who stands in the line can go on -/

/-- The locks of a guarded site are in order: who has come to the cache is about to do something to it. -/
structure Kept (guarded : GuardedSite) : Prop where
  arranged : guarded.site.Arranged
  nodup : guarded.guard.names.Nodup
  touches : ∀ entry ∈ guarded.guard.line, guarded.site.Touches entry.1 entry.2

theorem Kept.moved {move : GuardedMove} (h : guarded.Kept) (hmove : guarded.after move = some later) :
    later.Kept := by
  cases move with
  | ask who =>
    obtain ⟨access, htouches, hnot, rfl⟩ := of_ask hmove
    refine ⟨h.arranged, ?_, fun entry hmem => ?_⟩
    · rw [Guard.names_enter]
      exact List.nodup_append.2 ⟨h.nodup, List.nodup_singleton who, fun other hother last hlast heq =>
        hnot (List.mem_singleton.1 hlast ▸ heq ▸ hother)⟩
    · rcases List.mem_append.1 hmem with hbefore | hlast
      · exact h.touches entry hbefore
      · cases List.mem_singleton.1 hlast
        exact htouches
  | make move =>
    obtain ⟨hsite, ⟨hsame, hnot⟩ | ⟨who, rfl, hleft⟩⟩ := site_of_make hmove
    · refine ⟨h.arranged.moved hsite, hsame ▸ h.nodup, fun entry hmem => ?_⟩
      rw [hsame] at hmem
      exact (h.touches entry hmem).moved h.arranged.orderly hsite (hnot _)
    · refine ⟨h.arranged.moved hsite, ?_, fun entry hmem => ?_⟩
      · rw [hleft, Guard.names_leave]
        exact h.nodup.filter _
      · rw [hleft, Guard.mem_line_leave] at hmem
        refine (h.touches entry hmem.1).moved h.arranged.orderly hsite fun he => ?_
        exact hmem.2 (Move.step.inj he).symm

theorem Kept.run {moves : List GuardedMove} (h : guarded.Kept) (hrun : guarded.run moves = some later) :
    later.Kept := by
  induction moves generalizing guarded with
  | nil => exact Option.some.inj hrun ▸ h
  | cons move moves ih =>
    obtain ⟨next, hnext, hrest⟩ := Option.bind_eq_some_iff.1 ((run_cons _ _ _).symm.trans hrun)
    exact ih (h.moved hnext) hrest

theorem kept_of_run {store : Store} {config : Config} {dialer : Dialer} {faults : Faults}
    {moves : List GuardedMove} (hrun : (start store config dialer faults).run moves = some guarded) :
    guarded.Kept := by
  have hstart : (start store config dialer faults).Kept :=
    ⟨Site.arranged_of_run (Site.run_nil _), List.nodup_nil, fun _ hmem => by cases hmem⟩
  exact hstart.run hrun

theorem Kept.touches_of_mem (h : guarded.Kept) {who : Nat} (hmem : who ∈ guarded.guard.names) :
    ∃ access, guarded.site.Touches who access := by
  obtain ⟨entry, hentry, rfl⟩ := List.mem_map.1 hmem
  exact ⟨entry.2, h.touches entry hentry⟩

end GuardedSite

end ServiceRegistry
