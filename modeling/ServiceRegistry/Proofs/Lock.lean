import Mathlib.Data.List.Nodup
import ServiceRegistry.Lock

/-!
# Lines in front of locks

Whoever has come to a lock stands in its line, behind all who have come before, until it leaves. If
those who stand in line are just those who want something that the lock guards, then it stays so as
long as they come and leave one by one.
-/
namespace ServiceRegistry

namespace Lock

variable {lock : Lock} {who : Nat}

theorem holder?_enter {holder : Nat} (h : lock.holder? = some holder) :
    (lock.enter who).holder? = some holder := by
  cases lock with
  | free => cases h
  | held first waiting => exact h

theorem holder?_leave {holder : Nat} (h : lock.holder? = some holder) (hne : holder ≠ who) :
    (lock.leave who).holder? = some holder := by
  cases lock with
  | free => cases h
  | held first waiting =>
    cases h
    rw [leave, if_neg hne]
    rfl

/-- Who holds a lock leaves it by handing it on. -/
theorem leave_of_holder? (h : lock.holder? = some who) : lock.leave who = lock.release := by
  cases lock with
  | free => rfl
  | held holder waiting =>
    cases h
    rw [leave, if_pos rfl]

/-- Who is not in the line has nothing to let go of. -/
theorem leave_of_not_mem (h : who ∉ lock.line) : lock.leave who = lock := by
  cases lock with
  | free => rfl
  | held holder waiting =>
    have hholder : holder ≠ who := fun heq => h (heq ▸ List.mem_cons_self)
    have hwaiting : waiting.filter (· ≠ who) = waiting := by
      refine List.filter_eq_self.2 fun other hother => ?_
      have hne : other ≠ who := fun heq => h (heq ▸ List.mem_cons_of_mem _ hother)
      simpa using hne
    rw [leave, if_neg hholder, hwaiting]

theorem line_leave (h : lock.line.Nodup) : (lock.leave who).line = lock.line.erase who := by
  cases lock with
  | free => rfl
  | held holder waiting =>
    rw [line, List.nodup_cons] at h
    by_cases hholder : holder = who
    · rw [leave, if_pos hholder, line_release, line, List.tail_cons, hholder, List.erase_cons_head]
    · rw [leave, if_neg hholder, line, line, List.erase_cons_tail (by simpa using hholder),
        h.2.erase_eq_filter]
      simp only [ne_eq, decide_not]
      rfl

/-- Who is last in the line stays the last until it leaves. -/
theorem getLast?_release {last : Nat} (hholder : lock.holder? = some who) (hne : who ≠ last)
    (hlast : lock.line.getLast? = some last) : lock.release.line.getLast? = some last := by
  rw [holder?_eq_head?] at hholder
  obtain ⟨rest, hrest⟩ := List.head?_eq_some_iff.1 hholder
  rw [line_release, hrest, List.tail_cons]
  rw [hrest, List.getLast?_cons] at hlast
  cases hbehind : rest.getLast? with
  | none =>
    rw [hbehind] at hlast
    exact absurd (Option.some.inj hlast) hne
  | some other =>
    rw [hbehind] at hlast
    exact hlast

/-- Nobody is left in the line when its holder leaves it as the last. -/
theorem line_release_of_last (hnodup : lock.line.Nodup) (hholder : lock.holder? = some who)
    (hlast : lock.line.getLast? = some who) : lock.release.line = [] := by
  rw [holder?_eq_head?] at hholder
  obtain ⟨rest, hrest⟩ := List.head?_eq_some_iff.1 hholder
  rw [hrest, List.nodup_cons] at hnodup
  rw [line_release, hrest, List.tail_cons]
  by_contra hne
  rw [hrest, List.getLast?_cons, List.getLast?_eq_some_getLast hne] at hlast
  exact hnodup.1 (Option.some.inj hlast ▸ List.getLast_mem hne)

/-- Those who stand in line are just those who want something, each of them once. -/
structure Queues (lock : Lock) (wants : Nat → Prop) : Prop where
  nodup : lock.line.Nodup
  mem_line : ∀ who, who ∈ lock.line ↔ wants who

namespace Queues

variable {wants later : Nat → Prop} (h : lock.Queues wants)
include h

/-- Who holds the lock wants what it guards. -/
theorem wants_of_holder? (hholder : lock.holder? = some who) : wants who := by
  rw [holder?_eq_head?] at hholder
  exact (h.mem_line who).1 (List.mem_of_mem_head? hholder)

theorem congr (hsame : ∀ other, later other ↔ wants other) : lock.Queues later :=
  ⟨h.nodup, fun other => (h.mem_line other).trans (hsame other).symm⟩

theorem enter (hothers : ∀ other, other ≠ who → (later other ↔ wants other)) (hnot : ¬ wants who)
    (hwho : later who) : (lock.enter who).Queues later := by
  have hfresh : who ∉ lock.line := fun hmem => hnot ((h.mem_line who).1 hmem)
  constructor
  · rw [line_enter]
    exact List.nodup_append.2 ⟨h.nodup, List.nodup_singleton who, fun other hother _ hlast heq =>
      hfresh (List.mem_singleton.1 hlast ▸ heq ▸ hother)⟩
  · intro other
    rw [line_enter, List.mem_append, List.mem_singleton]
    by_cases hother : other = who
    · rw [hother]
      exact ⟨fun _ => hwho, fun _ => .inr rfl⟩
    · rw [hothers other hother, h.mem_line]
      exact ⟨fun hor => hor.resolve_right hother, .inl⟩

theorem leave (hothers : ∀ other, other ≠ who → (later other ↔ wants other)) (hnot : ¬ later who) :
    (lock.leave who).Queues later := by
  constructor
  · rw [line_leave h.nodup]
    exact h.nodup.erase who
  · intro other
    rw [line_leave h.nodup, h.nodup.mem_erase_iff]
    by_cases hother : other = who
    · rw [hother]
      exact ⟨fun hmem => absurd rfl hmem.1, fun hwho => absurd hwho hnot⟩
    · rw [hothers other hother, h.mem_line]
      exact ⟨And.right, fun hwants => ⟨hother, hwants⟩⟩

end Queues

end Lock

end ServiceRegistry
