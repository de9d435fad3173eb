/-!
# Fair locks

A lock that is held has a queue of those who wait for it, in the order in which they came. Who lets go
of the lock hands it to the first in the queue, so nobody is overtaken and nobody waits for a free lock.
Holders and waiters are known by numbers.
-/
namespace ServiceRegistry

/-- A lock. -/
inductive Lock where
  | free
  /-- One holds the lock and others wait for it, first come first. -/
  | held (holder : Nat) (waiting : List Nat)
  deriving DecidableEq, Repr

namespace Lock

def holder? : Lock → Option Nat
  | free => none
  | held holder _ => some holder

/-- Takes a free lock, or the last place in the queue. -/
def enter (lock : Lock) (who : Nat) : Lock :=
  match lock with
  | free => held who []
  | held holder waiting => held holder (waiting ++ [who])

/-- Hands the lock to the first in the queue. -/
def release : Lock → Lock
  | free => free
  | held _ [] => free
  | held _ (next :: waiting) => held next waiting

/-- Lets go of the lock, or of a place in the queue. -/
def leave (lock : Lock) (who : Nat) : Lock :=
  match lock with
  | free => free
  | held holder waiting =>
    if holder = who then lock.release else held holder (waiting.filter (· ≠ who))

/-- All who hold the lock or wait for it, in the order in which they get it. -/
def line : Lock → List Nat
  | free => []
  | held holder waiting => holder :: waiting

@[simp] theorem line_enter (lock : Lock) (who : Nat) : (lock.enter who).line = lock.line ++ [who] := by
  cases lock <;> rfl

@[simp] theorem line_release (lock : Lock) : lock.release.line = lock.line.tail := by
  rcases lock with _ | ⟨holder, _ | ⟨next, waiting⟩⟩ <;> rfl

theorem holder?_eq_head? (lock : Lock) : lock.holder? = lock.line.head? := by
  cases lock <;> rfl

end Lock

end ServiceRegistry
