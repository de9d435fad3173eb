import ServiceRegistry.Registry.Run

/-!
# The lock of the cache

The cache of a registry is read and written under a lock of its own. Many may read under it at once, one
alone may write under it, and who comes to it stands behind all who have come before. An activity comes to
the lock if its next step reads or writes the cache, takes that step when the lock is its own, and lets go
of the lock with it, whatever the step has come to. A site takes such a step at once; a guarded site has the
lock in front of it, so that others may step in between.
-/
namespace ServiceRegistry

/-- What is done to the cache under its lock. -/
inductive Access where
  | read
  | write
  deriving DecidableEq, Repr

/-- A lock for readers and writers: those who hold it or wait for it, in the order in which they have
come. -/
structure Guard where
  line : List (Nat × Access)

namespace Guard

def free : Guard := ⟨[]⟩

/-- The numbers of those in the line. -/
def names (guard : Guard) : List Nat := guard.line.map Prod.fst

/-- Takes the last place in the line. -/
def enter (guard : Guard) (who : Nat) (access : Access) : Guard := ⟨guard.line ++ [(who, access)]⟩

/-- Lets go of the lock, or of a place in the line. -/
def leave (guard : Guard) (who : Nat) : Guard := ⟨guard.line.filter fun entry => entry.1 ≠ who⟩

/-- Those who hold the lock: the first alone if it writes, and else all who read ahead of the first who
writes. -/
def holders (guard : Guard) : List Nat :=
  match guard.line with
  | (who, .write) :: _ => [who]
  | line => (line.takeWhile fun entry => entry.2 = .read).map Prod.fst

end Guard

/-- What the next step of an activity that stands at a point does to the cache, if it does anything. -/
def Progress.access? : Progress → Option Access
  | .calling (.getConnection _ _) | .looking _ | .building (.resolve _) .queued
  | .building _ .stamping => some .read
  | .calling (.addOptions _) | .calling .invalidate | .building _ (.dialing _ _ _ _)
  | .discarding _ _ | .sealing => some .write
  | _ => none

namespace Site

/-- What the next step of an activity does to the cache. One that was asked to end does nothing to it, and
neither does a call that is turned away at once. -/
def access? (site : Site) (who : Nat) : Option Access :=
  match site.registry.activities[who]? with
  | none => none
  | some activity =>
    if activity.isDropped then none
    else match activity.progress with
      | .calling (.getConnection service _) =>
        match site.registry.ensureOpen, ServiceKey.make site.registry.config.root service with
        | .ok _, .ok _ => some .read
        | _, _ => none
      | progress => progress.access?

end Site

/-- A site with the lock of its cache. -/
structure GuardedSite where
  site : Site
  guard : Guard

/-- Something that can happen at a guarded site. -/
inductive GuardedMove where
  /-- An activity comes to the lock of the cache. -/
  | ask (who : Nat)
  | make (move : Move)

namespace GuardedSite

/-- A registry that has just begun. -/
def start (store : Store) (config : Config) (dialer : Dialer) (faults : Faults) : GuardedSite :=
  ⟨Site.start store config dialer faults, Guard.free⟩

/-- Whether an activity is to come to the lock before its next step. -/
def mustAsk (guarded : GuardedSite) (who : Nat) : Bool :=
  (guarded.site.access? who).isSome && !guarded.guard.names.contains who

/-- Whether an activity waits for the lock. One that was asked to end waits no longer. -/
def isBlocked (guarded : GuardedSite) (who : Nat) : Bool :=
  guarded.guard.names.contains who && !guarded.guard.holders.contains who &&
    !guarded.site.registry.activities[who]?.any Activity.isDropped

/-- Whether an activity can take a step now. -/
def canStep (guarded : GuardedSite) (who : Nat) : Bool :=
  guarded.site.canStep who && !guarded.mustAsk who && !guarded.isBlocked who

/-- The guarded site after a move, `none` if the move cannot be made. -/
def after (guarded : GuardedSite) : GuardedMove → Option GuardedSite
  | .ask who =>
    if guarded.site.canStep who && guarded.mustAsk who then
      (guarded.site.access? who).map fun access =>
        { guarded with guard := guarded.guard.enter who access }
    else none
  | .make (.step who) =>
    if guarded.canStep who then some ⟨guarded.site.step who, guarded.guard.leave who⟩ else none
  | .make move => (guarded.site.after move).map fun site => { guarded with site := site }

/-- The guarded site after a list of moves, `none` if one of them cannot be made. -/
def run (guarded : GuardedSite) (moves : List GuardedMove) : Option GuardedSite :=
  moves.foldlM after guarded

@[simp] theorem run_nil (guarded : GuardedSite) : guarded.run [] = some guarded := rfl

theorem run_cons (guarded : GuardedSite) (move : GuardedMove) (moves : List GuardedMove) :
    guarded.run (move :: moves) = (guarded.after move).bind fun next => next.run moves := by
  simp only [run, List.foldlM_cons]
  rfl

/-- A run goes on where an earlier one has ended. -/
theorem run_append (guarded : GuardedSite) (moves later : List GuardedMove) :
    guarded.run (moves ++ later) = (guarded.run moves).bind fun next => next.run later := by
  induction moves generalizing guarded with
  | nil => rfl
  | cons move moves ih =>
    simp only [List.cons_append, run_cons, Option.bind_assoc, ih]

end GuardedSite

end ServiceRegistry
