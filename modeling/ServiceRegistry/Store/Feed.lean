import ServiceRegistry.Stream
import ServiceRegistry.Text.Parts

/-!
# Change feeds

A store publishes every change of its keys as a batch of events. A subscription is a directory and a
place in the history of batches: it delivers what was published from that place on, restricted to the
keys that start with the directory. Only the newest batches are kept for slow readers. One that has
fallen behind them is told how many batches it lost and goes on with the oldest kept one.
-/
namespace ServiceRegistry

/-- What happened to a key. -/
inductive EventKind where
  | put
  | delete
  deriving DecidableEq, Repr

/-- A change of one key. -/
structure Event where
  kind : EventKind
  key : String
  deriving DecidableEq, Repr

/-- All batches that were published, oldest first. -/
structure Feed where
  published : List (List Event)
  closed : Bool
  deriving DecidableEq, Repr

/-- A reader of a feed. -/
structure Subscription where
  /-- What the keys of delivered events start with. -/
  directory : String
  /-- How many batches lie behind the reader. -/
  next : Nat
  deriving DecidableEq, Repr

namespace Feed

/-- The number of batches that are kept for slow readers. -/
def capacity : Nat := 256

def empty : Feed := ⟨[], false⟩

/-- Publishes a batch, unless it is empty or the feed is closed. -/
def publish (feed : Feed) (batch : List Event) : Feed :=
  if batch = [] ∨ feed.closed then feed else { feed with published := feed.published ++ [batch] }

/-- A subscription to all that is published from now on. -/
def subscribe (feed : Feed) (directory : String) : Subscription := ⟨directory, feed.published.length⟩

/-- How many batches a reader has lost since it last looked. -/
def lost (feed : Feed) (sub : Subscription) : Nat := feed.published.length - capacity - sub.next

/-- The events of a batch that concern a reader. -/
def relevant (sub : Subscription) (batch : List Event) : List Event :=
  batch.filter fun event => Text.startsWith sub.directory event.key

/-- Whether a look at the feed finds anything. -/
def isNews (feed : Feed) (sub : Subscription) : Bool :=
  feed.closed || decide (sub.next < feed.published.length)

def pull (feed : Feed) (sub : Subscription) : Pull Subscription (List Event) :=
  if 0 < feed.lost sub then
    .item (.error (.watchLagged (feed.lost sub))) { sub with next := sub.next + feed.lost sub }
  else match feed.published[sub.next]? with
    | some batch =>
      let rest := { sub with next := sub.next + 1 }
      if relevant sub batch = [] then .skipped rest else .item (.ok (relevant sub batch)) rest
    | none => if feed.closed then .finished else .waiting

/-- What `steps` looks at the feed deliver, and the reader after them. -/
def drainSteps (feed : Feed) : Nat → Subscription → List (Except Error (List Event)) × Subscription
  | 0, sub => ([], sub)
  | steps + 1, sub =>
    match feed.pull sub with
    | .skipped rest => feed.drainSteps steps rest
    | .item item rest => let later := feed.drainSteps steps rest; (item :: later.1, later.2)
    | .waiting | .finished => ([], sub)

/-- All that can be delivered now. No look that finds anything leaves the reader where it was, so the
number of batches ahead of it bounds the number of looks. -/
def drain (feed : Feed) (sub : Subscription) : List (Except Error (List Event)) × Subscription :=
  feed.drainSteps (feed.published.length - sub.next + 1) sub

/-- Whether a look leaves the reader where it was. -/
def isDrained (feed : Feed) (sub : Subscription) : Bool :=
  match feed.pull sub with
  | .waiting | .finished => true
  | .skipped _ | .item _ _ => false

/-- A look that finds something brings the reader nearer to the end of the feed. -/
theorem next_lt_of_pull {feed : Feed} {sub rest : Subscription}
    (h : feed.pull sub = .skipped rest ∨ ∃ item, feed.pull sub = .item item rest) :
    sub.next < rest.next ∧ rest.next ≤ feed.published.length := by
  unfold pull at h
  split at h
  · rename_i hlost
    obtain ⟨_, h⟩ := h.resolve_left nofun
    injection h with _ h
    subst h
    simp only [lost] at hlost ⊢
    omega
  · split at h
    · rename_i hbatch
      have hlt := (List.getElem?_eq_some_iff.1 hbatch).1
      split at h
      · injection h.resolve_right nofun with h
        subst h
        exact ⟨Nat.lt_succ_self _, hlt⟩
      · obtain ⟨_, h⟩ := h.resolve_left nofun
        injection h with _ h
        subst h
        exact ⟨Nat.lt_succ_self _, hlt⟩
    · split at h <;> exact absurd h (by rintro (h | ⟨_, h⟩) <;> exact nomatch h)

end Feed

end ServiceRegistry
