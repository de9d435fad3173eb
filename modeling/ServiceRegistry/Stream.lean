import ServiceRegistry.Error

/-!
# Streams

A stream answers each look at it in one of four ways. It never goes back: what it hands out, and what it
passes over, is gone from the rest of it.

A script is a stream that is known beforehand. It lists the items, each with the time that passes between
the reader's wish for it and its arrival. Behind the last item the stream ends or keeps its reader waiting
for ever.
-/
namespace ServiceRegistry

/-- What a look at a stream finds. -/
inductive Pull (Stream Item : Type) where
  /-- Nothing has come yet. -/
  | waiting
  /-- Something has come that does not concern this reader. -/
  | skipped (rest : Stream)
  /-- The next item, or an error in its place. -/
  | item (item : Except Error Item) (rest : Stream)
  /-- No item will come. -/
  | finished

/-- The same finding on a stream that is part of another one. -/
def Pull.map {Stream Other Item : Type} (f : Stream → Other) : Pull Stream Item → Pull Other Item
  | waiting => waiting
  | skipped rest => skipped (f rest)
  | item x rest => item x (f rest)
  | finished => finished

/-- An item and the milliseconds for which its reader waits. -/
structure Cue (Item : Type) where
  after : Nat
  item : Except Error Item

/-- The items still to come. `since` is the time at which the reader asked for the first of them. -/
structure Script (Item : Type) where
  cues : List (Cue Item)
  endless : Bool
  since : Nat := 0

namespace Script

variable {Item : Type}

/-- The reader asks for the next item. -/
def ask (script : Script Item) (clock : Nat) : Script Item := { script with since := clock }

/-- When the reader hears of something, if ever. -/
def due (script : Script Item) : Option Nat :=
  match script.cues with
  | cue :: _ => some (script.since + cue.after)
  | [] => if script.endless then none else some script.since

def pull (script : Script Item) (clock : Nat) : Pull (Script Item) Item :=
  match script.cues with
  | cue :: cues =>
    if script.since + cue.after ≤ clock then .item cue.item { script with cues := cues } else .waiting
  | [] => if script.endless then .waiting else .finished

end Script

end ServiceRegistry
