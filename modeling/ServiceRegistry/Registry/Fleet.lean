import ServiceRegistry.Registry.Run

/-!
# Fleets

Some registries that share one store and one clock, each with a client of its own. They begin one after
the other. Whatever happens to the store at one of them happens to it for all, and nothing else of what
happens at one of them is noticed by the others.
-/
namespace ServiceRegistry

/-- Registries that share a store. -/
structure Fleet where
  clock : Nat
  store : Store
  /-- The registries with their clients, in the order in which they have begun. -/
  members : List (Client × Registry)

namespace Fleet

/-- Something that can happen in a fleet. -/
inductive Move where
  /-- Another registry begins, with some faults between it and the store. -/
  | join (config : Config) (dialer : Dialer) (faults : Faults)
  /-- Something happens at a member. -/
  | member (number : Nat) (move : ServiceRegistry.Move)

/-- A store that no registry uses yet. -/
def start (store : Store) : Fleet := ⟨0, store, []⟩

/-- A registry that begins now. -/
def newcomer (fleet : Fleet) (config : Config) (dialer : Dialer) (faults : Faults) : Site where
  clock := fleet.clock
  store := fleet.store
  client := { Client.fresh with faults := faults }
  registry := Registry.start config dialer

/-- A member with its link to the store. -/
def site? (fleet : Fleet) (number : Nat) : Option Site :=
  fleet.members[number]?.map fun member => ⟨⟨fleet.clock, fleet.store, member.1⟩, member.2⟩

/-- The fleet with a site in the place of that of a member. -/
def withSite (fleet : Fleet) (number : Nat) (site : Site) : Fleet where
  clock := site.clock
  store := site.store
  members := fleet.members.set number (site.client, site.registry)

/-- The fleet after a move, `none` if the move cannot be made. -/
def after (fleet : Fleet) : Move → Option Fleet
  | .join config dialer faults =>
    let site := fleet.newcomer config dialer faults
    some { fleet with members := fleet.members ++ [(site.client, site.registry)] }
  | .member number move => do
    let site ← fleet.site? number
    let next ← site.after move
    return fleet.withSite number next

/-- The fleet after a list of moves, `none` if one of them cannot be made. -/
def run (fleet : Fleet) (moves : List Move) : Option Fleet := moves.foldlM after fleet

@[simp] theorem run_nil (fleet : Fleet) : fleet.run [] = some fleet := rfl

theorem run_cons (fleet : Fleet) (move : Move) (moves : List Move) :
    fleet.run (move :: moves) = (fleet.after move).bind fun next => next.run moves := by
  simp only [run, List.foldlM_cons]
  rfl

/-- A run goes on where an earlier one has ended. -/
theorem run_append (fleet : Fleet) (moves later : List Move) :
    fleet.run (moves ++ later) = (fleet.run moves).bind fun next => next.run later := by
  induction moves generalizing fleet with
  | nil => rfl
  | cons move moves ih =>
    simp only [List.cons_append, run_cons, Option.bind_assoc, ih]

/-- At a fleet of the run a move is made, and others after it. -/
def Made (first : Fleet) (moves : List Move) (past : Fleet) (move : Move) (later : List Move) : Prop :=
  ∃ before, moves = before ++ move :: later ∧ first.run before = some past

end Fleet

end ServiceRegistry
