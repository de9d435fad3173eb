import ServiceRegistry.Probe

/-!
# Runs of a probe

What can happen while a probe is under way, in any order: the probe takes a step, another client has a
request served, the store becomes unreachable or is closed, time passes. A run is a list of such moves.
-/
namespace ServiceRegistry

/-- A probe and its link to the store. -/
structure Probing extends Link where
  probe : Probe

namespace Probing

/-- Something that can happen while a probe is under way. -/
inductive Move where
  /-- The probe takes its next step. -/
  | step
  /-- Another client of the store makes a request. -/
  | request {m : Method} (request : Request m)
  /-- The store becomes unreachable, or reachable again. -/
  | outage (unavailable : Bool)
  /-- Another client closes the store. -/
  | closeStore
  /-- Time passes. -/
  | wait (millis : Nat)

/-- A probe that begins now. -/
def start (link : Link) (root : String) (create : Bool) (limit : Duration) : Probing :=
  ⟨link, Probe.start link.clock root create limit⟩

/-- Whether the probe can take a step now. -/
def canStep (probing : Probing) : Bool := probing.probe.due.any fun due => due ≤ probing.clock

/-- The next step of the probe. -/
def step (probing : Probing) : Probing :=
  let (probe, link) := probing.probe.step probing.toLink
  ⟨link, probe⟩

/-- The probe and its link after a move, `none` if the move cannot be made. -/
def after (probing : Probing) : Move → Option Probing
  | .step => if probing.canStep then some probing.step else none
  | .request request =>
    match probing.store.serve probing.clock request with
    | .ok (_, store) => some { probing with store := store }
    | .error _ => some probing
  | .outage unavailable =>
    some { probing with store := { probing.store with unavailable := unavailable } }
  | .closeStore => some { probing with store := probing.store.close }
  | .wait millis => some { probing with clock := probing.clock + millis }

/-- The probe and its link after a list of moves, `none` if one of them cannot be made. -/
def run (probing : Probing) (moves : List Move) : Option Probing := moves.foldlM after probing

@[simp] theorem run_nil (probing : Probing) : probing.run [] = some probing := rfl

theorem run_cons (probing : Probing) (move : Move) (moves : List Move) :
    probing.run (move :: moves) = (probing.after move).bind fun next => next.run moves := by
  simp only [run, List.foldlM_cons]
  rfl

/-- A run goes on where an earlier one has ended. -/
theorem run_append (probing : Probing) (moves later : List Move) :
    probing.run (moves ++ later) = (probing.run moves).bind fun next => next.run later := by
  induction moves generalizing probing with
  | nil => rfl
  | cons move moves ih => simp only [List.cons_append, run_cons, Option.bind_assoc, ih]

/-- What holds at the start, with nothing behind it, and is kept by every move of a run, holds at the end
of the run with all its moves behind it. -/
theorem run_induction {P : List Move → Probing → Prop} {probing final : Probing} {moves : List Move}
    (hstart : P [] probing)
    (hkept : ∀ before mid move next, probing.run before = some mid → P before mid →
      mid.after move = some next → P (before ++ [move]) next)
    (hrun : probing.run moves = some final) : P moves final := by
  suffices hfrom : ∀ past mid, probing.run past = some mid → P past mid → mid.run moves = some final →
      P (past ++ moves) final from hfrom [] probing rfl hstart hrun
  clear hrun
  induction moves with
  | nil =>
    intro past mid _ hmid hend
    cases hend
    rwa [List.append_nil]
  | cons move moves ih =>
    intro past mid hpast hmid hend
    rw [run_cons] at hend
    obtain ⟨next, hnext, hrest⟩ := Option.bind_eq_some_iff.1 hend
    have hthere : probing.run (past ++ [move]) = some next := by
      rw [run_append, hpast, Option.bind_some, run_cons, hnext, Option.bind_some, run_nil]
    rw [List.append_cons]
    exact ih (past ++ [move]) next hthere (hkept past mid move next hpast hmid hnext) hrest

end Probing

end ServiceRegistry
