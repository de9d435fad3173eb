import ServiceRegistry.Registry.Step

/-!
# Runs of a site

What can happen at a site, in any order: an activity takes a step, a call is made, another client has a
request served, the store becomes unreachable or is closed, time passes. A run is a list of such moves.
No order of the moves is preferred, so what holds of all runs holds of every way to schedule the
activities. `run_induction` is the way to show that something holds after every run.
-/
namespace ServiceRegistry

/-- Something that can happen at a site. -/
inductive Move where
  /-- An activity takes its next step. -/
  | step (who : Nat)
  /-- A call is made. -/
  | call (call : Call)
  /-- Another client of the store makes a request. -/
  | request {m : Method} (request : Request m)
  /-- The store becomes unreachable, or reachable again. -/
  | outage (unavailable : Bool)
  /-- Another client closes the store. -/
  | closeStore
  /-- Time passes. -/
  | wait (millis : Nat)

namespace Site

/-- A registry that has just begun at a store. -/
def start (store : Store) (config : Config) (dialer : Dialer) (faults : Faults) : Site where
  clock := 0
  store := store
  client := { Client.fresh with faults := faults }
  registry := Registry.start config dialer

/-- The site after a move, `none` if the move cannot be made. -/
def after (site : Site) : Move → Option Site
  | .step who => if site.canStep who then some (site.step who) else none
  | .call call => some (site.mapRegistry fun registry => registry.begin (.calling call))
  | .request request =>
    match site.store.serve site.clock request with
    | .ok (_, store) => some { site with store := store }
    | .error _ => some site
  | .outage unavailable => some { site with store := { site.store with unavailable := unavailable } }
  | .closeStore => some { site with store := site.store.close }
  | .wait millis => some { site with clock := site.clock + millis }

/-- The site after a list of moves, `none` if one of them cannot be made. -/
def run (site : Site) (moves : List Move) : Option Site := moves.foldlM after site

@[simp] theorem run_nil (site : Site) : site.run [] = some site := rfl

theorem run_cons (site : Site) (move : Move) (moves : List Move) :
    site.run (move :: moves) = (site.after move).bind fun next => next.run moves := by
  simp only [run, List.foldlM_cons]
  rfl

/-- A run goes on where an earlier one has ended. -/
theorem run_append (site : Site) (moves later : List Move) :
    site.run (moves ++ later) = (site.run moves).bind fun next => next.run later := by
  induction moves generalizing site with
  | nil => rfl
  | cons move moves ih =>
    simp only [List.cons_append, run_cons, Option.bind_assoc, ih]

/-- What holds of a site and is kept by every move holds after every run. -/
theorem run_induction {P : Site → Prop} {site final : Site} {moves : List Move} (hsite : P site)
    (hkept : ∀ s t move, P s → s.after move = some t → P t)
    (hrun : site.run moves = some final) : P final := by
  induction moves generalizing site with
  | nil => exact Option.some.inj hrun ▸ hsite
  | cons move moves ih =>
    rw [run_cons] at hrun
    obtain ⟨next, hnext, hrest⟩ := Option.bind_eq_some_iff.1 hrun
    exact ih (hkept site next move hsite hnext) hrest

end Site

end ServiceRegistry
