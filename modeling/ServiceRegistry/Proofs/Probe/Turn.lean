import ServiceRegistry.Probe.Run
import ServiceRegistry.Proofs.Client.Answers

/-!
# What a step of a probe does

A probe asks the store for up to three things, one after the other. `Turn` has one rule for each answer
that a step can find, and one for a step that finds the time over. What is asked for at each stage is told
by `Stage.Asks`. So a step changes the content of the store just if it finds the root key written.
-/
namespace ServiceRegistry

namespace Probe

/-- Steps of a probe by what they find: the stage that the probe comes to, and the link afterwards. -/
inductive Turn (probe : Probe) (link : Link) : Stage → Link → Prop
  | begin (hstage : probe.stage = .starting) :
      probe.Turn link (.reading (link.send (.get probe.root)).1) (link.send (.get probe.root)).2
  | found {flight : Flight .get} {row : Row} {after : Link} (hstage : probe.stage = .reading flight)
      (hreceive : link.receive flight = (.ok (some row), after)) :
      probe.Turn link (.finished (.ok ())) after
  | miss {flight : Flight .get} {after : Link} (hstage : probe.stage = .reading flight)
      (hreceive : link.receive flight = (.ok none, after)) (hcreate : probe.create = false) :
      probe.Turn link (.finished (.error (.rootMissing probe.root))) after
  | create {flight : Flight .get} {mid : Link} (hstage : probe.stage = .reading flight)
      (hreceive : link.receive flight = (.ok none, mid)) (hcreate : probe.create = true) :
      probe.Turn link (.granting (mid.send (.grant rootTtlSecs)).1) (mid.send (.grant rootTtlSecs)).2
  | grant {flight : Flight .grant} {lease : LeaseId} {mid : Link}
      (hstage : probe.stage = .granting flight) (hreceive : link.receive flight = (.ok lease, mid)) :
      probe.Turn link (.writing (mid.send (.put probe.root "" (some lease))).1)
        (mid.send (.put probe.root "" (some lease))).2
  | write {flight : Flight .put} {answer : Except Error Unit} {after : Link}
      (hstage : probe.stage = .writing flight) (hdue : flight.due ≤ link.clock)
      (hreceive : link.receive flight = (answer, after)) :
      probe.Turn link (.finished answer) after
  /-- The store fails the reading of the root key. -/
  | unread {flight : Flight .get} {e : Error} {after : Link} (hstage : probe.stage = .reading flight)
      (hreceive : link.receive flight = (.error e, after)) :
      probe.Turn link (.finished (.error e)) after
  /-- The store fails the grant of a lease. -/
  | ungranted {flight : Flight .grant} {e : Error} {after : Link}
      (hstage : probe.stage = .granting flight) (hreceive : link.receive flight = (.error e, after)) :
      probe.Turn link (.finished (.error e)) after
  /-- The time is over, and the store has not answered. -/
  | expire (hlate : probe.answerDue.any (· ≤ link.clock) = false) :
      probe.Turn link (.finished (.error (.timeout probe.limit))) link

theorem turn_of_proceed {probe : Probe} {link : Link} (hgoes : ∀ result, probe.stage ≠ .finished result)
    (hanswered : probe.answerDue.any (· ≤ link.clock) = true) :
    probe.Turn link (probe.proceed link).1 (probe.proceed link).2 := by
  cases hstage : probe.stage with
  | starting =>
    simp only [proceed, hstage]
    exact .begin hstage
  | reading flight =>
    simp only [proceed, hstage]
    split
    · rename_i hreceive
      exact .found hstage hreceive
    · rename_i hreceive
      split
      · rename_i hcreate
        exact .create hstage hreceive hcreate
      · rename_i hcreate
        exact .miss hstage hreceive (by simpa using hcreate)
    · rename_i hreceive
      exact .unread hstage hreceive
  | granting flight =>
    simp only [proceed, hstage]
    split
    · rename_i hreceive
      exact .grant hstage hreceive
    · rename_i hreceive
      exact .ungranted hstage hreceive
  | writing flight =>
    simp only [proceed, hstage]
    rw [answerDue, hstage] at hanswered
    exact .write hstage (by simpa using hanswered) rfl
  | finished result => exact absurd hstage (hgoes result)

/-- Every step of a probe that has not ended is a turn. -/
theorem turn_of_step (probe : Probe) (link : Link) (hgoes : ∀ result, probe.stage ≠ .finished result) :
    ∃ stage after, probe.step link = ({ probe with stage := stage }, after) ∧
      probe.Turn link stage after := by
  unfold step
  split
  · rename_i hanswered
    exact ⟨_, _, rfl, turn_of_proceed hgoes hanswered⟩
  · rename_i hlate
    exact ⟨_, _, rfl, .expire (by simpa using hlate)⟩

/-- A probe that waits for its write takes the answer, or finds the time over before. -/
theorem Turn.of_writing {probe : Probe} {link after : Link} {stage : Stage} {flight : Flight .put}
    (h : probe.Turn link stage after) (hstage : probe.stage = .writing flight) :
    flight.due ≤ link.clock ∧ (∃ answer, stage = .finished answer ∧
        link.receive flight = (answer, after)) ∨
      link.clock < flight.due ∧ stage = .finished (.error (.timeout probe.limit)) ∧ after = link := by
  cases h with
  | write hwriting hdue hreceive =>
    rw [hstage] at hwriting
    cases hwriting
    exact .inl ⟨hdue, _, rfl, hreceive⟩
  | expire hlate =>
    rw [answerDue, hstage] at hlate
    exact .inr ⟨by simpa using hlate, rfl, rfl⟩
  | begin hother | found hother | miss hother | create hother | grant hother | unread hother
  | ungranted hother =>
    rw [hstage] at hother
    cases hother

end Probe

namespace Probing

/-- What a move does to a probe and its link. -/
inductive Moved (probing : Probing) : Move → Probing → Prop
  | turn {stage : Probe.Stage} {link : Link} (hready : probing.canStep = true)
      (hturn : probing.probe.Turn probing.toLink stage link) :
      probing.Moved .step ⟨link, { probing.probe with stage := stage }⟩
  | served {m : Method} {request : Request m} {answer : Answer m} {store : Store}
      (hserve : probing.store.serve probing.clock request = .ok (answer, store)) :
      probing.Moved (.request request) { probing with store := store }
  | failed {m : Method} {request : Request m} : probing.Moved (.request request) probing
  | outage {unavailable : Bool} : probing.Moved (.outage unavailable)
      { probing with store := { probing.store with unavailable := unavailable } }
  | closed : probing.Moved .closeStore { probing with store := probing.store.close }
  | wait {millis : Nat} : probing.Moved (.wait millis) { probing with clock := probing.clock + millis }

theorem not_finished_of_canStep {probing : Probing} (h : probing.canStep = true)
    (result : Except Error Unit) : probing.probe.stage ≠ .finished result := by
  intro hended
  simp [canStep, Probe.due, Probe.answerDue, hended] at h

theorem moved_of_after {probing next : Probing} {move : Move} (h : probing.after move = some next) :
    probing.Moved move next := by
  cases move with
  | step =>
    simp only [after] at h
    split at h
    · rename_i hready
      cases h
      obtain ⟨stage, link, hstep, hturn⟩ :=
        probing.probe.turn_of_step probing.toLink (not_finished_of_canStep hready)
      rw [step, hstep]
      exact .turn hready hturn
    · cases h
  | request request =>
    simp only [after] at h
    split at h
    · rename_i hserve
      cases h
      exact .served hserve
    · cases h
      exact .failed
  | outage unavailable =>
    cases h
    exact .outage
  | closeStore =>
    cases h
    exact .closed
  | wait millis =>
    cases h
    exact .wait

/-! ## What a probe asks for -/

/-- What the answers are for which the probe waits, and which faults they may meet. -/
structure Asks (probing : Probing) (root : String) (create : Bool) (faults : Faults) : Prop where
  root_eq : probing.probe.root = root
  create_eq : probing.probe.create = create
  leaves : faults.Leaves probing.client.faults
  reading : ∀ flight, probing.probe.stage = .reading flight →
    flight.request = .get root ∧ flight.Meets faults
  granting : ∀ flight, probing.probe.stage = .granting flight →
    flight.request = .grant Probe.rootTtlSecs ∧ flight.Meets faults
  writing : ∀ flight, probing.probe.stage = .writing flight →
    (∃ lease, flight.request = .put root "" (some lease)) ∧ flight.Meets faults

variable {link : Link} {root : String} {create : Bool} {limit : Duration} {moves : List Move}
  {probing next : Probing} {move : Move} {faults : Faults}

theorem asks_start : (start link root create limit).Asks root create link.client.faults := by
  refine ⟨rfl, rfl, .refl _, ?_, ?_, ?_⟩
  · intro flight hstage
    cases hstage
  · intro flight hstage
    cases hstage
  · intro flight hstage
    cases hstage

/-- A probe that has ended asks for nothing more. -/
theorem Asks.ended (h : probing.Asks root create faults) {after : Link}
    (hleaves : faults.Leaves after.client.faults) (result : Except Error Unit) :
    Asks ⟨after, { probing.probe with stage := .finished result }⟩ root create faults := by
  refine ⟨h.root_eq, h.create_eq, hleaves, ?_, ?_, ?_⟩
  · intro flight hstage
    cases hstage
  · intro flight hstage
    cases hstage
  · intro flight hstage
    cases hstage

theorem Asks.turn (h : probing.Asks root create faults) {stage : Probe.Stage} {after : Link}
    (hturn : probing.probe.Turn probing.toLink stage after) :
    Asks ⟨after, { probing.probe with stage := stage }⟩ root create faults := by
  have hmid : ∀ {m : Method} {flight : Flight m} {answer : Except Error (Answer m)} {mid : Link},
      probing.toLink.receive flight = (answer, mid) → faults.Leaves mid.client.faults := by
    intro m flight answer mid hreceive
    rw [← show (probing.toLink.receive flight).2 = mid from congrArg Prod.snd hreceive,
      Link.client_receive]
    exact h.leaves
  have hsent : ∀ {m : Method} {mid : Link} (request : Request m), faults.Leaves mid.client.faults →
      faults.Leaves (mid.send request).2.client.faults := by
    intro m mid request hleaves
    rw [Link.faults_send]
    exact hleaves.trans (Faults.leaves_spend _ _)
  cases hturn with
  | begin hstage =>
    refine ⟨h.root_eq, h.create_eq, hsent _ h.leaves, ?_, ?_, ?_⟩
    · intro flight hnext
      cases hnext
      exact ⟨by rw [Link.request_send, h.root_eq], (Link.meets_send _ _).of_leaves h.leaves⟩
    · intro flight hnext
      cases hnext
    · intro flight hnext
      cases hnext
  | create hstage hreceive hcreate =>
    refine ⟨h.root_eq, h.create_eq, hsent _ (hmid hreceive), ?_, ?_, ?_⟩
    · intro flight hnext
      cases hnext
    · intro flight hnext
      cases hnext
      exact ⟨Link.request_send _ _, (Link.meets_send _ _).of_leaves (hmid hreceive)⟩
    · intro flight hnext
      cases hnext
  | grant hstage hreceive =>
    refine ⟨h.root_eq, h.create_eq, hsent _ (hmid hreceive), ?_, ?_, ?_⟩
    · intro flight hnext
      cases hnext
    · intro flight hnext
      cases hnext
    · intro flight hnext
      cases hnext
      exact ⟨⟨_, by rw [Link.request_send, h.root_eq]⟩, (Link.meets_send _ _).of_leaves (hmid hreceive)⟩
  | found hstage hreceive | miss hstage hreceive | write hstage hdue hreceive
  | unread hstage hreceive | ungranted hstage hreceive => exact h.ended (hmid hreceive) _
  | expire => exact h.ended h.leaves _

theorem Asks.moved (h : probing.Asks root create faults) (hmove : probing.after move = some next) :
    next.Asks root create faults := by
  cases moved_of_after hmove with
  | turn hready hturn => exact h.turn hturn
  | served | failed | outage | closed | wait =>
    exact ⟨h.root_eq, h.create_eq, h.leaves, h.reading, h.granting, h.writing⟩

theorem asks_of_run (hrun : (start link root create limit).run moves = some probing) :
    probing.Asks root create link.client.faults :=
  run_induction (P := fun _ probing => probing.Asks root create link.client.faults) asks_start
    (fun _ _ _ _ _ hasks hmove => hasks.moved hmove) hrun

/-! ## What a step does to the store -/

/-- The lease under which the next step finds the root key written, if it does. -/
def writes? (probing : Probing) : Option LeaseId :=
  match probing.probe.stage with
  | .writing ⟨.put root value lease, treatment, due⟩ =>
    if due ≤ probing.clock && probing.carriesOut ⟨.put root value lease, treatment, due⟩ then lease
    else none
  | _ => none

theorem Asks.writes?_eq_some (h : probing.Asks root create faults) {lease : LeaseId} :
    probing.writes? = some lease ↔ ∃ flight, probing.probe.stage = .writing flight ∧
      flight.request = .put root "" (some lease) ∧ flight.due ≤ probing.clock ∧
      probing.carriesOut flight = true := by
  unfold writes?
  split
  · rename_i key value given treatment due hstage
    obtain ⟨⟨held, hrequest⟩, -⟩ := h.writing _ hstage
    cases hrequest
    constructor
    · intro hwrites
      split at hwrites
      · rename_i hdone
        cases hwrites
        exact ⟨_, hstage, rfl, by simpa using hdone⟩
      · cases hwrites
    · rintro ⟨flight, hsame, hput, hdone⟩
      rw [hstage] at hsame
      cases hsame
      cases hput
      rw [if_pos (by simpa using hdone)]
  · rename_i hother
    constructor
    · exact nofun
    · rintro ⟨⟨⟨key, value, given⟩, treatment, due⟩, hsame, -⟩
      exact absurd hsame (hother _ _ _ _ _)

end Probing

end ServiceRegistry
