import ServiceRegistry.Proofs.Probe.Root

/-!
# A probe that nobody disturbs

Nobody else uses the store, and the probe goes on as soon as it can. What it finds out, and when, is then
settled by the content of the store and by the faults that its requests meet: `Link.finding` works it out.
If that is not too late for the limit of the probe, the probe reports it; otherwise the probe ends at its
limit, and only what the store had carried out until then is done. `Course` lists the states that such a
probe comes through.
-/
namespace ServiceRegistry

/-! ## Requests and their faults -/

/-- The error with which a treatment ends a request that the store carries out whenever it answers. -/
def Treatment.failure? {m : Method} (treatment : Treatment m) (store : Store) : Option Error :=
  match treatment, store.check with
  | .refused e, _ => some e
  | _, .error e => some e
  | .lost e, .ok () => some e
  | _, .ok () => none

theorem Treatment.check_of_failure?_none {m : Method} {treatment : Treatment m} {store : Store}
    (h : treatment.failure? store = none) : store.check = .ok () := by
  unfold failure? at h
  split at h <;> simp_all

theorem Faults.Genuine.treatment_ne {faults : Faults} {m : Method} (h : faults.Genuine m)
    (answer : Answer m) : faults.treatment m ≠ .canned answer := by
  unfold Faults.treatment
  cases hfaults : faults m with
  | nil => simp
  | cons fault rest => simpa using h fault (by simp [hfaults]) answer

/-! ## Answers to requests that meet a treatment -/

namespace Link

variable (link : Link) {m : Method} {e : Error}

/-- A reading of a key leaves the link as it is. -/
theorem receive_get_snd (flight : Flight .get) : (link.receive flight).2 = link := by
  obtain ⟨⟨key⟩, treatment, due⟩ := flight
  unfold receive serve
  simp only [Store.serve]
  cases treatment <;> cases link.store.get key <;> rfl

/-- A request that no treatment ends is answered by the store. -/
theorem receive_of_failure?_none {request : Request m} {treatment : Treatment m} (due : Nat)
    (h : treatment.failure? link.store = none) (hgenuine : ∀ answer, treatment ≠ .canned answer)
    {answer : Answer m} {after : Store}
    (hserve : link.store.serve link.clock request = .ok (answer, after)) :
    link.receive ⟨request, treatment, due⟩ = (.ok answer, { link with store := after }) := by
  have hcheck := Treatment.check_of_failure?_none h
  cases treatment with
  | plain => simp [receive, serve, hserve]
  | refused e | lost e => simp [Treatment.failure?, hcheck] at h
  | canned given => exact absurd rfl (hgenuine given)

/-- A request that a treatment ends fails. -/
theorem receive_of_failure? (request : Request m) {treatment : Treatment m} (due : Nat)
    (h : treatment.failure? link.store = some e) (hgenuine : ∀ answer, treatment ≠ .canned answer)
    (hcarries : link.store.check = .ok () → ∃ result, link.store.serve link.clock request = .ok result) :
    ∃ after, link.receive ⟨request, treatment, due⟩ = (.error e, after) := by
  cases hcheck : link.store.check with
  | error cause =>
    have hserve := Store.serve_of_check_error hcheck link.clock request
    cases treatment with
    | canned answer => exact absurd rfl (hgenuine answer)
    | plain | refused | lost => simp_all [Treatment.failure?, receive, serve]
  | ok =>
    obtain ⟨result, hserve⟩ := hcarries hcheck
    cases treatment <;> simp_all [Treatment.failure?, receive, serve]

variable (key : String) {treatment : Treatment .get} (due : Nat)

theorem receive_get_of_failure? (h : treatment.failure? link.store = some e)
    (hgenuine : ∀ answer, treatment ≠ .canned answer) :
    link.receive ⟨.get key, treatment, due⟩ = (.error e, link) := by
  obtain ⟨after, hreceive⟩ := link.receive_of_failure? (.get key) due h hgenuine fun hcheck =>
    ⟨_, show link.store.serve link.clock (.get key) = .ok (_, _) by
      simp only [Store.serve, Store.get, hcheck]; rfl⟩
  have hsame := link.receive_get_snd ⟨.get key, treatment, due⟩
  rw [hreceive] at hsame ⊢
  rw [← hsame]

theorem receive_get_of_failure?_none (h : treatment.failure? link.store = none)
    (hgenuine : ∀ answer, treatment ≠ .canned answer) :
    link.receive ⟨.get key, treatment, due⟩ =
      (.ok ((link.store.content.get? key).map fun record => ⟨key, record.value⟩), link) := by
  refine link.receive_of_failure?_none due h hgenuine ?_
  simp only [Store.serve, Store.get, Treatment.check_of_failure?_none h]
  rfl

end Link

/-! ## What a probe finds out -/

namespace Link

variable (link : Link) (root : String) (create : Bool)

/-- When the root key has been read for a probe that begins now. -/
def readAt : Nat := link.clock + link.client.faults.delay .get

/-- When a lease has been granted for the root key. -/
def grantedAt : Nat := link.readAt + link.client.faults.delay .grant

/-- When the root key has been written. -/
def writtenAt : Nat := link.grantedAt + link.client.faults.delay .put

/-- The error with which the next request by a method fails, if it does. -/
def failure? (m : Method) : Option Error := (link.client.faults.treatment m).failure? link.store

/-- When the creation of the root key is over, and how it ends. -/
def creation : Nat × Except Error Unit :=
  match link.failure? .grant, link.failure? .put with
  | some e, _ => (link.grantedAt, .error e)
  | none, some e => (link.writtenAt, .error e)
  | none, none => (link.writtenAt, .ok ())

/-- When a probe that begins now knows its result, and what it is, if nobody disturbs the probe and nothing
limits it. -/
def finding : Nat × Except Error Unit :=
  match link.failure? .get with
  | some e => (link.readAt, .error e)
  | none =>
    if (link.store.content.get? root).isSome then (link.readAt, .ok ())
    else if create then link.creation
    else (link.readAt, .error (.rootMissing root))

/-- A probe that begins now gets to the creation of the root key. -/
structure Creates : Prop where
  reads : link.failure? .get = none
  absent : link.store.content.get? root = none
  create : create = true

end Link

section
variable {link : Link} {root : String} {create : Bool}

theorem Link.finding_of_creates (h : link.Creates root create) :
    link.finding root create = link.creation := by
  simp [Link.finding, h.reads, h.absent, h.create]

theorem Link.Creates.not_spared (h : link.Creates root create) :
    ¬ ((link.store.content.get? root).isSome ∨ create = false) := by
  simp [h.absent, h.create]

theorem Link.creation_of_grants (h : link.failure? .grant = none) :
    link.creation.1 = link.writtenAt := by
  unfold Link.creation
  split <;> simp_all

theorem Link.grantedAt_le_creation : link.grantedAt ≤ link.creation.1 := by
  unfold Link.creation
  split
  · exact le_rfl
  · exact Nat.le_add_right _ _
  · exact Nat.le_add_right _ _

/-- A probe that is not over with the grant of a lease has been granted one. -/
theorem Link.check_of_grantedAt_lt (h : link.grantedAt < (link.finding root create).1) :
    link.store.check = .ok () := by
  have hread : link.readAt ≤ link.grantedAt := Nat.le_add_right _ _
  unfold Link.finding at h
  split at h
  · omega
  · rename_i hreads
    exact Treatment.check_of_failure?_none hreads

/-- All of a probe takes at least as long as the reading. -/
theorem Link.readAt_le_finding : link.readAt ≤ (link.finding root create).1 := by
  have hgranted : link.readAt ≤ link.grantedAt := Nat.le_add_right _ _
  have hcreation := link.grantedAt_le_creation
  unfold Link.finding
  split
  · exact le_rfl
  · split_ifs
    · exact le_rfl
    · exact hgranted.trans hcreation
    · exact le_rfl

end

namespace Probing

/-! ## Probes that nobody disturbs -/

/-- A move that nobody else makes, and that lets no time pass while the probe can take a step. -/
def Attends (probing : Probing) : Move → Prop
  | .step => True
  | .wait millis => ∀ due ∈ probing.probe.due, probing.clock + millis ≤ max probing.clock due
  | .request _ | .outage _ | .closeStore => False

/-- All moves of a run are of that kind. -/
def Alone (probing : Probing) : List Move → Prop
  | [] => True
  | move :: moves => probing.Attends move ∧ ∀ next ∈ probing.after move, next.Alone moves

instance decidableAttends (probing : Probing) : (move : Move) → Decidable (probing.Attends move)
  | .step => .isTrue trivial
  | .wait millis =>
    inferInstanceAs (Decidable (∀ due ∈ probing.probe.due, probing.clock + millis ≤ max probing.clock due))
  | .request _ | .outage _ | .closeStore => .isFalse id

instance decidableAlone (probing : Probing) : (moves : List Move) → Decidable (probing.Alone moves)
  | [] => .isTrue trivial
  | move :: moves =>
    have : DecidablePred fun next : Probing => next.Alone moves := fun next => decidableAlone next moves
    inferInstanceAs (Decidable (probing.Attends move ∧ ∀ next ∈ probing.after move, next.Alone moves))

variable (link : Link) (root : String) (create : Bool) (limit : Duration)

/-- The result of a probe that nobody disturbs, and the store that it leaves. -/
structure Concluded (result : Except Error Unit) (store : Store) : Prop where
  result_eq : result =
    if (link.finding root create).1 ≤ link.clock + limit.ceilMillis then (link.finding root create).2
    else .error (.timeout limit)
  /-- A probe that ends at its limit has not got further than to a lease. -/
  cut : link.clock + limit.ceilMillis < (link.finding root create).1 →
    store = if link.grantedAt ≤ link.clock + limit.ceilMillis then link.store.leased Probe.rootTtlSecs
      else link.store
  spared : (link.store.content.get? root).isSome ∨ create = false → store = link.store
  created : result = .ok () → link.store.content.get? root = none →
    create = true ∧ link.store.check = .ok () ∧
      store = (link.store.leased Probe.rootTtlSecs).written root "" ⟨link.store.granted + 1⟩

/-- The states of a probe that nobody disturbs. -/
inductive Course : Probing → Prop
  | starting : Course (start link root create limit)
  | reading {clock : Nat} {client : Client}
      (hclock : clock ≤ min link.readAt (link.clock + limit.ceilMillis))
      (hfaults : client.faults = link.client.faults.spend .get) :
      Course ⟨⟨clock, link.store, client⟩, root, create, limit, link.clock + limit.ceilMillis,
        .reading ⟨.get root, link.client.faults.treatment .get, link.readAt⟩⟩
  | granting {clock : Nat} {client : Client} (hcreates : link.Creates root create)
      (hclock : clock ≤ min link.grantedAt (link.clock + limit.ceilMillis))
      (hfaults : client.faults = (link.client.faults.spend .get).spend .grant) :
      Course ⟨⟨clock, link.store, client⟩, root, create, limit, link.clock + limit.ceilMillis,
        .granting ⟨.grant Probe.rootTtlSecs, link.client.faults.treatment .grant, link.grantedAt⟩⟩
  -- the lease has been granted in time, and stays if the writing is cut off
  | writing {clock : Nat} {client : Client} (hcreates : link.Creates root create)
      (hgranted : link.failure? .grant = none)
      (hclock : clock ≤ min link.writtenAt (link.clock + limit.ceilMillis))
      (hfirst : link.grantedAt ≤ link.clock + limit.ceilMillis) :
      Course ⟨⟨clock, link.store.leased Probe.rootTtlSecs, client⟩, root, create, limit,
        link.clock + limit.ceilMillis, .writing ⟨.put root "" (some ⟨link.store.granted + 1⟩),
          link.client.faults.treatment .put, link.writtenAt⟩⟩
  | finished {after : Link} {result : Except Error Unit}
      (hconcluded : Concluded link root create limit result after.store) :
      Course ⟨after, root, create, limit, link.clock + limit.ceilMillis, .finished result⟩

variable {link : Link} {root : String} {create : Bool} {limit : Duration} {probing next : Probing}
  {result : Except Error Unit} {store : Store}

/-- A probe that is in time concludes with what it has found out. -/
theorem Concluded.of_timely {time : Nat} (hfinding : link.finding root create = (time, result))
    (htime : time ≤ link.clock + limit.ceilMillis)
    (hspared : (link.store.content.get? root).isSome ∨ create = false → store = link.store)
    (hcreated : result = .ok () → link.store.content.get? root = none →
      create = true ∧ link.store.check = .ok () ∧
        store = (link.store.leased Probe.rootTtlSecs).written root "" ⟨link.store.granted + 1⟩) :
    Concluded link root create limit result store := by
  refine ⟨?_, fun hlate => ?_, hspared, hcreated⟩
  · simp [hfinding, htime]
  · rw [hfinding] at hlate
    omega

/-- A probe that is late concludes at its limit. -/
theorem Concluded.of_late (hlate : link.clock + limit.ceilMillis < (link.finding root create).1)
    (hstore : store = if link.grantedAt ≤ link.clock + limit.ceilMillis then
      link.store.leased Probe.rootTtlSecs else link.store)
    (hspared : (link.store.content.get? root).isSome ∨ create = false → store = link.store) :
    Concluded link root create limit (.error (.timeout limit)) store :=
  ⟨(if_neg (not_le.2 hlate)).symm, fun _ => hstore, hspared, by simp⟩

/-- A step takes an answer that is there, and else ends a probe whose time is over. -/
theorem of_after_step (h : probing.after .step = some next) :
    ∃ due ∈ probing.probe.answerDue,
      (due ≤ probing.clock ∧ next = ⟨(probing.probe.proceed probing.toLink).2,
        { probing.probe with stage := (probing.probe.proceed probing.toLink).1 }⟩ ∨
      probing.clock < due ∧ probing.probe.deadline ≤ probing.clock ∧ next = ⟨probing.toLink,
        { probing.probe with stage := .finished (.error (.timeout probing.probe.limit)) }⟩) := by
  simp only [after] at h
  split at h
  · rename_i hready
    cases h
    cases hdue : probing.probe.answerDue with
    | none => simp [canStep, Probe.due, hdue] at hready
    | some due =>
      refine ⟨due, rfl, ?_⟩
      by_cases hanswered : due ≤ probing.clock
      · refine .inl ⟨hanswered, ?_⟩
        simp [step, Probe.step, hdue, hanswered]
      · refine .inr ⟨not_le.1 hanswered, ?_, ?_⟩
        · simp [canStep, Probe.due, hdue, hanswered] at hready
          exact hready
        · simp [step, Probe.step, hdue, hanswered]
  · cases h

/-- What the reading of the root key brings. -/
theorem Course.of_reading (hgenuine : link.client.faults.Genuine .get) {clock : Nat} {client : Client}
    (hclock : clock ≤ min link.readAt (link.clock + limit.ceilMillis))
    (hfaults : client.faults = link.client.faults.spend .get)
    (h : after ⟨⟨clock, link.store, client⟩, root, create, limit, link.clock + limit.ceilMillis,
      .reading ⟨.get root, link.client.faults.treatment .get, link.readAt⟩⟩ .step = some next) :
    Course link root create limit next := by
  obtain ⟨due, hdue, ⟨hanswered, rfl⟩ | ⟨hlate, hover, rfl⟩⟩ := of_after_step h
  · cases hdue
    -- nobody is late, so the answer is taken in the millisecond in which it comes
    obtain rfl : clock = link.readAt := by simp only at hanswered; omega
    have htime : link.readAt ≤ link.clock + limit.ceilMillis := by omega
    have hgranted : link.readAt ≤ link.grantedAt := Nat.le_add_right _ _
    cases hfailure : link.failure? .get with
    | some e =>
      have hreceive := Link.receive_get_of_failure? ⟨link.readAt, link.store, client⟩ root link.readAt
        hfailure hgenuine.treatment_ne
      have hfinding : link.finding root create = (link.readAt, .error e) := by
        simp [Link.finding, hfailure]
      simp only [Probe.proceed, hreceive]
      exact .finished (.of_timely hfinding htime (fun _ => rfl) (by simp))
    | none =>
      have hreceive := Link.receive_get_of_failure?_none ⟨link.readAt, link.store, client⟩ root link.readAt
        hfailure hgenuine.treatment_ne
      cases hrow : link.store.content.get? root with
      | some record =>
        have hfinding : link.finding root create = (link.readAt, .ok ()) := by
          simp [Link.finding, hfailure, hrow]
        simp only [Probe.proceed, hreceive, hrow, Option.map_some]
        exact .finished (.of_timely hfinding htime (fun _ => rfl) (by simp [hrow]))
      | none =>
        cases create with
        | false =>
          have hfinding : link.finding root false = (link.readAt, .error (.rootMissing root)) := by
            simp [Link.finding, hfailure, hrow]
          simp only [Probe.proceed, hreceive, hrow, Option.map_none]
          exact .finished (.of_timely hfinding htime (fun _ => rfl) (by simp))
        | true =>
          simp only [Probe.proceed, hreceive, hrow, Option.map_none, Link.send_eq, if_true, hfaults,
            Faults.treatment_spend _ (show Method.grant ≠ .get by simp),
            Faults.delay_spend _ (show Method.grant ≠ .get by simp)]
          exact .granting ⟨hfailure, hrow, rfl⟩ (le_min hgranted htime) (by simp [hfaults])
  · cases hdue
    have htime : link.clock + limit.ceilMillis < link.readAt := by simp only at hlate hover; omega
    have hgranted : link.readAt ≤ link.grantedAt := Nat.le_add_right _ _
    refine .finished (.of_late (htime.trans_le Link.readAt_le_finding) ?_ fun _ => rfl)
    exact (if_neg (by omega)).symm

/-- What the grant of a lease brings. -/
theorem Course.of_granting (hgenuine : link.client.faults.Genuine .grant) {clock : Nat} {client : Client}
    (hcreates : link.Creates root create)
    (hclock : clock ≤ min link.grantedAt (link.clock + limit.ceilMillis))
    (hfaults : client.faults = (link.client.faults.spend .get).spend .grant)
    (h : after ⟨⟨clock, link.store, client⟩, root, create, limit, link.clock + limit.ceilMillis,
      .granting ⟨.grant Probe.rootTtlSecs, link.client.faults.treatment .grant, link.grantedAt⟩⟩ .step =
        some next) :
    Course link root create limit next := by
  have hspared := hcreates.not_spared
  obtain ⟨due, hdue, ⟨hanswered, rfl⟩ | ⟨hlate, hover, rfl⟩⟩ := of_after_step h
  · cases hdue
    obtain rfl : clock = link.grantedAt := by simp only at hanswered; omega
    have htime : link.grantedAt ≤ link.clock + limit.ceilMillis := by omega
    have hwritten : link.grantedAt ≤ link.writtenAt := Nat.le_add_right _ _
    cases hfailure : link.failure? .grant with
    | some e =>
      obtain ⟨after, hreceive⟩ := Link.receive_of_failure? ⟨link.grantedAt, link.store, client⟩
        (.grant Probe.rootTtlSecs) link.grantedAt hfailure hgenuine.treatment_ne
        fun hcheck => ⟨_, Store.grant_of_check hcheck _⟩
      have hfinding : link.finding root create = (link.grantedAt, .error e) := by
        simp [Link.finding_of_creates hcreates, Link.creation, hfailure]
      simp only [Probe.proceed, hreceive]
      exact .finished (.of_timely hfinding htime (fun h => absurd h hspared) (by simp))
    | none =>
      have hserve := Store.serve_grant_of_check (Treatment.check_of_failure?_none hfailure)
        link.grantedAt Probe.rootTtlSecs
      have hreceive := Link.receive_of_failure?_none ⟨link.grantedAt, link.store, client⟩ link.grantedAt
        hfailure hgenuine.treatment_ne hserve
      simp only [Probe.proceed, hreceive, Link.send_eq, hfaults,
        Faults.treatment_spend _ (show Method.put ≠ .grant by simp),
        Faults.treatment_spend _ (show Method.put ≠ .get by simp),
        Faults.delay_spend _ (show Method.put ≠ .grant by simp),
        Faults.delay_spend _ (show Method.put ≠ .get by simp)]
      exact .writing hcreates hfailure (le_min hwritten htime) htime
  · cases hdue
    have htime : link.clock + limit.ceilMillis < link.grantedAt := by simp only at hlate hover; omega
    have hfinding := link.grantedAt_le_creation
    rw [← Link.finding_of_creates hcreates] at hfinding
    refine .finished (.of_late (htime.trans_le hfinding) ?_ fun _ => rfl)
    exact (if_neg (by omega)).symm

/-- What the writing of the root key brings. -/
theorem Course.of_writing (hgenuine : link.client.faults.Genuine .put) {clock : Nat} {client : Client}
    (hcreates : link.Creates root create) (hgrants : link.failure? .grant = none)
    (hclock : clock ≤ min link.writtenAt (link.clock + limit.ceilMillis))
    (hfirst : link.grantedAt ≤ link.clock + limit.ceilMillis)
    (h : after ⟨⟨clock, link.store.leased Probe.rootTtlSecs, client⟩, root, create, limit,
      link.clock + limit.ceilMillis, .writing ⟨.put root "" (some ⟨link.store.granted + 1⟩),
        link.client.faults.treatment .put, link.writtenAt⟩⟩ .step = some next) :
    Course link root create limit next := by
  have hspared := hcreates.not_spared
  have hcheck : link.store.check = .ok () := Treatment.check_of_failure?_none hgrants
  have hserve := Store.serve_put_of_check ((Store.check_leased _ Probe.rootTtlSecs).trans hcheck) clock
    root "" (Store.isLive_leased _ _)
  obtain ⟨due, hdue, ⟨hanswered, rfl⟩ | ⟨hlate, hover, rfl⟩⟩ := of_after_step h
  · cases hdue
    have htime : link.writtenAt ≤ link.clock + limit.ceilMillis := by simp only at hanswered; omega
    cases hfailure : link.failure? .put with
    | some e =>
      obtain ⟨after, hreceive⟩ := Link.receive_of_failure?
        ⟨clock, link.store.leased Probe.rootTtlSecs, client⟩
        (.put root "" (some ⟨link.store.granted + 1⟩)) link.writtenAt hfailure
        hgenuine.treatment_ne fun _ => ⟨_, hserve⟩
      have hfinding : link.finding root create = (link.writtenAt, .error e) := by
        simp [Link.finding_of_creates hcreates, Link.creation, hgrants, hfailure]
      simp only [Probe.proceed, hreceive]
      exact .finished (.of_timely hfinding htime (fun h => absurd h hspared) (by simp))
    | none =>
      have hreceive := Link.receive_of_failure?_none
        ⟨clock, link.store.leased Probe.rootTtlSecs, client⟩ link.writtenAt hfailure
        hgenuine.treatment_ne hserve
      have hfinding : link.finding root create = (link.writtenAt, .ok ()) := by
        simp [Link.finding_of_creates hcreates, Link.creation, hgrants, hfailure]
      simp only [Probe.proceed, hreceive]
      exact .finished (.of_timely hfinding htime (fun h => absurd h hspared)
        fun _ _ => ⟨hcreates.create, hcheck, rfl⟩)
  · cases hdue
    have htime : link.clock + limit.ceilMillis < link.writtenAt := by simp only at hlate hover; omega
    have hfinding : (link.finding root create).1 = link.writtenAt := by
      rw [Link.finding_of_creates hcreates, Link.creation_of_grants hgrants]
    refine .finished (.of_late (hfinding ▸ htime) ?_ fun h => absurd h hspared)
    exact (if_pos hfirst).symm

/-- A step of a probe whose requests are not answered in place of the store. -/
theorem Course.step (hget : link.client.faults.Genuine .get) (hgrant : link.client.faults.Genuine .grant)
    (hput : link.client.faults.Genuine .put) (h : Course link root create limit probing)
    (hstep : probing.after .step = some next) : Course link root create limit next := by
  cases h with
  | starting =>
    obtain ⟨due, hdue, ⟨hanswered, rfl⟩ | ⟨hlate, -⟩⟩ := of_after_step hstep
    · simp only [start, Probe.start, Probe.proceed, Link.send_eq]
      exact .reading (le_min (Nat.le_add_right _ _) (Nat.le_add_right _ _)) rfl
    · cases hdue
      exact absurd hlate (Nat.not_lt_zero _)
  | reading hclock hfaults => exact .of_reading hget hclock hfaults hstep
  | granting hcreates hclock hfaults => exact .of_granting hgrant hcreates hclock hfaults hstep
  | writing hcreates hgrants hclock hfirst => exact .of_writing hput hcreates hgrants hclock hfirst hstep
  | finished =>
    obtain ⟨due, hdue, -⟩ := of_after_step hstep
    cases hdue

/-- A probe that goes on as soon as it can lets no time pass beyond what it waits for. -/
theorem Course.wait {millis : Nat} (h : Course link root create limit probing)
    (hattends : probing.Attends (.wait millis)) :
    Course link root create limit { probing with clock := probing.clock + millis } := by
  cases h with
  | starting =>
    have hnow := hattends _ rfl
    obtain rfl : millis = 0 := by simp [start] at hnow; omega
    exact .starting
  | reading hclock hfaults =>
    have hnow := hattends _ rfl
    exact .reading (hnow.trans (max_le hclock le_rfl)) hfaults
  | granting hcreates hclock hfaults =>
    have hnow := hattends _ rfl
    exact .granting hcreates (hnow.trans (max_le hclock le_rfl)) hfaults
  | writing hcreates hgrants hclock hfirst =>
    have hnow := hattends _ rfl
    exact .writing hcreates hgrants (hnow.trans (max_le hclock le_rfl)) hfirst
  | finished hconcluded => exact .finished hconcluded

theorem Course.run (hget : link.client.faults.Genuine .get) (hgrant : link.client.faults.Genuine .grant)
    (hput : link.client.faults.Genuine .put) {moves : List Move}
    (h : Course link root create limit probing) (halone : probing.Alone moves)
    (hrun : probing.run moves = some next) : Course link root create limit next := by
  induction moves generalizing probing with
  | nil =>
    cases hrun
    exact h
  | cons move moves ih =>
    rw [run_cons] at hrun
    obtain ⟨mid, hmid, hrest⟩ := Option.bind_eq_some_iff.1 hrun
    refine ih ?_ (halone.2 mid hmid) hrest
    cases move with
    | step => exact h.step hget hgrant hput hmid
    | wait millis =>
      cases hmid
      exact h.wait halone.1
    | request | outage | closeStore => exact absurd halone.1 id

/-! ## Every probe comes to an end -/

theorem Alone.append {moves later : List Move} (h : probing.Alone moves)
    (hrun : probing.run moves = some next) (hlater : next.Alone later) :
    probing.Alone (moves ++ later) := by
  induction moves generalizing probing with
  | nil =>
    cases hrun
    exact hlater
  | cons move moves ih =>
    rw [run_cons] at hrun
    obtain ⟨mid, hmid, hrest⟩ := Option.bind_eq_some_iff.1 hrun
    refine ⟨h.1, fun given hgiven => ?_⟩
    obtain rfl : mid = given := Option.some.inj (hmid.symm.trans hgiven)
    exact ih (h.2 mid hmid) hrest

/-- How many steps a probe can still take. -/
def stepsLeft (probing : Probing) : Nat :=
  match probing.probe.stage with
  | .starting => 4
  | .reading _ => 3
  | .granting _ => 2
  | .writing _ => 1
  | .finished _ => 0

theorem result?_of_stepsLeft (h : probing.stepsLeft = 0) : ∃ result, probing.probe.result? = some result := by
  unfold stepsLeft at h
  split at h
  all_goals simp_all [Probe.result?]

/-- Every step brings a probe nearer to its end. -/
theorem stepsLeft_lt_of_step (h : probing.after .step = some next) :
    next.stepsLeft < probing.stepsLeft := by
  cases moved_of_after h with
  | turn hready hturn =>
    cases hturn with
    | expire =>
      have hgoes := not_finished_of_canStep hready
      unfold stepsLeft
      cases hstage : probing.probe.stage with
      | finished result => exact absurd hstage (hgoes result)
      | starting | reading | granting | writing => simp
    | begin hstage | found hstage | miss hstage | create hstage | grant hstage | write hstage | unread hstage
    | ungranted hstage => simp [stepsLeft, hstage]

/-- A probe that has not ended takes a step once it has waited long enough, and not too long. -/
theorem exists_step (h : probing.stepsLeft ≠ 0) :
    ∃ millis next, probing.Alone [.wait millis, .step] ∧
      probing.run [.wait millis, .step] = some next ∧ next.stepsLeft < probing.stepsLeft := by
  obtain ⟨due, hdue⟩ : ∃ due, probing.probe.due = some due := by
    unfold stepsLeft at h
    unfold Probe.due Probe.answerDue
    split at h <;> simp_all
  set waited : Probing := { probing with clock := probing.clock + (due - probing.clock) } with hwaited
  have hready : waited.canStep = true := by
    simp [canStep, hwaited, hdue]
    omega
  have hstep : waited.after .step = some waited.step := by simp [after, hready]
  have hless : waited.step.stepsLeft < waited.stepsLeft := stepsLeft_lt_of_step hstep
  refine ⟨due - probing.clock, waited.step, ⟨?_, ?_⟩, ?_, hless⟩
  · intro due' hdue'
    obtain rfl : due = due' := Option.some.inj (hdue.symm.trans hdue')
    omega
  · intro mid _
    exact ⟨trivial, fun _ _ => trivial⟩
  · rw [run_cons]
    show waited.run [.step] = _
    rw [run_cons, hstep]
    rfl

/-- A probe that nobody disturbs comes to an end. -/
theorem exists_result (probing : Probing) : ∃ moves last result, probing.Alone moves ∧
    probing.run moves = some last ∧ last.probe.result? = some result := by
  induction hsteps : probing.stepsLeft using Nat.strong_induction_on generalizing probing with
  | _ steps ih =>
    by_cases hended : probing.stepsLeft = 0
    · obtain ⟨result, hresult⟩ := result?_of_stepsLeft hended
      exact ⟨[], probing, result, trivial, rfl, hresult⟩
    · obtain ⟨millis, next, halone, hrun, hless⟩ := exists_step hended
      obtain ⟨moves, last, result, hlater, hlast, hresult⟩ := ih _ (hsteps ▸ hless) next rfl
      refine ⟨_, last, result, halone.append hrun hlater, ?_, hresult⟩
      rw [run_append, hrun, Option.bind_some, hlast]

/-- Nothing comes after the end of a probe but time. -/
theorem ended_of_run {moves : List Move} (hended : probing.probe.result? = some result)
    (halone : probing.Alone moves) (hrun : probing.run moves = some next) :
    next.probe = probing.probe ∧ next.store = probing.store ∧ next.client = probing.client := by
  induction moves generalizing probing with
  | nil =>
    cases hrun
    exact ⟨rfl, rfl, rfl⟩
  | cons move moves ih =>
    rw [run_cons] at hrun
    obtain ⟨mid, hmid, hrest⟩ := Option.bind_eq_some_iff.1 hrun
    cases move with
    | step =>
      obtain ⟨due, hdue, -⟩ := of_after_step hmid
      unfold Probe.result? at hended
      unfold Probe.answerDue at hdue
      split at hended <;> simp_all
    | wait millis =>
      cases hmid
      have hkept := ih (by exact hended) (halone.2 _ rfl) hrest
      exact hkept
    | request | outage | closeStore => exact absurd halone.1 id

/-- A probe that still goes on is not beyond its limit. -/
theorem Course.clock_le (h : Course link root create limit probing)
    (hgoes : probing.probe.result? = none) : probing.clock ≤ link.clock + limit.ceilMillis := by
  cases h with
  | starting => exact Nat.le_add_right _ _
  | reading hclock | granting _ hclock | writing _ _ hclock => exact hclock.trans (Nat.min_le_right _ _)
  | finished => cases hgoes

theorem Course.spared (h : Course link root create limit probing)
    (hspared : (link.store.content.get? root).isSome ∨ create = false) : probing.store = link.store := by
  cases h with
  | starting | reading => rfl
  | granting hcreates | writing hcreates => exact absurd hspared hcreates.not_spared
  | finished hconcluded => exact hconcluded.spared hspared

theorem Course.concluded (h : Course link root create limit probing)
    (hended : probing.probe.result? = some result) :
    Concluded link root create limit result probing.store := by
  cases h with
  | finished hconcluded =>
    cases hended
    exact hconcluded
  | starting | reading | granting | writing => cases hended

end Probing

/-- A probe that nobody disturbs always comes to an end, at its limit at the latest. If what it finds out
takes it no longer than the limit, this is its result; otherwise the result is that its time is over, and
the store has granted the lease if that was done in time, and is as it was if not. The store stays as it is
where the root key exists or must not be created. A probe that succeeds without having found the root key
has put the empty value there, tied to a lease that it was granted for ten seconds, and has touched no other
key. Once the probe has ended it sends no request, and nothing that it has sent is carried out. -/
theorem probe_keeps_limit {link : Link} {root : String} {create : Bool} {limit : Duration}
    {moves : List Probing.Move} {probing : Probing} (hget : link.client.faults.Genuine .get)
    (hgrant : link.client.faults.Genuine .grant) (hput : link.client.faults.Genuine .put)
    (halone : (Probing.start link root create limit).Alone moves)
    (hrun : (Probing.start link root create limit).run moves = some probing) :
    (∃ later last result, probing.Alone later ∧ probing.run later = some last ∧
      last.probe.result? = some result) ∧
    (link.clock + limit.ceilMillis < probing.clock → ∃ result, probing.probe.result? = some result) ∧
    ((link.store.content.get? root).isSome ∨ create = false → probing.store = link.store) ∧
    ∀ result, probing.probe.result? = some result →
      (result = if (link.finding root create).1 ≤ link.clock + limit.ceilMillis then
          (link.finding root create).2 else .error (.timeout limit)) ∧
      (link.clock + limit.ceilMillis < (link.finding root create).1 →
        if link.grantedAt ≤ link.clock + limit.ceilMillis then
          ∃ lease, link.store.grant 10 = .ok (lease, probing.store)
        else probing.store = link.store) ∧
      (result = .ok () → link.store.content.get? root = none → create = true ∧ ∃ lease granted,
        link.store.grant 10 = .ok (lease, granted) ∧ probing.store.ttl? lease = some 10 ∧
        ∀ key, probing.store.content.get? key =
          if key = root then some ⟨"", some lease⟩ else link.store.content.get? key) ∧
      ∀ later last, probing.Alone later → probing.run later = some last →
        last.probe = probing.probe ∧ last.store = probing.store ∧ last.client = probing.client := by
  have hcourse := Probing.Course.starting.run hget hgrant hput halone hrun
  refine ⟨Probing.exists_result probing, fun hlate => ?_, hcourse.spared, fun result hended => ?_⟩
  · by_contra hgoes
    have hnone : probing.probe.result? = none := by
      simpa [Option.eq_none_iff_forall_ne_some] using hgoes
    exact absurd hlate (not_lt.2 (hcourse.clock_le hnone))
  · have hconcluded := hcourse.concluded hended
    refine ⟨hconcluded.result_eq, fun hlate => ?_, fun hok habsent => ?_,
      fun later last halone hlast => Probing.ended_of_run hended halone hlast⟩
    · have hstore := hconcluded.cut hlate
      split_ifs at hstore ⊢ with hgranted
      · have hcheck := Link.check_of_grantedAt_lt (hgranted.trans_lt hlate)
        exact ⟨_, hstore ▸ Store.grant_of_check hcheck 10⟩
      · exact hstore
    · obtain ⟨hcreate, hcheck, hstore⟩ := hconcluded.created hok habsent
      refine ⟨hcreate, _, _, Store.grant_of_check hcheck 10, ?_, fun key => ?_⟩
      · rw [hstore]
        exact Store.ttl?_leased _ 10
      · rw [hstore]
        exact Keyspace.get?_insert _ _ _ _

/-- A reading takes three milliseconds, a grant four and a writing five. -/
def slowness : Faults
  | .get => [⟨3, .plain, none⟩]
  | .grant => [⟨4, .plain, none⟩]
  | .put => [⟨5, .plain, none⟩]
  | _ => []

theorem genuine_slowness (m : Method) : slowness.Genuine m := by
  intro fault hfault answer
  cases m <;> simp_all [slowness]

/-- A client of an empty store that is slow to answer. -/
def slowLink : Link := ⟨0, .empty, ⟨[], slowness⟩⟩

/-- A probe whose time is over while it waits for the key to be written. -/
def cutProbe : List Probing.Move := [.step, .wait 3, .step, .wait 4, .step, .wait 3, .step]

/-- The lease stays, and the root key is not there. -/
theorem probe_keeps_limit_cut :
    slowLink.client.faults.Genuine .get ∧ slowLink.client.faults.Genuine .grant ∧
    slowLink.client.faults.Genuine .put ∧
    (Probing.start slowLink "svc" true (Duration.ofMillis 10)).Alone cutProbe ∧
    ∃ probing, (Probing.start slowLink "svc" true (Duration.ofMillis 10)).run cutProbe = some probing ∧
      probing.probe.result? = some (.error (.timeout (Duration.ofMillis 10))) ∧
      (∃ lease, slowLink.store.grant 10 = .ok (lease, probing.store)) ∧
      probing.store.content.get? "svc" = none := by
  have halone : (Probing.start slowLink "svc" true (Duration.ofMillis 10)).Alone cutProbe := by
    decide +kernel
  have hrun : (Probing.start slowLink "svc" true (Duration.ofMillis 10)).run cutProbe = some
      (((Probing.start slowLink "svc" true (Duration.ofMillis 10)).run cutProbe).get rfl) :=
    (Option.some_get _).symm
  obtain ⟨-, -, -, hended⟩ := probe_keeps_limit (genuine_slowness .get) (genuine_slowness .grant)
    (genuine_slowness .put) halone hrun
  obtain ⟨-, hcut, -⟩ := hended _ rfl
  exact ⟨genuine_slowness .get, genuine_slowness .grant, genuine_slowness .put, halone, _, hrun, rfl,
    hcut (by decide), rfl⟩

end ServiceRegistry
