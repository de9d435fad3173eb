import ServiceRegistry.Client
import ServiceRegistry.Proofs.Store.Leases

/-!
# Answers to a client

Sending a request changes nothing in the store, and taking its answer is at most one request that
the store carries out. A method is genuine for a client if none of its faults gives an answer in
place of the store; an answer to a genuine request is then the store's own, and every other one is
an error.
-/
namespace ServiceRegistry

/-- No fault of the method answers in place of the store. -/
def Faults.Genuine (faults : Faults) (m : Method) : Prop :=
  ∀ fault ∈ faults m, ∀ answer, fault.treatment ≠ .canned answer

/-- The request is not answered in place of the store. -/
def Flight.Genuine {m : Method} (flight : Flight m) : Prop :=
  ∀ answer, flight.treatment ≠ .canned answer

namespace Faults

theorem genuine_none (m : Method) : none.Genuine m := by
  intro fault hfault
  cases hfault

/-- A fault that gives no answer can be added. -/
theorem Genuine.add {faults : Faults} {m other : Method} (h : faults.Genuine m) {fault : Fault other}
    (hfault : ∀ answer, fault.treatment ≠ .canned answer) : (faults.add fault).Genuine m := by
  intro added hadded answer
  unfold Faults.add at hadded
  split at hadded
  · rename_i hsame
    subst hsame
    rcases List.mem_append.1 hadded with hbefore | hlast
    · exact h added hbefore answer
    · rw [List.mem_singleton.1 hlast]
      exact hfault answer
  · exact h added hadded answer

theorem treatment_of_mem_spent {m : Method} {fault : Fault m} {faults : List (Fault m)}
    (h : fault ∈ spent faults) : ∃ other ∈ faults, other.treatment = fault.treatment := by
  cases faults with
  | nil => cases h
  | cons first rest =>
    simp only [spent] at h
    split at h
    · split at h
      · exact ⟨fault, List.mem_cons_of_mem _ h, rfl⟩
      · rcases List.mem_cons.1 h with rfl | h
        · exact ⟨first, List.mem_cons_self, rfl⟩
        · exact ⟨fault, List.mem_cons_of_mem _ h, rfl⟩
    · exact ⟨fault, h, rfl⟩

/-- All faults of the later list were there before, whatever use was made of them. -/
def Leaves (before after : Faults) : Prop :=
  ∀ m, ∀ fault ∈ after m, ∃ former ∈ before m, former.treatment = fault.treatment

theorem Leaves.refl (faults : Faults) : faults.Leaves faults := fun _ fault h => ⟨fault, h, rfl⟩

theorem Leaves.trans {first second third : Faults} (h : first.Leaves second)
    (h' : second.Leaves third) : first.Leaves third := by
  intro m fault hfault
  obtain ⟨former, hformer, htreatment⟩ := h' m fault hfault
  obtain ⟨origin, horigin, hsame⟩ := h m former hformer
  exact ⟨origin, horigin, hsame.trans htreatment⟩

theorem leaves_spend (faults : Faults) (m : Method) : faults.Leaves (faults.spend m) := by
  intro other fault hfault
  unfold Faults.spend at hfault
  split at hfault
  · exact treatment_of_mem_spent hfault
  · exact ⟨fault, hfault, rfl⟩

theorem Genuine.of_leaves {before after : Faults} {m : Method} (h : before.Genuine m)
    (hleaves : before.Leaves after) : after.Genuine m := by
  intro fault hfault answer
  obtain ⟨former, hformer, htreatment⟩ := hleaves m fault hfault
  exact htreatment ▸ h former hformer answer

end Faults

/-- The request meets no fault, or one of the faults. -/
def Flight.Meets {m : Method} (flight : Flight m) (faults : Faults) : Prop :=
  flight.treatment = .plain ∨ ∃ fault ∈ faults m, fault.treatment = flight.treatment

theorem Flight.Meets.of_leaves {m : Method} {flight : Flight m} {before after : Faults}
    (h : flight.Meets after) (hleaves : before.Leaves after) : flight.Meets before := by
  rcases h with hplain | ⟨fault, hfault, htreatment⟩
  · exact .inl hplain
  · obtain ⟨former, hformer, hsame⟩ := hleaves m fault hfault
    exact .inr ⟨former, hformer, hsame.trans htreatment⟩

theorem Flight.Meets.genuine {m : Method} {flight : Flight m} {faults : Faults}
    (h : flight.Meets faults) (hgenuine : faults.Genuine m) : flight.Genuine := by
  intro answer htreatment
  rcases h with hplain | ⟨fault, hfault, hsame⟩
  · rw [hplain] at htreatment
    cases htreatment
  · exact hgenuine fault hfault answer (hsame.trans htreatment)

namespace Faults

/-- How the next request by the method is treated. -/
def treatment (faults : Faults) (m : Method) : Treatment m :=
  ((faults m).head?.map fun fault => fault.treatment).getD .plain

/-- Milliseconds before the next request by the method is treated. -/
def delay (faults : Faults) (m : Method) : Nat :=
  ((faults m).head?.map fun fault => fault.delay).getD 0

@[simp] theorem treatment_spend {m other : Method} (faults : Faults) (h : other ≠ m) :
    (faults.spend m).treatment other = faults.treatment other := by
  simp [treatment, spend, h]

@[simp] theorem delay_spend {m other : Method} (faults : Faults) (h : other ≠ m) :
    (faults.spend m).delay other = faults.delay other := by
  simp [delay, spend, h]

end Faults

namespace Link

variable {m : Method} (link : Link)

/-- The link after a request was sent. -/
def sent (link : Link) (request : Request m) : Link :=
  { link with client :=
    { (link.client.record (.request request)) with faults := link.client.faults.spend m } }

theorem send_eq (request : Request m) : link.send request =
    (⟨request, link.client.faults.treatment m, link.clock + link.client.faults.delay m⟩,
      link.sent request) := by
  unfold send
  split <;> simp_all [Faults.treatment, Faults.delay, sent]

@[simp] theorem store_send (request : Request m) : (link.send request).2.store = link.store := by
  unfold send
  split <;> rfl

@[simp] theorem clock_send (request : Request m) : (link.send request).2.clock = link.clock := by
  unfold send
  split <;> rfl

@[simp] theorem request_send (request : Request m) : (link.send request).1.request = request := by
  unfold send
  split <;> rfl

theorem faults_send (request : Request m) :
    (link.send request).2.client.faults = link.client.faults.spend m := by
  unfold send
  split <;> rfl

theorem genuine_send {link : Link} (h : link.client.faults.Genuine m) (request : Request m) :
    (link.send request).1.Genuine := by
  intro answer
  unfold send
  split
  · exact nofun
  · rename_i fault rest hfaults
    exact h fault (hfaults ▸ List.mem_cons_self) answer

theorem meets_send (request : Request m) : (link.send request).1.Meets link.client.faults := by
  unfold send
  split
  · exact .inl rfl
  · rename_i fault rest hfaults
    exact .inr ⟨fault, hfaults ▸ List.mem_cons_self, rfl⟩

@[simp] theorem client_serve (request : Request m) : (link.serve request).2.client = link.client := by
  unfold serve
  split <;> rfl

@[simp] theorem client_receive (flight : Flight m) :
    (link.receive flight).2.client = link.client := by
  unfold receive
  split
  · exact link.client_serve _
  · rfl
  · split
    · rename_i answer after hserve
      exact (congrArg (fun served => served.2.client) hserve).symm.trans (link.client_serve _)
    · exact link.client_serve _
  · rfl

@[simp] theorem clock_receive (flight : Flight m) :
    (link.receive flight).2.clock = link.clock := by
  unfold receive serve
  split
  · split <;> rfl
  · rfl
  · cases link.store.serve link.clock flight.request <;> rfl
  · rfl

/-- A genuine request that is answered was carried out by the store. -/
theorem serve_of_receive {link after : Link} {flight : Flight m} {answer : Answer m}
    (hgenuine : flight.Genuine) (h : link.receive flight = (.ok answer, after)) :
    link.store.serve link.clock flight.request = .ok (answer, after.store) := by
  unfold receive at h
  split at h
  · unfold serve at h
    split at h
    · rename_i given store hserve
      cases h
      exact hserve
    · cases h
  · cases h
  · split at h
    · cases h
    · rename_i hlost
      exact absurd h (hlost _ _)
  · rename_i given htreatment
    exact absurd htreatment (hgenuine given)

/-- A request that is answered was carried out, or has failed in the store, or has not got there. -/
theorem receive_cases (flight : Flight m) :
    (∃ answer after, link.store.serve link.clock flight.request = .ok (answer, after) ∧
      (link.receive flight).2.store = after) ∨
    (link.receive flight).2.store = link.store ∧
      ((∃ e, link.store.serve link.clock flight.request = .error e ∧
          (link.receive flight).1 = .error e) ∨
        (∃ e, flight.treatment = .refused e ∧ (link.receive flight).1 = .error e) ∨
        ∃ answer, flight.treatment = .canned answer) := by
  unfold receive serve
  cases htreatment : flight.treatment with
  | plain =>
    cases hserve : link.store.serve link.clock flight.request with
    | ok result => exact .inl ⟨result.1, result.2, rfl, rfl⟩
    | error e => exact .inr ⟨rfl, .inl ⟨e, rfl, rfl⟩⟩
  | refused e => exact .inr ⟨rfl, .inr (.inl ⟨e, rfl, rfl⟩)⟩
  | lost e =>
    cases hserve : link.store.serve link.clock flight.request with
    | ok result => exact .inl ⟨result.1, result.2, rfl, rfl⟩
    | error e => exact .inr ⟨rfl, .inl ⟨e, rfl, rfl⟩⟩
  | canned answer => exact .inr ⟨rfl, .inr (.inr ⟨answer, rfl⟩)⟩

/-- The store serves a request that is answered, or is not reached by it. -/
theorem served_of_receive (flight : Flight m) :
    (link.receive flight).2.store = link.store ∨
      ∃ answer, link.store.Served flight.request answer (link.receive flight).2.store := by
  rcases link.receive_cases flight with ⟨answer, after, hserve, hstore⟩ | ⟨hsame, -⟩
  · exact .inr ⟨answer, hstore ▸ Store.served_of_serve hserve⟩
  · exact .inl hsame

end Link

/-- Whether the store carries out a request on its way. -/
def Link.carriesOut (link : Link) {m : Method} (flight : Flight m) : Bool :=
  match flight.treatment with
  | .plain | .lost _ => (link.store.serve link.clock flight.request).isOk
  | .refused _ | .canned _ => false

theorem Link.receive_of_carriesOut {link : Link} {m : Method} {flight : Flight m}
    (h : link.carriesOut flight = true) : ∃ answer after,
      link.store.serve link.clock flight.request = .ok (answer, after) ∧
        (link.receive flight).2.store = after := by
  unfold carriesOut at h
  unfold receive serve
  cases hserve : link.store.serve link.clock flight.request with
  | ok result =>
    refine ⟨result.1, result.2, rfl, ?_⟩
    cases htreatment : flight.treatment with
    | plain | lost => rfl
    | refused | canned =>
      rw [htreatment] at h
      cases h
  | error e =>
    rw [hserve] at h
    split at h <;> cases h

theorem Link.receive_of_not_carriesOut {link : Link} {m : Method} {flight : Flight m}
    (h : link.carriesOut flight = false) : (link.receive flight).2.store = link.store := by
  unfold carriesOut at h
  unfold receive serve
  cases htreatment : flight.treatment with
  | plain | lost =>
    simp only [htreatment] at h
    cases hserve : link.store.serve link.clock flight.request with
    | ok result =>
      rw [hserve] at h
      cases h
    | error e => rfl
  | refused | canned => rfl

end ServiceRegistry
