import ServiceRegistry.Proofs.Registry.Attachment
import ServiceRegistry.Proofs.Registry.Handling

/-!
# A registration at a healthy store

A store that answers, with no fault in front of it, carries out all that a registration asks for: it grants
a lease, has the key attached to it and opens the stream of renewals. So where nothing is registered and
nobody is at the registrar, a call to register an instance takes its steps one after the other, waits for
nothing and succeeds.
-/
namespace ServiceRegistry

namespace Store

variable {store : Store} (hcheck : store.check = .ok ())
include hcheck

/-- A store that answers grants a lease, which is live then. -/
theorem serve_grant (clock : Nat) (ttl : Int) :
    ∃ after, store.serve clock (.grant ttl) = .ok ((⟨store.granted + 1⟩ : LeaseId), after) ∧
      after.check = .ok () ∧ after.isLive ⟨store.granted + 1⟩ = true :=
  ⟨_, serve_grant_of_check hcheck clock ttl, hcheck, isLive_leased _ _⟩

/-- It attaches the key of an instance to a live lease. -/
theorem serve_put (clock : Nat) (key : EndpointKey) {lease : LeaseId}
    (hlive : store.isLive lease = true) :
    ∃ after, store.serve clock (.put key.text key.descriptor (some lease)) = .ok ((), after) ∧
      after.check = .ok () ∧ after.Carries key lease := by
  refine ⟨_, serve_put_of_check hcheck clock _ _ hlive, ?_, ?_, hlive⟩
  · rw [check_written, hcheck]
  · rw [written, Keyspace.get?_insert, if_pos rfl]

/-- It opens the stream of renewals of a live lease. -/
theorem serve_keepAlive (clock : Nat) (interval : Duration) {lease : LeaseId}
    (hlive : store.isLive lease = true) :
    ∃ renewals : Renewals, store.serve clock (.keepAlive lease interval) = .ok (renewals, store) := by
  obtain ⟨ttl, httl⟩ := Option.isSome_iff_exists.1 hlive
  refine ⟨.live (Renewal.start lease ttl clock interval), ?_⟩
  simp only [serve, keepAlive_of_check hcheck httl]
  rfl

end Store

/-- The store answers, and what a registration has to ask for meets no fault. -/
structure Link.Healthy (link : Link) : Prop where
  answers : link.store.check = .ok ()
  grants : link.client.faults .grant = []
  puts : link.client.faults .put = []
  renews : link.client.faults .keepAlive = []

namespace Link

variable {link : Link} {m : Method}

/-- A request that meets no fault is answered at once. -/
theorem send_of_nil (h : link.client.faults m = []) (request : Request m) :
    link.send request = (⟨request, .plain, link.clock⟩, link.sent request) := by
  simp [send_eq, Faults.treatment, Faults.delay, h]

/-- Where no fault is left, none comes back. -/
theorem Healthy.sent (h : link.Healthy) (request : Request m) : (link.sent request).Healthy := by
  have hspent : ∀ other, link.client.faults other = [] →
      (link.sent request).client.faults other = [] := by
    intro other hnone
    show link.client.faults.spend m other = []
    rw [Faults.spend]
    split
    · rw [hnone]
      rfl
    · exact hnone
  exact ⟨h.answers, hspent _ h.grants, hspent _ h.puts, hspent _ h.renews⟩

/-- The answer to a request that meets no fault and is carried out. -/
theorem receive_of_serve {request : Request m} {due : Nat} {answer : Answer m} {after : Store}
    (hserve : link.store.serve link.clock request = .ok (answer, after)) :
    link.receive ⟨request, .plain, due⟩ = (.ok answer, { link with store := after }) := by
  simp only [Link.receive, Link.serve, hserve]

end Link

/-- How a registration stands for which all goes well: nothing is registered when its turn comes, its
requests are answered at once, and the lease that it was granted is live. -/
def Registering.GoesWell (site : Site) (key : EndpointKey) : Registering → Prop
  | .queued => site.registry.registrar.active = none
  | .granting flight => ∃ ttl, flight = ⟨.grant ttl, .plain, site.clock⟩
  | .attaching lease flight =>
    flight = ⟨.put key.text key.descriptor (some lease), .plain, site.clock⟩ ∧
      site.store.isLive lease = true
  | .opening lease flight =>
    (∃ interval, flight = ⟨.keepAlive lease interval, .plain, site.clock⟩) ∧
      site.store.Carries key lease
  | .leaving outcome =>
    outcome = .ok () ∧ ∃ lease, site.registry.registrar.status = .registered key lease ∧
      site.store.Carries key lease
  | .replacing _ | .abandoning _ _ => False

namespace Site

/-- A registration goes well so far, at a healthy store. -/
structure GoesWell (site : Site) (who : Nat) (key : EndpointKey) (stage : Registering) : Prop where
  healthy : site.toLink.Healthy
  activity : site.registry.activities[who]? = some ⟨.registering key stage, false⟩
  head : site.registry.registrar.lock.holder? = some who
  stage : stage.GoesWell site key

section
variable {site : Site} {who : Nat} {key : EndpointKey} {stage : Registering}

/-- The step of an activity that goes well leads to a site at which it does. -/
theorem GoesWell.settled {mid : Site} {later : Registering} (hhealthy : mid.toLink.Healthy)
    (hactivity : mid.registry.activities[who]? = some ⟨.registering key stage, false⟩)
    (hhead : mid.registry.registrar.lock.holder? = some who) (hstage : later.GoesWell mid key) :
    (mid.settle who (.registering key later)).GoesWell who key later := by
  refine ⟨hhealthy, ?_, hhead, ?_⟩
  · simp [settle, mapRegistry, Registry.move, hactivity]
  · cases later <;> exact hstage

theorem send_of_nil {m : Method} (h : site.client.faults m = []) (request : Request m) :
    site.send request =
      (⟨request, .plain, site.clock⟩, { site with toLink := site.toLink.sent request }) := by
  simp only [send, Link.send_of_nil h]

theorem receive_of_serve {m : Method} {request : Request m} {due : Nat} {answer : Answer m}
    {after : Store} (hserve : site.store.serve site.clock request = .ok (answer, after)) :
    site.receive ⟨request, .plain, due⟩ = (.ok answer, { site with store := after }) := by
  simp only [receive, Link.receive_of_serve hserve]

/-- Its turn has come, and it asks for a lease. -/
theorem GoesWell.begin (h : site.GoesWell who key .queued) :
    ∃ flight, (site.step who).GoesWell who key (.granting flight) := by
  have hstep := step_of_activity h.activity
  simp only [stepFrom, stepRegistering, show site.registry.registrar.active = none from h.stage,
    startGranting, @send_of_nil (site.publish .registering) .grant h.healthy.grants] at hstep
  rw [hstep]
  exact ⟨_, .settled (h.healthy.sent _) h.activity h.head ⟨_, rfl⟩⟩

/-- It is granted a lease, and asks for its key to be attached to it. -/
theorem GoesWell.grant {flight : Flight .grant} (h : site.GoesWell who key (.granting flight)) :
    ∃ lease flight, (site.step who).GoesWell who key (.attaching lease flight) := by
  obtain ⟨ttl, rfl⟩ := h.stage
  obtain ⟨after, hserve, hcheck, hlive⟩ := Store.serve_grant h.healthy.answers site.clock ttl
  have hhealthy : Link.Healthy { site.toLink with store := after } :=
    ⟨hcheck, h.healthy.grants, h.healthy.puts, h.healthy.renews⟩
  have hstep := step_of_activity h.activity
  simp only [stepFrom, stepRegistering, receive_of_serve hserve,
    @send_of_nil { site with store := after } .put hhealthy.puts] at hstep
  rw [hstep]
  exact ⟨_, _, .settled (hhealthy.sent _) h.activity h.head ⟨rfl, hlive⟩⟩

/-- Its key is attached, and it asks for the stream of renewals. -/
theorem GoesWell.attach {lease : LeaseId} {flight : Flight .put}
    (h : site.GoesWell who key (.attaching lease flight)) :
    ∃ flight, (site.step who).GoesWell who key (.opening lease flight) := by
  obtain ⟨rfl, hlive⟩ := h.stage
  obtain ⟨after, hserve, hcheck, hcarries⟩ :=
    Store.serve_put h.healthy.answers site.clock key hlive
  have hhealthy : Link.Healthy { site.toLink with store := after } :=
    ⟨hcheck, h.healthy.grants, h.healthy.puts, h.healthy.renews⟩
  have hstep := step_of_activity h.activity
  simp only [stepFrom, stepRegistering, receive_of_serve hserve,
    @send_of_nil { site with store := after } .keepAlive hhealthy.renews] at hstep
  rw [hstep]
  exact ⟨_, .settled (hhealthy.sent _) h.activity h.head ⟨⟨_, rfl⟩, hcarries⟩⟩

/-- It is registered. -/
theorem GoesWell.register {lease : LeaseId} {flight : Flight .keepAlive}
    (h : site.GoesWell who key (.opening lease flight)) :
    (site.step who).GoesWell who key (.leaving (.ok ())) := by
  obtain ⟨⟨interval, rfl⟩, hcarries⟩ := h.stage
  obtain ⟨renewals, hserve⟩ :=
    Store.serve_keepAlive h.healthy.answers site.clock interval hcarries.2
  have hlt := (List.getElem?_eq_some_iff.1 h.activity).1
  have hstep := step_of_activity h.activity
  simp only [stepFrom, stepRegistering, receive_of_serve hserve] at hstep
  rw [hstep]
  exact .settled h.healthy ((List.getElem?_append_left hlt).trans h.activity) h.head
    ⟨rfl, lease, rfl, hcarries⟩

/-- It leaves the registrar. -/
theorem GoesWell.leave {outcome : Except Error Unit} (h : site.GoesWell who key (.leaving outcome)) :
    (site.step who).progress? who = some (.finished (.ok .done)) ∧
      ∃ lease, (site.step who).registry.registrar.status = .registered key lease ∧
        (site.step who).store.Carries key lease := by
  obtain ⟨rfl, hregistered⟩ := h.stage
  have hstep := step_of_activity h.activity
  simp only [stepFrom, stepRegistering] at hstep
  rw [hstep]
  exact ⟨progress?_settle_self (site.frame_releaseRegistrar) _ (progress?_of_activity h.activity),
    hregistered⟩

/-- It need not wait for its next step. -/
theorem GoesWell.canStep (h : site.GoesWell who key stage) : site.canStep who = true := by
  obtain ⟨time, hdue, hle⟩ : ∃ time, site.dueFrom who (.registering key stage) = some time ∧
      time ≤ site.clock := by
    cases stage with
    | queued => exact ⟨0, if_pos h.head, Nat.zero_le _⟩
    | granting flight =>
      obtain ⟨ttl, rfl⟩ := h.stage
      exact ⟨_, rfl, le_rfl⟩
    | attaching lease flight =>
      obtain ⟨rfl, -⟩ := h.stage
      exact ⟨_, rfl, le_rfl⟩
    | opening lease flight =>
      obtain ⟨⟨interval, rfl⟩, -⟩ := h.stage
      exact ⟨_, rfl, le_rfl⟩
    | leaving outcome => exact ⟨0, rfl, Nat.zero_le _⟩
    | replacing | abandoning => exact h.stage.elim
  exact canStep_of_due h.activity hdue hle

/-- It comes nearer to its end with each step until it leaves the registrar. -/
theorem GoesWell.goes_on (h : site.GoesWell who key stage) :
    (∃ outcome, stage = .leaving outcome) ∨
      ∃ later, (site.step who).GoesWell who key later ∧
        (Progress.registering key later).left < (Progress.registering key stage).left := by
  cases stage with
  | queued =>
    obtain ⟨flight, hnext⟩ := h.begin
    exact .inr ⟨_, hnext, by simp [Progress.left]⟩
  | granting =>
    obtain ⟨lease, flight, hnext⟩ := h.grant
    exact .inr ⟨_, hnext, by simp [Progress.left]⟩
  | attaching =>
    obtain ⟨flight, hnext⟩ := h.attach
    exact .inr ⟨_, hnext, by simp [Progress.left]⟩
  | opening => exact .inr ⟨_, h.register, by simp [Progress.left]⟩
  | leaving outcome => exact .inl ⟨outcome, rfl⟩
  | replacing | abandoning => exact h.stage.elim

/-- Its own steps are all that it needs to succeed. -/
theorem GoesWell.succeeds (h : site.GoesWell who key stage) :
    ∃ count last lease, site.run (List.replicate count (.step who)) = some last ∧
      last.progress? who = some (.finished (.ok .done)) ∧
      last.registry.registrar.status = .registered key lease ∧ last.store.Carries key lease := by
  induction hleft : (Progress.registering key stage).left using Nat.strong_induction_on
    generalizing site stage with
  | _ left ih =>
    subst hleft
    have hmove : site.after (.step who) = some (site.step who) := if_pos h.canStep
    rcases h.goes_on with ⟨outcome, rfl⟩ | ⟨later, hlater, hless⟩
    · obtain ⟨hfinished, lease, hregistered, hcarries⟩ := h.leave
      exact ⟨1, _, lease, run_step h.canStep, hfinished, hregistered, hcarries⟩
    · obtain ⟨count, last, lease, hrun, hlast⟩ := ih _ hless hlater rfl
      refine ⟨count + 1, last, lease, ?_, hlast⟩
      rw [List.replicate_succ, run_cons, hmove]
      exact hrun

/-- A call comes to the registrar, and its turn has come at once. -/
theorem GoesWell.come {service host : String} {port : Nat} (hhealthy : site.toLink.Healthy)
    (hactivity : site.registry.activities[who]? = some ⟨.calling (.register service host port), false⟩)
    (hopen : site.registry.closed = false) (hnone : site.registry.registrar.active = none)
    (hfree : site.registry.registrar.lock = .free)
    (hkey : EndpointKey.make site.registry.config.root service host port = .ok key) :
    (site.step who).GoesWell who key .queued := by
  have hensure : site.registry.ensureOpen = .ok () := by
    rw [Registry.ensureOpen, hopen]
    rfl
  have hstep := step_of_activity hactivity
  simp only [stepFrom, stepCalling, hensure, hkey] at hstep
  rw [hstep]
  refine ⟨hhealthy, ?_, ?_, hnone⟩
  · simp [settle, enterRegistrar, mapRegistrar, mapRegistry, Registry.move, hactivity]
  · simp [settle, enterRegistrar, mapRegistrar, mapRegistry, Registry.move, hfree, Lock.enter,
      Lock.holder?]

end

/-- Where the registry is open, nothing is registered, nobody is at the registrar and the store is healthy,
a call to register an instance under a valid key succeeds by its own steps. -/
theorem register_succeeds {site : Site} (hopen : site.registry.closed = false)
    (hnone : site.registry.registrar.active = none) (hfree : site.registry.registrar.lock = .free)
    (hhealthy : site.toLink.Healthy) {service host : String} {port : Nat} {key : EndpointKey}
    (hkey : EndpointKey.make site.registry.config.root service host port = .ok key) :
    ∃ count last lease, site.run (.call (.register service host port) ::
        List.replicate count (.step site.registry.activities.length)) = some last ∧
      last.progress? site.registry.activities.length = some (.finished (.ok .done)) ∧
      last.registry.registrar.status = .registered key lease ∧ last.store.Carries key lease := by
  let called := site.mapRegistry fun registry =>
    registry.begin (.calling (.register service host port))
  have hcall : site.after (.call (.register service host port)) = some called := rfl
  have hactivity : called.registry.activities[site.registry.activities.length]? =
      some ⟨.calling (.register service host port), false⟩ := by
    simp [called, mapRegistry, Registry.begin, Activity.begin]
  have hready : called.canStep site.registry.activities.length = true :=
    canStep_of_due hactivity rfl (Nat.zero_le _)
  have hwell := @GoesWell.come called _ _ _ _ _ hhealthy hactivity hopen hnone hfree hkey
  obtain ⟨count, last, lease, hrun, hlast⟩ := hwell.succeeds
  refine ⟨count + 1, last, lease, ?_, hlast⟩
  rw [run_cons, hcall, Option.bind_some, List.replicate_succ, run_cons, Site.after, if_pos hready]
  exact hrun

end Site

end ServiceRegistry
