import ServiceRegistry.Proofs.Registry.Health
import ServiceRegistry.Proofs.Registry.Presence

/-!
# A registration that fails

A call to register an instance fails in one of two ways. It is turned away before it has asked the store
for anything, and then it has touched nothing. Or a request that has to succeed is answered with an error,
whatever the store has made of it, and then the call gives back the lease that it was granted, with all
that is attached to it, and leaves nothing registered. `Attempt` says how far a call has come and what it
has done by then, and each move of its own and of others leads on.
-/
namespace ServiceRegistry

/-- Why a call to register an instance does not get it registered. -/
inductive Setback where
  /-- The call is turned away before it asks the store for anything. -/
  | turnedAway (e : Error)
  /-- A request that has to succeed is answered with an error. -/
  | failed (e : Error)
  deriving DecidableEq

namespace Setback

def error : Setback → Error
  | turnedAway e | failed e => e

/-- What the answer to a request that has to succeed is to the call. -/
def ofAnswer {α : Type} : Except Error α → Option Setback
  | .ok _ => none
  | .error e => some (.failed e)

end Setback

namespace Site

/-- The setback that a call to register meets with its next step from a point, if any. The answer to a
revocation is none, whatever it is. -/
def setbackAt? (site : Site) : Progress → Option Setback
  | .calling (.register service host port) =>
    match site.registry.ensureOpen, EndpointKey.make site.registry.config.root service host port with
    | .error e, _ | .ok _, .error e => some (.turnedAway e)
    | .ok _, .ok _ => none
  | .registering _ .queued =>
    site.registry.registrar.active.bind fun current =>
      if site.registry.registrar.status.isLost then none
      else some (.turnedAway (.alreadyRegistered current.key.text))
  | .registering _ (.granting flight) => Setback.ofAnswer (site.receive flight).1
  | .registering _ (.attaching _ flight) => Setback.ofAnswer (site.receive flight).1
  | .registering _ (.opening _ flight) => Setback.ofAnswer (site.receive flight).1
  | _ => none

/-- The setback that an activity meets with a move. -/
def setback? (site : Site) (who : Nat) : Move → Option Setback
  | .step other => if other = who then (site.progress? who).bind site.setbackAt? else none
  | _ => none

/-- The store is neither asked for anything nor made to answer, and what is registered and the status stay
as they are. -/
def Quiet (before after : Site) : Prop :=
  before.Unmoved after ∧ after.registry.registrar.active = before.registry.registrar.active

end Site

/-! ## What is told of a call -/

/-- The setbacks that an activity has met, in their order. -/
def setbacks (who : Nat) (past : List (Site × Move)) : List Setback :=
  past.filterMap fun entry => entry.1.setback? who entry.2

/-- No step of the activity has asked the store for anything or changed the registration. -/
def AsksNothing (who : Nat) (past : List (Site × Move)) : Prop :=
  ∀ site, (site, .step who) ∈ past → site.Quiet (site.step who)

/-- The activity was granted the lease and has been told so. -/
def GrantedTo (who : Nat) (past : List (Site × Move)) (lease : LeaseId) : Prop :=
  ∃ site, (site, .step who) ∈ past ∧ site.Grants who lease

/-- The revocation gets to the store, which carries it out or does not find the lease. -/
def Link.Reaches (link : Link) (flight : Flight .revoke) : Prop :=
  (flight.treatment = .plain ∨ ∃ e, flight.treatment = .lost e) ∧ link.store.check = .ok ()

/-- A revocation that is carried out has got to the store. -/
theorem Link.reaches_of_carriesOut {link : Link} {flight : Flight .revoke}
    (h : link.carriesOut flight = true) : link.Reaches flight := by
  have hcheck : link.store.check = .ok () := by
    obtain ⟨answer, after, hserve, -⟩ := Link.receive_of_carriesOut h
    cases hrequest : flight.request with
    | revoke lease =>
      rw [hrequest] at hserve
      cases hcheck : link.store.check with
      | ok => rfl
      | error e =>
        simp only [Store.serve, Store.revoke, hcheck] at hserve
        cases hserve
  refine ⟨?_, hcheck⟩
  unfold carriesOut at h
  cases htreatment : flight.treatment with
  | plain => exact .inl rfl
  | lost e => exact .inr ⟨e, rfl⟩
  | refused | canned =>
    rw [htreatment] at h
    cases h

/-- The lease that a registration gives back when it fails gets to the store to be revoked. -/
def GivesBack (who : Nat) (past : List (Site × Move)) : Prop :=
  ∀ site key cause flight, (site, .step who) ∈ past →
    site.progress? who = some (.registering key (.abandoning cause flight)) →
      site.toLink.Reaches flight

/-- Whether a revocation by which an activity gives a lease back is carried out. -/
def Site.undoes (site : Site) (who : Nat) : Bool :=
  match site.progress? who with
  | some (.registering _ (.abandoning _ flight)) => site.toLink.carriesOut flight
  | _ => true

theorem givesBack_of_undoes {who : Nat} {past : List (Site × Move)}
    (h : ∀ entry ∈ past, entry.1.undoes who = true) : GivesBack who past := by
  intro site key cause flight hmem hprogress
  have hcarries := h _ hmem
  simp only [Site.undoes, hprogress] at hcarries
  exact Link.reaches_of_carriesOut hcarries

/-- The activity has replaced a registration whose lease was lost. -/
def Replaced (who : Nat) (past : List (Site × Move)) (lost : LeaseId) : Prop :=
  ∃ site key flight former, (site, .step who) ∈ past ∧
    site.progress? who = some (.registering key (.replacing flight)) ∧
      site.registry.registrar.status = .lost former lost

/-- Nobody but the activity has changed what stands under the key. -/
def LeftAlone (who : Nat) (past : List (Site × Move)) (text : String) : Prop :=
  ∀ site move after, (site, move) ∈ past → move ≠ .step who → site.after move = some after →
    after.store.content.get? text = site.store.content.get? text

/-- Whether the move is a step of the activity or makes a call. -/
def Move.isOf (who : Nat) : Move → Bool
  | .step other => other == who
  | .call _ => true
  | _ => false

theorem leftAlone_of_isOf {who : Nat} {past : List (Site × Move)} {text : String}
    (h : ∀ entry ∈ past, entry.2.isOf who = true) : LeftAlone who past text := by
  intro site move after hmem hother hmove
  have hours := h _ hmem
  cases move with
  | step other => exact absurd (by rw [beq_iff_eq.1 hours]) hother
  | call =>
    cases hmove
    rfl
  | _ => cases hours

section
variable {who : Nat} {past : List (Site × Move)} {site : Site} {move : Move} {lease : LeaseId}

theorem setbacks_append : setbacks who (past ++ [(site, move)]) =
    setbacks who past ++ (site.setback? who move).toList := by
  simp only [setbacks, List.filterMap_append, List.filterMap_cons, List.filterMap_nil]
  cases site.setback? who move <;> rfl

theorem setbacks_other (hother : move ≠ .step who) :
    setbacks who (past ++ [(site, move)]) = setbacks who past := by
  have hnone : site.setback? who move = none := by
    cases move with
    | step other => exact if_neg fun he => hother (by rw [he])
    | _ => rfl
  rw [setbacks_append, hnone]
  simp

theorem setbacks_own {progress : Progress} (hprogress : site.progress? who = some progress) :
    setbacks who (past ++ [(site, .step who)]) =
      setbacks who past ++ (site.setbackAt? progress).toList := by
  rw [setbacks_append, Site.setback?, if_pos rfl, hprogress]
  rfl

theorem mem_of_other {early : Site} (hother : move ≠ .step who)
    (h : (early, Move.step who) ∈ past ++ [(site, move)]) : (early, Move.step who) ∈ past := by
  rcases List.mem_append.1 h with hbefore | hlast
  · exact hbefore
  · cases List.mem_singleton.1 hlast
    exact absurd rfl hother

theorem AsksNothing.other (h : AsksNothing who past) (hother : move ≠ .step who) :
    AsksNothing who (past ++ [(site, move)]) :=
  fun early hmem => h early (mem_of_other hother hmem)

theorem AsksNothing.own (h : AsksNothing who past) (hquiet : site.Quiet (site.step who)) :
    AsksNothing who (past ++ [(site, .step who)]) := by
  intro early hmem
  rcases List.mem_append.1 hmem with hbefore | hlast
  · exact h early hbefore
  · cases List.mem_singleton.1 hlast
    exact hquiet

theorem GrantedTo.append (h : GrantedTo who past lease) (later : List (Site × Move)) :
    GrantedTo who (past ++ later) lease := by
  obtain ⟨early, hmem, hgrants⟩ := h
  exact ⟨early, List.mem_append_left _ hmem, hgrants⟩

theorem GrantedTo.of_other (h : GrantedTo who (past ++ [(site, move)]) lease)
    (hother : move ≠ .step who) : GrantedTo who past lease := by
  obtain ⟨early, hmem, hgrants⟩ := h
  exact ⟨early, mem_of_other hother hmem, hgrants⟩

theorem GrantedTo.of_own (h : GrantedTo who (past ++ [(site, .step who)]) lease) :
    GrantedTo who past lease ∨ site.Grants who lease := by
  obtain ⟨early, hmem, hgrants⟩ := h
  rcases List.mem_append.1 hmem with hbefore | hlast
  · exact .inl ⟨early, hbefore, hgrants⟩
  · cases List.mem_singleton.1 hlast
    exact .inr hgrants

theorem GivesBack.of_append {later : List (Site × Move)} (h : GivesBack who (past ++ later)) :
    GivesBack who past :=
  fun early key cause flight hmem => h early key cause flight (List.mem_append_left _ hmem)

theorem Replaced.append (h : Replaced who past lease) (later : List (Site × Move)) :
    Replaced who (past ++ later) lease := by
  obtain ⟨early, key, flight, former, hmem, hreplaces⟩ := h
  exact ⟨early, key, flight, former, List.mem_append_left _ hmem, hreplaces⟩

theorem LeftAlone.of_append {text : String} {later : List (Site × Move)}
    (h : LeftAlone who (past ++ later) text) : LeftAlone who past text :=
  fun early moved after hmem => h early moved after (List.mem_append_left _ hmem)

end

/-! ## How far a call has come -/

namespace Progress

/-- The error with which a call to register is to end or has ended. -/
def verdict? : Progress → Option Error
  | .registering _ (.abandoning cause _) => some cause
  | .registering _ (.leaving (.error e)) => some e
  | .finished (.error e) => some e
  | _ => none

/-- Whether a call has not had its turn at the registrar. -/
def isComing : Progress → Bool
  | .calling _ | .registering _ .queued => true
  | _ => false

/-- The lease that a registration was granted and has to keep or to give back. -/
def owed? : Progress → Option LeaseId
  | .registering _ (.attaching lease _) => some lease
  | .registering _ (.opening lease _) => some lease
  | .registering _ (.abandoning _ flight) => some flight.request.revoked
  | _ => none

/-- Whether the call has got its instance registered. -/
def isDone : Progress → Bool
  | .registering _ (.leaving (.ok _)) | .finished (.ok _) => true
  | _ => false

end Progress

namespace Site

/-- How far a call to register has come since it was made at an early site, and what it has done. -/
structure Attempt (early : Site) (who : Nat) (service host : String) (port : Nat)
    (past : List (Site × Move)) (site : Site) (progress : Progress) : Prop where
  met : site.progress? who = some progress
  registers : progress.Registers early.registry.config.root service host port
  grown : early.store.granted ≤ site.store.granted
  verdict : (setbacks who past).map Setback.error = progress.verdict?.toList
  coming : progress.isComing = true → AsksNothing who past
  turned : ∀ e, .turnedAway e ∈ setbacks who past →
    AsksNothing who past ∧ progress.isPending = false
  undone : ∀ e, .failed e ∈ setbacks who past → ∀ key outcome,
    progress = .registering key (.leaving outcome) → site.registry.registrar.active = none
  owes : ∀ lease, progress.owed? = some lease → GrantedTo who past lease
  /-- A lease that the call was granted is new. It is to be kept or to be given back, or the instance is
  registered, or the lease is gone. -/
  leases : ∀ lease, GrantedTo who past lease →
    early.store.granted < lease.number ∧ lease.number ≤ site.store.granted ∧
      (progress.owed? = some lease ∨ progress.isDone = true ∨
        (GivesBack who past → ¬ site.store.Involves lease))
  spared : ∀ text, (∀ key, EndpointKey.make early.registry.config.root service host port = .ok key →
      text ≠ key.text) → LeftAlone who past text →
    site.store.content.get? text = early.store.content.get? text ∨
      ∃ lost, Replaced who past lost ∧ early.store.leaseOf text = some lost

/-! ## What others do meanwhile -/

section
variable {site after : Site} {move : Move} {who : Nat} {progress : Progress}

/-- Whoever holds a lease in its hands after a deed is handled. -/
theorem isHandled_of_lease? {lease : LeaseId} (h : progress.lease? = some lease) :
    progress.isHandled = true :=
  Progress.isHandled_of_isPending (Progress.isPending_of_lease? h)

/-- Who changes the active registration with a move is handled before it or after it. -/
theorem InLine.active_cases (hline : site.InLine) (hbacked : site.Backed)
    (hmove : site.after move = some after) :
    after.registry.registrar.active = site.registry.registrar.active ∨
      ∃ other progress, move = .step other ∧ progress.isHandled = true ∧
        (site.progress? other = some progress ∨ after.progress? other = some progress) := by
  cases hline.course hbacked hmove with
  | calm hcalm => exact .inl (by rw [hcalm.registrar])
  | @deed other former next mid hactivity hready hdeed hframe =>
    have hmet : site.progress? other = some former := progress?_of_activity hactivity
    rcases hdeed.active_cases with hsame | ⟨current, -, hlease, -⟩ | ⟨key, lease, flight, rfl, -, -⟩
    · exact .inl hsame
    · exact .inr ⟨other, next, rfl, isHandled_of_lease? hlease,
        .inr (progress?_settle_self hframe next hmet)⟩
    · exact .inr ⟨other, _, rfl, rfl, .inl hmet⟩

/-- While an activity is handled, others leave the active registration as it is. -/
theorem InLine.active_of_other (hline : site.InLine) (hbacked : site.Backed)
    (hprogress : site.progress? who = some progress) (hhandled : progress.isHandled = true)
    (hmove : site.after move = some after) (hother : move ≠ .step who) :
    after.registry.registrar.active = site.registry.registrar.active := by
  have hlater := progress?_of_other hmove hother hprogress
  have hnext := hline.moved hbacked hmove
  rcases hline.active_cases hbacked hmove with hsame | ⟨other, met, rfl, hmet, hbefore | hafter⟩
  · exact hsame
  · obtain ⟨rfl, -⟩ := hline.handled_unique hbefore hmet hprogress hhandled
    exact absurd rfl hother
  · obtain ⟨rfl, -⟩ := hnext.handled_unique hafter hmet hlater hhandled
    exact absurd rfl hother

/-- While nobody is at the registrar, nothing is registered or taken from it. -/
theorem InLine.active_of_free (hline : site.InLine) (hbacked : site.Backed)
    (hmove : site.after move = some after) (hfree : site.registry.registrar.lock = .free)
    (hlater : after.registry.registrar.lock = .free) :
    after.registry.registrar.active = site.registry.registrar.active := by
  have hnext := hline.moved hbacked hmove
  rcases hline.active_cases hbacked hmove with hsame | ⟨other, met, rfl, hmet, hbefore | hafter⟩
  · exact hsame
  · have hholder := hline.handled other met hbefore hmet
    rw [hfree] at hholder
    cases hholder
  · have hholder := hnext.handled other met hafter hmet
    rw [hlater] at hholder
    cases hholder

end

section
variable {early site after : Site} {move : Move} {who : Nat} {service host : String} {port : Nat}
  {past : List (Site × Move)} {progress : Progress}

/-- Others leave the call where it is, and do not bring back what it has given up. -/
theorem Attempt.other (h : Attempt early who service host port past site progress)
    (hline : site.InLine) (hbacked : site.Backed) (hmove : site.after move = some after)
    (hother : move ≠ .step who) :
    Attempt early who service host port (past ++ [(site, move)]) after progress := by
  refine ⟨progress?_of_other hmove hother h.met, h.registers,
    h.grown.trans (granted_le_of_after hline hbacked hmove), ?_, ?_, ?_, ?_, ?_, ?_, ?_⟩
  · rw [setbacks_other hother]
    exact h.verdict
  · exact fun hcoming => (h.coming hcoming).other hother
  · intro e hmem
    rw [setbacks_other hother] at hmem
    exact (h.turned e hmem).imp_left fun hasks => hasks.other hother
  · rintro e hmem key outcome rfl
    rw [setbacks_other hother] at hmem
    rw [hline.active_of_other hbacked h.met rfl hmove hother]
    exact h.undone e hmem key outcome rfl
  · exact fun lease howed => (h.owes lease howed).append _
  · intro lease hgranted
    obtain ⟨hnew, hnumber, hfate⟩ := h.leases lease (hgranted.of_other hother)
    refine ⟨hnew, hnumber.trans (Int.ofNat_le.2 (granted_le_of_after hline hbacked hmove)),
      hfate.imp_right (Or.imp_right fun hgone hback => ?_)⟩
    exact not_involves_of_after hline hbacked hmove hnumber (hgone hback.of_append)
  · intro text hnone halone
    rw [halone site move after (by simp) hother hmove]
    exact (h.spared text hnone halone.of_append).imp_right fun ⟨lost, hreplaced, hheld⟩ =>
      ⟨lost, hreplaced.append _, hheld⟩

end

/-! ## What the steps of a call do -/

/-- What a call does at first: it is turned away, or it comes to the registrar. -/
theorem step_calling {site : Site} {who : Nat} {service host : String} {port : Nat}
    (hactivity : site.registry.activities[who]? =
      some ⟨.calling (.register service host port), false⟩) :
    (∃ e, site.setbackAt? (.calling (.register service host port)) = some (.turnedAway e) ∧
        site.step who = site.settle who (.finished (.error e))) ∨
      ∃ key, EndpointKey.make site.registry.config.root service host port = .ok key ∧
        site.setbackAt? (.calling (.register service host port)) = none ∧
        site.step who = (site.enterRegistrar who).settle who (.registering key .queued) := by
  rw [step_of_activity hactivity]
  simp only [stepFrom, stepCalling, setbackAt?]
  cases site.registry.ensureOpen with
  | error e => exact .inl ⟨e, rfl, rfl⟩
  | ok =>
    cases EndpointKey.make site.registry.config.root service host port with
    | error e => exact .inl ⟨e, rfl, rfl⟩
    | ok key => exact .inr ⟨key, rfl, rfl, rfl⟩

section
variable {site mid : Site} {who : Nat} {key : EndpointKey} {stage : Registering} {next : Progress}

/-- The error with which a registration is to end is that of the setback it meets. -/
theorem Deed.verdict (h : site.Deed who (.registering key stage) next mid) :
    next.verdict?.toList = (Progress.registering key stage).verdict?.toList ++
      ((site.setbackAt? (.registering key stage)).map Setback.error).toList := by
  cases h with
  | aside hformer => cases hformer
  | begin hactive => simp [setbackAt?, hactive, Progress.verdict?]
  | turnAway hactive hlost | replace hactive hlost =>
    simp [setbackAt?, hactive, hlost, Progress.verdict?, Setback.error]
  | grant hreceive | attach hreceive | register hreceive =>
    simp [setbackAt?, hreceive, Setback.ofAnswer, Progress.verdict?]
  | refuse hreceive | detach hreceive | abandon hreceive =>
    simp [setbackAt?, hreceive, Setback.ofAnswer, Progress.verdict?, Setback.error]
  | beginAgain | giveUp => rfl
  | @leave _ outcome => cases outcome <;> rfl

/-- A registration is turned away when its turn comes, and does nothing then. -/
theorem Deed.of_turnedAway (h : site.Deed who (.registering key stage) next mid) {e : Error}
    (hturned : site.setbackAt? (.registering key stage) = some (.turnedAway e)) :
    stage = .queued ∧ mid = site ∧ ∃ outcome, next = .registering key (.leaving outcome) := by
  cases h with
  | aside hformer => cases hformer
  | begin hactive => simp [setbackAt?, hactive] at hturned
  | turnAway => exact ⟨rfl, rfl, _, rfl⟩
  | replace hactive hlost => simp [setbackAt?, hactive, hlost] at hturned
  | grant hreceive | attach hreceive | register hreceive | refuse hreceive | detach hreceive
  | abandon hreceive => simp [setbackAt?, hreceive, Setback.ofAnswer] at hturned
  | beginAgain | giveUp | leave => cases hturned

/-- What a registration owes it has owed before, or was just granted. -/
theorem Deed.owed?_cases (h : site.Deed who (.registering key stage) next mid)
    (hactivity : site.registry.activities[who]? = some ⟨.registering key stage, false⟩)
    {lease : LeaseId} (howed : next.owed? = some lease) :
    (Progress.registering key stage).owed? = some lease ∨ site.Grants who lease := by
  cases h with
  | aside hformer => cases hformer
  | grant hreceive =>
    cases howed
    exact .inr ⟨_, _, _, hactivity, hreceive⟩
  | attach => exact .inl howed
  | detach hreceive hsend | abandon hreceive hsend =>
    left
    rw [Progress.owed?, (of_sent hsend).2.1] at howed
    exact howed
  | _ => cases howed

/-- A lease that is granted is owed. -/
theorem Deed.owed_of_grants (h : site.Deed who (.registering key stage) next mid)
    (hactivity : site.registry.activities[who]? = some ⟨.registering key stage, false⟩)
    {lease : LeaseId} (hgrants : site.Grants who lease) :
    next.owed? = some lease ∧ ∃ flight received, stage = .granting flight ∧
      site.receive flight = (.ok lease, received) ∧ received.store.SameHoldings mid.store := by
  obtain ⟨hlease, flight, received, hflight, hreceive, hsame⟩ := h.granted hactivity hgrants
  obtain ⟨asked, granting, answered, hgranting, -⟩ := hgrants
  rw [hactivity] at hgranting
  cases hgranting
  cases hflight
  cases h with
  | aside hformer => cases hformer
  | grant => exact ⟨hlease, _, _, rfl, hreceive, hsame⟩
  | refuse => cases hlease

/-- What a registration owes it goes on to owe, until it is registered or the revocation is answered. -/
theorem Deed.owed?_leaves (h : site.Deed who (.registering key stage) next mid) {lease : LeaseId}
    (howed : (Progress.registering key stage).owed? = some lease) :
    next.owed? = some lease ∨ next.isDone = true ∨
      ∃ cause flight answer received, stage = .abandoning cause flight ∧
        flight.request.revoked = lease ∧ site.receive flight = (answer, received) ∧
        mid.store = received.store := by
  cases h with
  | aside hformer => cases hformer
  | attach => exact .inl howed
  | detach hreceive hsend | abandon hreceive hsend =>
    left
    rw [Progress.owed?, (of_sent hsend).2.1]
    exact howed
  | register => exact .inr (.inl rfl)
  | giveUp hreceive =>
    exact .inr (.inr ⟨_, _, _, _, rfl, Option.some.inj howed, hreceive, rfl⟩)
  | _ => cases howed

/-- A registration changes nothing but its own key and what is attached to the lease that it revokes. -/
theorem Deed.spares (h : site.Deed who (.registering key stage) next mid) {faults : Faults}
    (hasks : site.AsksLeases faults)
    (hprogress : site.progress? who = some (.registering key stage)) {text : String}
    (hother : text ≠ key.text) :
    mid.store.content.get? text = site.store.content.get? text ∨
      ∃ flight : Flight .revoke, site.store.leaseOf text = some flight.request.revoked ∧
        (stage = .replacing flight ∨ ∃ cause, stage = .abandoning cause flight) := by
  obtain ⟨received, hsame, hreceived⟩ := h.served
  rw [hsame.content]
  rcases hreceived with rfl | rfl | ⟨m, flight, answer, hflight, hserved⟩
  · exact .inl rfl
  · exact .inl rfl
  · rcases hserved.get?_cases text with hkept | hchanges | ⟨-, lease, hends, hheld⟩
    · exact .inl hkept
    · -- what a registration asks about a key is to attach its own
      obtain rfl | rfl : m = .put ∨ m = .delete := by
        cases hrequest : flight.request with
        | put => exact .inl rfl
        | delete => exact .inr rfl
        | _ =>
          rw [hrequest] at hchanges
          cases hchanges
      · cases stage with
        | attaching lease put =>
          cases hflight
          rw [hasks.attaching who key lease _ hprogress] at hchanges
          exact absurd hchanges.symm hother
        | _ => cases hflight
      · cases stage <;> cases hflight
    · obtain rfl : m = .revoke := by
        cases hrequest : flight.request with
        | revoke => rfl
        | _ =>
          rw [hrequest] at hends
          cases hends
      refine .inr ⟨flight, by rw [hheld, Request.revoked_of_ends hends], ?_⟩
      cases stage with
      | replacing =>
        cases hflight
        exact .inl rfl
      | abandoning cause =>
        cases hflight
        exact .inr ⟨cause, rfl⟩
      | _ => cases hflight

end

/-! ## The run of a call -/

section
variable {early site after : Site} {who : Nat} {service host : String} {port : Nat}
  {past : List (Site × Move)} {faults : Faults}

/-- A call that has been made has done nothing. -/
theorem Attempt.start (hmove : early.after (.call (.register service host port)) = some after) :
    Attempt early early.registry.activities.length service host port
      [(early, .call (.register service host port))] after
      (.calling (.register service host port)) := by
  have hmet := progress?_call hmove
  have hasks : AsksNothing early.registry.activities.length
      [(early, .call (.register service host port))] := by
    intro other hmem
    cases List.mem_singleton.1 hmem
  cases hmove
  refine ⟨hmet, .inl rfl, le_rfl, rfl, fun _ => hasks, ?_, ?_, ?_, ?_, fun _ _ _ => .inl rfl⟩
  · rintro e hmem
    cases hmem
  · rintro e hmem
    cases hmem
  · rintro lease howed
    cases howed
  · rintro lease ⟨other, hmem, -⟩
    cases List.mem_singleton.1 hmem

/-- The call is turned away at once, or it comes to the registrar. -/
theorem Attempt.comes {call : Call}
    (h : Attempt early who service host port past site (.calling call)) (hbacked : site.Backed)
    (hconfig : site.registry.config = early.registry.config)
    (hmove : site.after (.step who) = some after) :
    ∃ progress, Attempt early who service host port (past ++ [(site, .step who)]) after progress := by
  obtain rfl : call = .register service host port := by
    rcases h.registers with hcall | ⟨key, stage, -, hstage⟩ | ⟨outcome, hfinished⟩
    · exact Progress.calling.inj hcall
    · cases hstage
    · cases hfinished
  obtain ⟨-, rfl⟩ := of_after_step hmove
  have hactivity := hbacked.activity_of_progress? h.met rfl
  obtain ⟨next, hmet, hquiet, hregisters, hverdict, hidle, howes, hstage⟩ : ∃ next : Progress,
      (site.step who).progress? who = some next ∧ site.Quiet (site.step who) ∧
      next.Registers early.registry.config.root service host port ∧
      next.verdict?.toList = ((site.setbackAt? (.calling (.register service host port))).map
        Setback.error).toList ∧
      next.isPending = false ∧ next.owed? = none ∧
      ∀ key outcome, next ≠ .registering key (.leaving outcome) := by
    rcases step_calling hactivity with ⟨e, hsetback, hstep⟩ | ⟨key, hkey, hsetback, hstep⟩
    · rw [hstep, hsetback]
      exact ⟨.finished (.error e), progress?_settle_self (.refl site) _ h.met, ⟨⟨rfl, rfl⟩, rfl⟩,
        .inr (.inr ⟨_, rfl⟩), rfl, rfl, rfl, fun _ _ => Progress.noConfusion⟩
    · rw [hstep, hsetback]
      refine ⟨.registering key .queued,
        progress?_settle_self (site.frame_enterRegistrar who) _ h.met, ⟨⟨rfl, rfl⟩, rfl⟩,
        .inr (.inl ⟨key, _, hconfig ▸ hkey, rfl⟩), rfl, rfl, rfl, ?_⟩
      intro other outcome hsame
      cases hsame
  have hasks : AsksNothing who (past ++ [(site, .step who)]) := (h.coming rfl).own hquiet
  have hstore : (site.step who).store = site.store := congrArg Link.store hquiet.1.1
  refine ⟨next, hmet, hregisters, hstore ▸ h.grown, ?_, fun _ => hasks, fun _ _ => ⟨hasks, hidle⟩,
    fun _ _ key outcome hnext => absurd hnext (hstage key outcome), ?_, ?_, ?_⟩
  · rw [setbacks_own h.met, List.map_append, h.verdict, ← Option.toList_map, ← hverdict]
    rfl
  · intro lease howed
    rw [howes] at howed
    cases howed
  · intro lease hgranted
    rcases hgranted.of_own with hbefore | ⟨key, flight, mid, hgranting, -⟩
    · obtain ⟨hnew, hnumber, howed | hdone | hgone⟩ := h.leases lease hbefore
      · cases howed
      · cases hdone
      · rw [hstore]
        exact ⟨hnew, hnumber, .inr (.inr fun hback => hgone hback.of_append)⟩
    · rw [hactivity] at hgranting
      cases hgranting
  · intro text hnone halone
    rw [hstore]
    exact (h.spared text hnone halone.of_append).imp_right fun ⟨lost, hreplaced, hheld⟩ =>
      ⟨lost, hreplaced.append _, hheld⟩

variable {key : EndpointKey} {stage : Registering} {next : Progress} {mid : Site}

/-- A registration goes on under the key that was asked for. -/
theorem Attempt.valid
    (h : Attempt early who service host port past site (.registering key stage)) :
    EndpointKey.make early.registry.config.root service host port = .ok key := by
  rcases h.registers with hcalling | ⟨other, reached, hvalid, hsame⟩ | ⟨outcome, hfinished⟩
  · cases hcalling
  · cases hsame
    exact hvalid
  · cases hfinished

/-- The setbacks that a registration has met after its step, by the error with which it is to end. -/
theorem Attempt.own_verdict
    (h : Attempt early who service host port past site (.registering key stage))
    (hdeed : site.Deed who (.registering key stage) next mid) :
    (setbacks who (past ++ [(site, .step who)])).map Setback.error = next.verdict?.toList := by
  rw [setbacks_own h.met, List.map_append, h.verdict, ← Option.toList_map, hdeed.verdict]

/-- A call whose turn has not come has met no setback. -/
theorem Attempt.no_setback_of_queued
    (h : Attempt early who service host port past site (.registering key .queued)) :
    setbacks who past = [] :=
  List.map_eq_nil_iff.1 h.verdict

/-- A registration that is turned away has done nothing. -/
theorem Attempt.own_turned
    (h : Attempt early who service host port past site (.registering key stage))
    (hbacked : site.Backed) (hdeed : site.Deed who (.registering key stage) next mid)
    (hstep : site.step who = mid.settle who next) {e : Error}
    (hmem : .turnedAway e ∈ setbacks who (past ++ [(site, .step who)])) :
    AsksNothing who (past ++ [(site, .step who)]) ∧ next.isPending = false := by
  rw [setbacks_own h.met] at hmem
  rcases List.mem_append.1 hmem with hbefore | hnow
  · -- it was turned away before, and all that is left to it is to leave
    obtain ⟨hasks, hidle⟩ := h.turned e hbefore
    cases stage with
    | queued =>
      rw [h.no_setback_of_queued] at hbefore
      cases hbefore
    | leaving outcome =>
      cases hdeed with
      | aside hformer => cases hformer
      | leave => exact ⟨hasks.own (hstep ▸ ⟨⟨rfl, rfl⟩, rfl⟩), rfl⟩
    | _ => cases hidle
  · obtain ⟨rfl, rfl, outcome, rfl⟩ := hdeed.of_turnedAway (Option.mem_toList.1 hnow)
    exact ⟨(h.coming rfl).own (hstep ▸ ⟨⟨rfl, rfl⟩, rfl⟩), rfl⟩

/-- A registration that the store has failed leaves nothing registered. -/
theorem Attempt.own_undone
    (h : Attempt early who service host port past site (.registering key stage))
    (hstanding : site.Standing) (hdeed : site.Deed who (.registering key stage) next mid)
    {e : Error} (hmem : .failed e ∈ setbacks who (past ++ [(site, .step who)])) {other : EndpointKey}
    {outcome : Except Error Unit} (hnext : next = .registering other (.leaving outcome)) :
    mid.registry.registrar.active = none := by
  have hverdict := h.own_verdict hdeed
  have hfits := hstanding.fits who _ h.met
  cases hdeed with
  | aside hformer => cases hformer
  | turnAway hactive hlost =>
    rw [setbacks_own h.met, h.no_setback_of_queued] at hmem
    simp [setbackAt?, hactive, hlost] at hmem
  | register =>
    cases hnext
    rw [List.map_eq_nil_iff.1 hverdict] at hmem
    cases hmem
  | refuse hreceive | giveUp hreceive =>
    rw [registry_publish_of_receive hreceive]
    exact hfits.1
  | _ => cases hnext

/-- A lease that the store is asked to revoke is gone, if the revocation gets there. -/
theorem not_involves_of_reaches {site : Site} {flight : Flight .revoke} (hsound : site.store.Sound)
    (hreaches : site.toLink.Reaches flight) :
    ¬ (site.receive flight).2.store.Involves flight.request.revoked := by
  obtain ⟨hway, hcheck⟩ := hreaches
  have hrequest : flight.request = .revoke flight.request.revoked := by
    cases flight.request
    rfl
  cases hcarries : site.toLink.carriesOut flight with
  | true =>
    obtain ⟨answer, later, hserve, hlater⟩ := Link.receive_of_carriesOut hcarries
    rw [hrequest] at hserve
    show ¬ (site.toLink.receive flight).2.store.Involves _
    rw [hlater]
    exact Store.not_involves_of_revoke hserve
  | false =>
    show ¬ (site.toLink.receive flight).2.store.Involves _
    rw [Link.receive_of_not_carriesOut hcarries]
    -- the store would have carried it out if the lease were live
    have hdead : site.store.isLive flight.request.revoked = false := by
      by_contra hlive
      have hserve : (site.store.serve site.clock flight.request).isOk = true := by
        rw [hrequest]
        simp only [Store.serve, Store.revoke, hcheck, if_pos (by simpa using hlive)]
        rfl
      rcases hway with hplain | ⟨e, hlost⟩
      · simp [Link.carriesOut, hplain, hserve] at hcarries
      · simp [Link.carriesOut, hlost, hserve] at hcarries
    rintro (hlive | ⟨key, hheld⟩)
    · rw [hdead] at hlive
      cases hlive
    · rw [hsound.attached (Store.of_check hcheck).2 key _ hheld] at hdead
      cases hdead

/-- What a call was granted is to be kept or to be given back after its step, or is gone. -/
theorem Attempt.own_leases
    (h : Attempt early who service host port past site (.registering key stage))
    (hgrants : faults.Genuine .grant) (hasks : site.AsksLeases faults) (hsound : site.store.Sound)
    (hline : site.InLine) (hbacked : site.Backed) (hmove : site.after (.step who) = some after)
    (hdeed : site.Deed who (.registering key stage) next mid) (hafter : after.store = mid.store)
    {lease : LeaseId} (hgranted : GrantedTo who (past ++ [(site, .step who)]) lease) :
    early.store.granted < lease.number ∧ lease.number ≤ after.store.granted ∧
      (next.owed? = some lease ∨ next.isDone = true ∨
        (GivesBack who (past ++ [(site, .step who)]) → ¬ after.store.Involves lease)) := by
  have hactivity := hbacked.activity_of_progress? h.met rfl
  rcases hgranted.of_own with hbefore | hnow
  · obtain ⟨hnew, hnumber, hfate⟩ := h.leases lease hbefore
    refine ⟨hnew, hnumber.trans (Int.ofNat_le.2 (granted_le_of_after hline hbacked hmove)), ?_⟩
    rcases hfate with howed | hdone | hgone
    · rcases hdeed.owed?_leaves howed with hnext | hnext |
        ⟨cause, flight, answer, received, rfl, rfl, hreceive, hstore⟩
      · exact .inl hnext
      · exact .inr (.inl hnext)
      · -- the revocation has just been answered
        refine .inr (.inr fun hback => ?_)
        have hgone := not_involves_of_reaches hsound
          (hback site key cause flight (by simp) h.met)
        rw [hreceive] at hgone
        rw [hafter, hstore]
        exact hgone
    · cases stage with
      | leaving outcome =>
        cases hdeed with
        | aside hformer => cases hformer
        | leave =>
          cases outcome with
          | ok => exact .inr (.inl rfl)
          | error => cases hdone
      | _ => cases hdone
    · exact .inr (.inr fun hback =>
        not_involves_of_after hline hbacked hmove hnumber (hgone hback.of_append))
  · obtain ⟨howed, flight, received, rfl, hreceive, hsame⟩ := hdeed.owed_of_grants hactivity hnow
    obtain ⟨rfl, hnext⟩ := grants_eq hgrants hasks h.met rfl hreceive
    have hgrown := h.grown
    have hgranted : after.store.granted = site.store.granted + 1 := by
      rw [hafter, hsame.granted, hnext]
    refine ⟨?_, ?_, .inl howed⟩
    · simp only
      omega
    · rw [hgranted]
      exact le_of_eq (by simp)

/-- What a call changes after its step is its own key, and what was attached to a lease that it revokes. -/
theorem Attempt.own_spared
    (h : Attempt early who service host port past site (.registering key stage))
    (hasks : site.AsksLeases faults) (hsound : early.store.Sound) (hstanding : site.Standing)
    (hdeed : site.Deed who (.registering key stage) next mid) (hafter : after.store = mid.store)
    {text : String} (hnone : ∀ key, EndpointKey.make early.registry.config.root service host port =
      .ok key → text ≠ key.text) (halone : LeftAlone who (past ++ [(site, .step who)]) text) :
    after.store.content.get? text = early.store.content.get? text ∨
      ∃ lost, Replaced who (past ++ [(site, .step who)]) lost ∧
        early.store.leaseOf text = some lost := by
  rw [hafter]
  rcases h.spared text hnone halone.of_append with hbefore | ⟨lost, hreplaced, hheld⟩
  · rcases hdeed.spares hasks h.met (hnone key h.valid) with hkept | ⟨flight, hattached, hstage⟩
    · exact .inl (hkept.trans hbefore)
    · have hheld : early.store.leaseOf text = some flight.request.revoked := by
        rw [← hattached, Store.leaseOf, ← hbefore]
        rfl
      rcases hstage with rfl | ⟨cause, rfl⟩
      · obtain ⟨-, former, hlost⟩ := hstanding.fits who _ h.met
        exact .inr ⟨_, ⟨site, key, flight, former, by simp, h.met, hlost⟩, hheld⟩
      · -- the lease that the call gives back is newer than whatever was attached when it was made
        obtain ⟨hnew, -⟩ := h.leases _ (h.owes flight.request.revoked rfl)
        have hold := hsound.numbered _ (.inr ⟨text, hheld⟩)
        omega
  · exact .inr ⟨lost, hreplaced.append _, hheld⟩

/-- The step of a registration leads on. -/
theorem Attempt.own (h : Attempt early who service host port past site (.registering key stage))
    (hgrants : faults.Genuine .grant) (hasks : site.AsksLeases faults)
    (hearly : early.store.Sound) (hsound : site.store.Sound) (hstanding : site.Standing)
    (hline : site.InLine) (hbacked : site.Backed) (hmove : site.after (.step who) = some after) :
    ∃ progress, Attempt early who service host port (past ++ [(site, .step who)]) after progress := by
  have hactivity := hbacked.activity_of_progress? h.met rfl
  obtain ⟨hready, hstep⟩ := of_after_step hmove
  obtain ⟨next, mid, rfl, hdeed, hframe⟩ := deed_of_after hactivity hmove
  refine ⟨next, progress?_settle_self hframe next h.met, ?_,
    h.grown.trans (granted_le_of_after hline hbacked hmove), h.own_verdict hdeed, ?_,
    fun e hmem => h.own_turned hbacked hdeed hstep.symm hmem, ?_, ?_,
    fun lease hgranted => h.own_leases hgrants hasks hsound hline hbacked hmove hdeed rfl hgranted,
    fun text hnone halone => h.own_spared hasks hearly hstanding hdeed rfl hnone halone⟩
  · rcases hdeed.registers with ⟨later, rfl⟩ | ⟨outcome, rfl⟩
    · exact .inr (.inl ⟨key, later, h.valid, rfl⟩)
    · exact .inr (.inr ⟨outcome, rfl⟩)
  · intro hcoming
    cases hdeed with
    | aside hformer => cases hformer
    | _ => cases hcoming
  · intro e hmem other outcome hnext
    have hnone := h.own_undone hstanding hdeed hmem hnext
    exact hnone
  · intro lease howed
    rcases hdeed.owed?_cases hactivity howed with hbefore | hnow
    · exact (h.owes lease hbefore).append _
    · exact ⟨site, by simp, hnow⟩

end

section
variable {store : Store} {config : Config} {dialer : Dialer} {faults : Faults}

/-- From when a call to register is made it goes on as an attempt. -/
theorem attempt_of_run {before moves : List Move} {early final : Site} {service host : String}
    {port : Nat} (hsound : store.Sound) (hgrants : faults.Genuine .grant)
    (hbefore : (Site.start store config dialer faults).run before = some early)
    (hrun : early.run (.call (.register service host port) :: moves) = some final) :
    ∃ progress, Attempt early early.registry.activities.length service host port
      (early.history (.call (.register service host port) :: moves)) final progress := by
  obtain ⟨made, hmade, hrest⟩ := Option.bind_eq_some_iff.1 ((run_cons _ _ _).symm.trans hrun)
  rw [history_cons hmade]
  refine history_induction (P := fun past site => ∃ progress,
    Attempt early early.registry.activities.length service host port
      ((early, .call (.register service host port)) :: past) site progress)
    ⟨_, .start hmade⟩ ?_ hrest
  rintro moves site move after hmoves ⟨progress, h⟩ hmove
  have hsite : (Site.start store config dialer faults).run
      (before ++ .call (.register service host port) :: moves) = some site := by
    rw [run_append, hbefore, Option.bind_some, run_cons, hmade]
    exact hmoves
  obtain ⟨hline, hbacked⟩ := inLine_of_run hsite
  by_cases hother : move = .step early.registry.activities.length
  · subst hother
    cases progress with
    | calling call =>
      have hconfig : site.registry.config = early.registry.config :=
        (precedes_of_run hsite).config.trans (precedes_of_run hbefore).config.symm
      exact h.comes hbacked hconfig hmove
    | registering key stage =>
      exact h.own hgrants (asksLeases_of_run hsite) (sound_of_run hsound hbefore)
        (sound_of_run hsound hsite) (standing_of_run hsite) hline hbacked hmove
    | finished outcome =>
      exact absurd (of_after_step hmove).1 (not_canStep_of_finished h.met)
    | _ =>
      rcases h.registers with hcalling | ⟨key, stage, -, hregistering⟩ | ⟨outcome, hfinished⟩
      · cases hcalling
      · cases hregistering
      · cases hfinished
  · exact ⟨progress, h.other hline hbacked hmove hother⟩

end

section
variable {early known final : Site} {who : Nat} {service host : String} {port : Nat}
  {past : List (Site × Move)}

/-- A call that the store has failed returns with nothing registered. -/
theorem Attempt.returns {progress : Progress} {e cause : Error}
    (h : Attempt early who service host port past known progress) (hstanding : known.Standing)
    (hline : known.InLine) (hbacked : known.Backed) (hmove : known.after (.step who) = some final)
    (hfailed : final.progress? who = some (.finished (.error e)))
    (hmem : .failed cause ∈ setbacks who (past ++ [(known, .step who)])) :
    final.registry.registrar.active = none ∧
      final.registry.registrar.status = .unregistered := by
  rcases h.registers with rfl | ⟨key, stage, -, rfl⟩ | ⟨outcome, rfl⟩
  · -- what is turned away at once is not failed by the store
    exfalso
    have hnone : setbacks who past = [] := List.map_eq_nil_iff.1 h.verdict
    rw [setbacks_own h.met, hnone] at hmem
    rcases step_calling (hbacked.activity_of_progress? h.met rfl) with
      ⟨e, hsetback, -⟩ | ⟨key, -, hsetback, -⟩
    · rw [hsetback] at hmem
      simp at hmem
    · rw [hsetback] at hmem
      simp at hmem
  · have hactivity := hbacked.activity_of_progress? h.met rfl
    obtain ⟨next, mid, rfl, hdeed, hframe⟩ := deed_of_after hactivity hmove
    rw [progress?_settle_self hframe next h.met] at hfailed
    rw [setbacks_own h.met] at hmem
    cases hdeed with
    | aside hformer => cases hformer
    | leave =>
      have hnone : known.registry.registrar.active = none := by
        refine h.undone cause ?_ key _ rfl
        simpa [setbackAt?] using hmem
      have hrest := hstanding.rests_of_head hline (hline.handled who _ h.met rfl) h.met rfl
      exact ⟨hnone, hrest.status_eq hnone⟩
    | _ => cases hfailed
  · exact absurd (of_after_step hmove).1 (not_canStep_of_finished h.met)

/-- Whenever nobody has come to the registrar since, the registry is open and the store is healthy, a call
to register an instance under a valid key succeeds by its own steps. -/
def LetsRegister (site : Site) : Prop :=
  ∀ moves later, site.run moves = some later →
    (∀ entry ∈ site.history moves, entry.1.registry.registrar.lock = .free) →
    later.registry.registrar.lock = .free → later.registry.closed = false → later.toLink.Healthy →
    ∀ service host port key,
      EndpointKey.make later.registry.config.root service host port = .ok key →
        ∃ count last lease, later.run (.call (.register service host port) ::
            List.replicate count (.step later.registry.activities.length)) = some last ∧
          last.progress? later.registry.activities.length = some (.finished (.ok .done)) ∧
          last.registry.registrar.status = .registered key lease ∧ last.store.Carries key lease

theorem letsRegister_of_active {site : Site} (hline : site.InLine) (hbacked : site.Backed)
    (hnone : site.registry.registrar.active = none) : site.LetsRegister := by
  intro moves later hrun hfree hlater hopen hhealthy service host port key hkey
  refine register_succeeds hopen ?_ hlater hhealthy hkey
  refine history_induction (P := fun past later =>
    (∀ entry ∈ past, entry.1.registry.registrar.lock = .free) →
      later.registry.registrar.lock = .free → later.registry.registrar.active = none)
    (fun _ _ => hnone) ?_ hrun hfree hlater
  intro before mid move after hbefore ih hmove hall hafter
  obtain ⟨hmidLine, hmidBacked⟩ := hline.run hbacked hbefore
  have hmid : mid.registry.registrar.lock = .free := hall (mid, move) (by simp)
  rw [hmidLine.active_of_free hmidBacked hmove hmid hafter]
  exact ih (fun entry hmem => hall entry (List.mem_append_left _ hmem)) hmid

end

end Site

open Site in
/-- A call to register an instance that fails returns the error of the only setback that it has met, and
never that of a revocation. If it was turned away, it has asked the store for nothing and left registration
and status as they were. If the store has failed it, nothing is registered when it returns, and the next
call that finds the store healthy succeeds. A lease that it was granted is gone, with all that was attached
to it, if the revocation has got to the store. And what stands under any other key stays as it is, unless
others change it or it was attached to a lost lease that the call has replaced.

Nothing is said of a lease that the store grants while its answer is lost on the way: the call never learns
its number, and so cannot give it back. -/
theorem failed_register_rolls_back {store : Store} {config : Config} {dialer : Dialer}
    {faults : Faults} {before moves : List Move} {early final : Site} {who : Nat}
    {service host : String} {port : Nat} {e : Error} {past : List (Site × Move)}
    (hsound : store.Sound) (hgrants : faults.Genuine .grant)
    (hbefore : (Site.start store config dialer faults).run before = some early)
    (hwho : early.registry.activities.length = who)
    (hrun : early.run (.call (.register service host port) :: moves ++ [.step who]) = some final)
    (hpast : early.history (.call (.register service host port) :: moves ++ [.step who]) = past)
    (hfailed : final.progress? who = some (.finished (.error e))) :
    (setbacks who past = [.turnedAway e] ∧ AsksNothing who past ∨
      setbacks who past = [.failed e] ∧ final.registry.registrar.active = none ∧
        final.registry.registrar.status = .unregistered ∧ final.LetsRegister) ∧
    (GivesBack who past → ∀ lease, GrantedTo who past lease →
      final.store.isLive lease = false ∧ ∀ text, final.store.leaseOf text ≠ some lease) ∧
    ∀ text, (∀ key, EndpointKey.make config.root service host port = .ok key → text ≠ key.text) →
      LeftAlone who past text →
        final.store.content.get? text = early.store.content.get? text ∨
          ∃ lost, Replaced who past lost ∧ early.store.leaseOf text = some lost := by
  subst hwho hpast
  have hroot : early.registry.config = config := (precedes_of_run hbefore).config
  obtain ⟨known, hknown, hlast⟩ := Option.bind_eq_some_iff.1 ((run_append _ _ _).symm.trans hrun)
  obtain ⟨last, hreturn, hend⟩ := Option.bind_eq_some_iff.1 ((run_cons _ _ _).symm.trans hlast)
  cases hend
  have hsite : (Site.start store config dialer faults).run
      (before ++ .call (.register service host port) :: moves) = some known := by
    rw [run_append, hbefore]
    exact hknown
  have hfinal : (Site.start store config dialer faults).run
      (before ++ (.call (.register service host port) :: moves ++
        [.step early.registry.activities.length])) = some final := by
    rw [run_append, hbefore]
    exact hrun
  obtain ⟨hline, hbacked⟩ := inLine_of_run hsite
  obtain ⟨progress, hattempt⟩ := attempt_of_run hsound hgrants hbefore hknown
  rw [List.cons_append] at hrun
  obtain ⟨reached, h⟩ := attempt_of_run hsound hgrants hbefore hrun
  obtain rfl : reached = .finished (.error e) := Option.some.inj (h.met.symm.trans hfailed)
  refine ⟨?_, fun hback lease hgranted => ?_, fun text hnone => h.spared text (hroot ▸ hnone)⟩
  · obtain ⟨setback, hsetbacks, herror⟩ := List.map_eq_singleton_iff.1 h.verdict
    cases setback with
    | turnedAway cause =>
      cases herror
      exact .inl ⟨hsetbacks, (h.turned cause (by rw [hsetbacks]; exact List.mem_singleton_self _)).1⟩
    | failed cause =>
      cases herror
      have hmem : .failed cause ∈ setbacks early.registry.activities.length
          (early.history (.call (.register service host port) :: moves) ++
            [(known, .step early.registry.activities.length)]) := by
        rw [← history_concat hknown hreturn, List.cons_append, hsetbacks]
        exact List.mem_singleton_self _
      obtain ⟨hnone, hstatus⟩ :=
        hattempt.returns (standing_of_run hsite) hline hbacked hreturn hfailed hmem
      obtain ⟨hlineLater, hbackedLater⟩ := inLine_of_run hfinal
      exact .inr ⟨hsetbacks, hnone, hstatus,
        letsRegister_of_active hlineLater hbackedLater hnone⟩
  · obtain ⟨-, -, howed | hdone | hgone⟩ := h.leases lease hgranted
    · cases howed
    · cases hdone
    · exact ⟨by simpa using fun hlive => hgone hback (.inl hlive),
        fun text hheld => hgone hback (.inr ⟨text, hheld⟩)⟩

/-- The renewals of the first lease end at once, and the answer to the second attachment is lost. -/
def secondPutFails : Faults :=
  ((Faults.none.add (⟨0, .canned (.scripted ⟨[], false, 0⟩), some 1⟩ : Fault .keepAlive)).add
    (⟨0, .plain, some 1⟩ : Fault .put)).add (⟨0, .lost (.store "boom"), some 1⟩ : Fault .put)

/-- The registration of an instance is lost while its lease goes on, and another client attaches a key to
that lease and writes one of its own. -/
def beforeSecondPut : List Move :=
  .call (.register "chat" "10.0.0.1" 9000) :: List.replicate 6 (.step 1) ++
    [.step 2, .request (.put "guests/1" "theirs" (some ⟨1⟩)), .request (.put "guests/2" "theirs" none)]

/-- Where the instance is about to be registered anew. -/
def aboutToReplace : Site :=
  ((Site.start .empty (Config.make "svc" []) .onFirstUse secondPutFails).run beforeSecondPut).get rfl

/-- The call that registers the instance anew: it revokes the lost lease, is granted another one, attaches
the instance to it, gives it back and returns. -/
def registersAgain : List Move :=
  .call (.register "chat" "10.0.0.2" 9001) :: List.replicate 6 (.step 3) ++ [.step 3]

/-- Where the call has returned. -/
def rolledBack : Site := (aboutToReplace.run registersAgain).get rfl

open Site in
/-- The second instance is attached though the store tells of a failure, and is gone when the call returns,
with the lease that it was attached to. -/
theorem failed_register_rolls_back_lost_put :
    (Site.start .empty (Config.make "svc" []) .onFirstUse secondPutFails).run beforeSecondPut =
        some aboutToReplace ∧
      aboutToReplace.run registersAgain = some rolledBack ∧
      rolledBack.progress? 3 = some (.finished (.error (.store "boom"))) ∧
      setbacks 3 (aboutToReplace.history registersAgain) = [.failed (.store "boom")] ∧
      rolledBack.registry.registrar.active = none ∧
      rolledBack.registry.registrar.status = .unregistered ∧ rolledBack.LetsRegister ∧
      GivesBack 3 (aboutToReplace.history registersAgain) ∧
      GrantedTo 3 (aboutToReplace.history registersAgain) ⟨2⟩ ∧
      rolledBack.store.isLive ⟨2⟩ = false ∧
      Replaced 3 (aboutToReplace.history registersAgain) ⟨1⟩ ∧
      aboutToReplace.store.leaseOf "guests/1" = some ⟨1⟩ ∧
      rolledBack.store.content.get? "guests/1" = none ∧
      LeftAlone 3 (aboutToReplace.history registersAgain) "guests/2" ∧
      aboutToReplace.store.leaseOf "guests/2" = none ∧
      rolledBack.store.content.get? "guests/2" = aboutToReplace.store.content.get? "guests/2" := by
  have hbefore : (Site.start .empty (Config.make "svc" []) .onFirstUse secondPutFails).run
      beforeSecondPut = some aboutToReplace := (Option.some_get _).symm
  have hrun : aboutToReplace.run registersAgain = some rolledBack := (Option.some_get _).symm
  have hgrants : secondPutFails.Genuine .grant := by
    intro fault hfault
    cases hfault
  have hgranted : GrantedTo 3 (aboutToReplace.history registersAgain) ⟨2⟩ := by
    let site : Site := (aboutToReplace.run (registersAgain.take 4)).get rfl
    have hmem : (site, .step 3) ∈ aboutToReplace.history registersAgain :=
      mem_history_of_run (Option.some_get _).symm (.step 3) (List.replicate 3 (.step 3))
    exact ⟨site, hmem, _, _, _, rfl, rfl⟩
  have hreplaced : Replaced 3 (aboutToReplace.history registersAgain) ⟨1⟩ := by
    let site : Site := (aboutToReplace.run (registersAgain.take 3)).get rfl
    have hmem : (site, .step 3) ∈ aboutToReplace.history registersAgain :=
      mem_history_of_run (Option.some_get _).symm (.step 3) (List.replicate 4 (.step 3))
    exact ⟨site, _, _, _, hmem, rfl, rfl⟩
  have hother : ∀ key, EndpointKey.make "svc" "chat" "10.0.0.2" 9001 = .ok key →
      "guests/2" ≠ key.text := by
    intro key hkey
    cases hkey
    decide
  have hback : GivesBack 3 (aboutToReplace.history registersAgain) :=
    givesBack_of_undoes (by decide +kernel)
  have halone : LeftAlone 3 (aboutToReplace.history registersAgain) "guests/2" :=
    leftAlone_of_isOf (by decide +kernel)
  have hsetbacks : setbacks 3 (aboutToReplace.history registersAgain) = [.failed (.store "boom")] := by
    decide +kernel
  obtain ⟨hturned | hfailed, hgone, hspared⟩ :=
    failed_register_rolls_back Store.sound_empty hgrants hbefore rfl hrun rfl rfl
  · cases hsetbacks.symm.trans hturned.1
  · obtain ⟨-, hnone, hstatus, hlets⟩ := hfailed
    refine ⟨hbefore, hrun, rfl, hsetbacks, hnone, hstatus, hlets, hback, hgranted,
      (hgone hback _ hgranted).1, hreplaced, rfl, rfl, halone, rfl, ?_⟩
    obtain hkept | ⟨lost, -, hheld⟩ := hspared "guests/2" hother halone
    · exact hkept
    · cases hheld

end ServiceRegistry
