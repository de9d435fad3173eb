import ServiceRegistry.Proofs.Registry.Calls
import ServiceRegistry.Proofs.Registry.Gate
import ServiceRegistry.Proofs.Store.Leases

/-!
# What a step does to the registration

Of all that a step can do, only a few things concern the registrar, the leases of the store and the end
of the registry: one comes to the registrar, goes from one point of a registration to the next, leaves
the registrar, renews a lease or stops to, closes the registry. `Deed` has one rule for each, with the
requests that the step has sent and the answers that it has found, and one rule for the steps that spare
all of this. `deed_of_stepFrom` says that there are no others.
-/
namespace ServiceRegistry

def ClientEvent.isClose : ClientEvent → Bool
  | .close => true
  | _ => false

/-- How often a client has closed its store. -/
def Client.closes (client : Client) : Nat := client.log.countP ClientEvent.isClose

namespace Progress

/-- Whether the activity stands at the registrar. -/
def isAtRegistrar : Progress → Bool
  | .registering _ _ | .unregistering _ _ => true
  | _ => false

/-- Whether the activity has nothing to do with the registration or the end of the registry. -/
def isAside : Progress → Bool
  | .registering _ _ | .unregistering _ _ | .renewing _ _ _ | .sealing => false
  | _ => true

/-- Whether the activity goes on behind the calls, or has ended. Only these are ever asked to end. -/
def isBackground : Progress → Bool
  | .renewing _ _ _ | .finished _ => true
  | progress => progress.isWatching

end Progress

namespace Site

/-- What concerns the registration and the end of the registry is the same at both sites. -/
structure Spares (before after : Site) : Prop where
  registrar : after.registry.registrar = before.registry.registrar
  closed : after.registry.closed = before.registry.closed
  activities : after.registry.activities = before.registry.activities
  store : before.store.SameHoldings after.store
  closes : after.client.closes = before.client.closes

namespace Spares

theorem refl (site : Site) : site.Spares site :=
  ⟨rfl, rfl, rfl, .refl _, rfl⟩

theorem trans {first second third : Site} (h : first.Spares second) (h' : second.Spares third) :
    first.Spares third :=
  ⟨h'.registrar.trans h.registrar, h'.closed.trans h.closed, h'.activities.trans h.activities,
    h.store.trans h'.store, h'.closes.trans h.closes⟩

end Spares

/-- What a step does to the registration: where the activity stood, where it comes to, and the site
before it is moved there. -/
inductive Deed (site : Site) (who : Nat) : Progress → Progress → Site → Prop
  | aside {former next : Progress} {after : Site} (hformer : former.isAside = true)
      (hnext : next.isAside = true) (hspares : site.Spares after)
      (hbackground : former.isBackground = true → next.isBackground = true) :
      site.Deed who former next after
  /-- The lease is renewed further. -/
  | renew {key : EndpointKey} {lease : LeaseId} {renewals rest : Renewals} :
      site.Deed who (.renewing key lease renewals) (.renewing key lease rest) site
  /-- The lease is not renewed any more. -/
  | stop {key : EndpointKey} {lease : LeaseId} {renewals : Renewals} :
      site.Deed who (.renewing key lease renewals) (.finished (.ok .done))
        (site.mapRegistrar fun registrar => registrar.lose key lease)
  | comeToRegister {call : Call} {key : EndpointKey} (hopen : site.registry.closed = false) :
      site.Deed who (.calling call) (.registering key .queued) (site.enterRegistrar who)
  | comeToUnregister {call : Call} (hopen : site.registry.closed = false) :
      site.Deed who (.calling call) (.unregistering false .queued) (site.enterRegistrar who)
  /-- The registry closes. -/
  | close (hopen : site.registry.closed = false) :
      site.Deed who (.calling .close) (.unregistering true .queued)
        ((site.mapRegistry fun registry =>
          { registry with closed := true }.cancel Registry.watcher).enterRegistrar who)
  /-- Nothing is registered, and a lease is asked for. -/
  | begin {key : EndpointKey} {ttl : Int} {flight : Flight .grant} {after : Site}
      (hactive : site.registry.registrar.active = none)
      (hsend : (site.publish .registering).send (.grant ttl) = (flight, after)) :
      site.Deed who (.registering key .queued) (.registering key (.granting flight)) after
  /-- Something is registered and not lost. -/
  | turnAway {key : EndpointKey} {current : Active}
      (hactive : site.registry.registrar.active = some current)
      (hlost : site.registry.registrar.status.isLost = false) :
      site.Deed who (.registering key .queued)
        (.registering key (.leaving (.error (.alreadyRegistered current.key.text)))) site
  /-- Something was registered and is lost. -/
  | replace {key : EndpointKey} {current : Active} {flight : Flight .revoke} {after : Site}
      (hactive : site.registry.registrar.active = some current)
      (hlost : site.registry.registrar.status.isLost = true)
      (hsend : ((site.setActive none).mapRegistry fun registry =>
        registry.cancel current.renewal).send (.revoke current.lease) = (flight, after)) :
      site.Deed who (.registering key .queued) (.registering key (.replacing flight)) after
  | beginAgain {key : EndpointKey} {ttl : Int} {former : Flight .revoke} {flight : Flight .grant}
      {answer : Except Error Unit} {mid after : Site} (hreceive : site.receive former = (answer, mid))
      (hsend : (mid.publish .registering).send (.grant ttl) = (flight, after)) :
      site.Deed who (.registering key (.replacing former)) (.registering key (.granting flight)) after
  | grant {key : EndpointKey} {lease : LeaseId} {former : Flight .grant} {flight : Flight .put}
      {mid after : Site} (hreceive : site.receive former = (.ok lease, mid))
      (hsend : mid.send (.put key.text key.descriptor (some lease)) = (flight, after)) :
      site.Deed who (.registering key (.granting former)) (.registering key (.attaching lease flight))
        after
  | refuse {key : EndpointKey} {former : Flight .grant} {e : Error} {mid : Site}
      (hreceive : site.receive former = (.error e, mid)) :
      site.Deed who (.registering key (.granting former)) (.registering key (.leaving (.error e)))
        (mid.publish .unregistered)
  | attach {key : EndpointKey} {lease : LeaseId} {interval : Duration} {former : Flight .put}
      {answer : Unit} {flight : Flight .keepAlive} {mid after : Site}
      (hreceive : site.receive former = (.ok answer, mid))
      (hsend : mid.send (.keepAlive lease interval) = (flight, after)) :
      site.Deed who (.registering key (.attaching lease former))
        (.registering key (.opening lease flight)) after
  | detach {key : EndpointKey} {lease : LeaseId} {former : Flight .put} {e : Error}
      {flight : Flight .revoke} {mid after : Site}
      (hreceive : site.receive former = (.error e, mid))
      (hsend : mid.send (.revoke lease) = (flight, after)) :
      site.Deed who (.registering key (.attaching lease former))
        (.registering key (.abandoning e flight)) after
  /-- The registration is complete, and its lease is renewed from now on. -/
  | register {key : EndpointKey} {lease : LeaseId} {former : Flight .keepAlive}
      {renewals rest : Renewals} {mid : Site} (hreceive : site.receive former = (.ok renewals, mid)) :
      site.Deed who (.registering key (.opening lease former)) (.registering key (.leaving (.ok ())))
        (((mid.publish (.registered key lease)).mapRegistry fun registry =>
          registry.begin (.renewing key lease rest)).setActive
            (some ⟨key, lease, site.registry.activities.length⟩))
  | abandon {key : EndpointKey} {lease : LeaseId} {former : Flight .keepAlive} {e : Error}
      {flight : Flight .revoke} {mid after : Site}
      (hreceive : site.receive former = (.error e, mid))
      (hsend : mid.send (.revoke lease) = (flight, after)) :
      site.Deed who (.registering key (.opening lease former))
        (.registering key (.abandoning e flight)) after
  | giveUp {key : EndpointKey} {former : Flight .revoke} {e : Error} {answer : Except Error Unit}
      {mid : Site} (hreceive : site.receive former = (answer, mid)) :
      site.Deed who (.registering key (.abandoning e former)) (.registering key (.leaving (.error e)))
        (mid.publish .unregistered)
  | leave {key : EndpointKey} {outcome : Except Error Unit} :
      site.Deed who (.registering key (.leaving outcome)) (.finished (outcome.map fun _ => .done))
        site.releaseRegistrar
  /-- Nothing is registered that could be removed. -/
  | lack {closing : Bool} (hactive : site.registry.registrar.active = none) :
      site.Deed who (.unregistering closing .queued)
        (.unregistering closing (.leaving (.error .notRegistered))) site
  | remove {closing : Bool} {current : Active} {flight : Flight .delete} {after : Site}
      (hactive : site.registry.registrar.active = some current)
      (hsend : (((site.setActive none).publish .unregistering).mapRegistry fun registry =>
        registry.cancel current.renewal).send (.delete current.key.text) = (flight, after)) :
      site.Deed who (.unregistering closing .queued)
        (.unregistering closing (.deleting current.lease flight)) after
  | delete {closing : Bool} {lease : LeaseId} {former : Flight .delete} {flight : Flight .revoke}
      {answer : Except Error Unit} {mid after : Site} (hreceive : site.receive former = (answer, mid))
      (hsend : mid.send (.revoke lease) = (flight, after)) :
      site.Deed who (.unregistering closing (.deleting lease former))
        (.unregistering closing (.revoking answer flight)) after
  | revoke {closing : Bool} {former : Flight .revoke} {deleted answer : Except Error Unit}
      {mid : Site} (hreceive : site.receive former = (answer, mid)) :
      site.Deed who (.unregistering closing (.revoking deleted former))
        (.unregistering closing (.leaving (removal deleted answer))) (mid.publish .unregistered)
  | leaveUnregistered {outcome : Except Error Unit} :
      site.Deed who (.unregistering false (.leaving outcome))
        (.finished (outcome.map fun _ => .done)) site.releaseRegistrar
  | leaveClosing {outcome : Except Error Unit} :
      site.Deed who (.unregistering true (.leaving outcome)) .sealing site.releaseRegistrar
  /-- The cache and the store are closed. -/
  | shut : site.Deed who .sealing (.finished (.ok .done))
      { site.withCache site.registry.cache.close with toLink := site.toLink.close }

/-! ## Steps that spare the registration -/

/-- What an activity comes to, and the site then, have nothing to do with the registration. -/
def Aside (site : Site) (result : Progress × Site) : Prop :=
  result.1.isAside = true ∧ site.Spares result.2

theorem Aside.of_spares {site mid : Site} {result : Progress × Site} (h : mid.Aside result)
    (hspares : site.Spares mid) : site.Aside result :=
  ⟨h.1, hspares.trans h.2⟩

variable (site : Site)

theorem closes_recordAll (client : Client) (trail : List EndpointEvent) :
    (client.recordAll (trail.map .endpoint)).closes = client.closes := by
  unfold Client.recordAll
  induction trail generalizing client with
  | nil => rfl
  | cons event trail ih =>
    rw [List.map_cons, List.foldl_cons, ih, Client.closes, Client.record, List.countP_cons]
    rfl

theorem spares_withCache (cache : Cache) : site.Spares (site.withCache cache) :=
  ⟨rfl, rfl, rfl, .refl _, rfl⟩

theorem spares_enterGate (who : Nat) : site.Spares (site.enterGate who) :=
  ⟨rfl, rfl, rfl, .refl _, rfl⟩

theorem spares_releaseGate : site.Spares site.releaseGate :=
  ⟨rfl, rfl, rfl, .refl _, rfl⟩

theorem spares_recordTrail (trail : List EndpointEvent) : site.Spares (site.recordTrail trail) :=
  ⟨rfl, rfl, rfl, .refl _, closes_recordAll _ _⟩

/-- What a site is after a request was sent, and how the request is on its way. -/
theorem of_sent {site after : Site} {m : Method} {request : Request m} {flight : Flight m}
    (h : site.send request = (flight, after)) :
    site.Spares after ∧ flight.request = request ∧ flight.Meets site.client.faults := by
  have hflight : flight = (site.toLink.send request).1 := (congrArg Prod.fst h).symm
  have hafter : after.toLink = (site.toLink.send request).2 :=
    (congrArg (fun result => result.2.toLink) h).symm
  have hregistry := registry_of_send h
  refine ⟨⟨by rw [hregistry], by rw [hregistry], by rw [hregistry], ?_, ?_⟩, ?_, ?_⟩
  · rw [hafter, Link.store_send]
    exact .refl _
  · rw [hafter]
    unfold Link.send
    split <;> simp [Client.closes, Client.record, ClientEvent.isClose]
  · rw [hflight, Link.request_send]
  · rw [hflight]
    exact Link.meets_send _ _

/-- The store serves a request that is answered, or is not reached by it. -/
theorem served_of_receive {site mid : Site} {m : Method} {flight : Flight m}
    {answer : Except Error (Answer m)} (h : site.receive flight = (answer, mid)) :
    mid.store = site.store ∨ ∃ given, site.store.Served flight.request given mid.store := by
  have hmid : mid.store = (site.toLink.receive flight).2.store :=
    (congrArg (fun result => result.2.store) h).symm
  rw [hmid]
  exact site.toLink.served_of_receive flight

/-- A request that is sent is noted. -/
theorem log_of_send {site after : Site} {m : Method} {request : Request m} {flight : Flight m}
    (h : site.send request = (flight, after)) :
    after.client.log = .request request :: site.client.log := by
  have hafter : after.toLink = (site.toLink.send request).2 :=
    (congrArg (fun result => result.2.toLink) h).symm
  rw [hafter]
  unfold Link.send
  split <;> rfl

/-- A site is the same after an answer was taken, apart from the store. -/
theorem client_of_receive {site mid : Site} {m : Method} {flight : Flight m}
    {answer : Except Error (Answer m)} (h : site.receive flight = (answer, mid)) :
    mid.client = site.client := by
  have hmid : mid.client = (site.toLink.receive flight).2.client :=
    (congrArg (fun result => result.2.client) h).symm
  rw [hmid, Link.client_receive]

/-- The answer of a method that only reads spares the registration. -/
theorem spares_of_receive {site mid : Site} {m : Method} {flight : Flight m}
    {answer : Except Error (Answer m)} (h : site.receive flight = (answer, mid))
    (hreads : m.isReading = true) : site.Spares mid := by
  have hregistry := registry_of_receive h
  have hclient := client_of_receive h
  refine ⟨by rw [hregistry], by rw [hregistry], by rw [hregistry], ?_, by rw [hclient]⟩
  rcases served_of_receive h with hsame | ⟨given, hserved⟩
  · exact hsame ▸ .refl _
  · exact hserved.same hreads

theorem aside_refreshNext (who : Nat) (changes : Changes) (keys : List ServiceKey) :
    site.Aside (site.refreshNext who changes keys) := by
  cases keys with
  | nil => exact ⟨rfl, .refl site⟩
  | cons key rest => exact ⟨rfl, site.spares_enterGate who⟩

theorem aside_listenAfter (changes : Changes) (e : Error) :
    site.Aside (site.listenAfter changes e) := by
  unfold listenAfter
  split <;> exact ⟨rfl, .refl site⟩

theorem aside_conclude (who : Nat) (errand : Errand) (result : Except Error Listing) :
    site.Aside (site.conclude who errand result) := by
  refine Aside.of_spares ?_ site.spares_releaseGate
  unfold conclude
  split
  · exact ⟨rfl, .refl _⟩
  · exact aside_refreshNext _ _ _ _
  · exact ⟨rfl, .refl _⟩
  · exact aside_listenAfter _ _ _
  · exact aside_listenAfter _ _ _

theorem spares_install {site after : Site} {errand : Errand} {stamp : Stamp} {reading : Reading}
    {keys : List EndpointKey} {listing : Listing}
    (h : site.install errand stamp reading keys = .ok (listing, after)) : site.Spares after := by
  cases errand with
  | resolve key =>
    obtain ⟨cache, -, hafter⟩ := of_map_ok h
    cases hafter
    exact site.spares_withCache cache
  | refresh key rest changes =>
    obtain ⟨cache, -, hafter⟩ := of_map_ok h
    cases hafter
    exact site.spares_withCache cache
  | rebuild changes =>
    obtain ⟨cache, -, hafter⟩ := of_map_ok h
    cases hafter
    exact site.spares_withCache cache

theorem aside_stepBuild (who : Nat) (errand : Errand) (build : Build) :
    site.Aside (site.stepBuild who errand build) := by
  cases build with
  | queued =>
    simp only [stepBuild]
    split
    · split
      · exact ⟨rfl, .refl site⟩
      · exact aside_conclude _ _ _ _
      · exact aside_conclude _ _ _ _
    · exact ⟨rfl, .refl site⟩
  | stamping =>
    simp only [stepBuild]
    split
    · exact ⟨rfl, (of_sent rfl).1⟩
    · exact aside_conclude _ _ _ _
  | scanning stamp flight =>
    simp only [stepBuild]
    split
    · rename_i rows mid hreceive
      exact ⟨rfl, (spares_of_receive hreceive rfl).trans (spares_recordTrail _ _)⟩
    · rename_i e mid hreceive
      exact (aside_conclude _ _ _ _).of_spares (spares_of_receive hreceive rfl)
  | dialing stamp reading keys due =>
    simp only [stepBuild]
    split
    · rename_i listing mid hinstall
      exact (aside_conclude _ _ _ _).of_spares (spares_install hinstall)
    · exact aside_conclude _ _ _ _

theorem aside_stepLooking (who : Nat) (key : ServiceKey) :
    site.Aside (site.stepLooking who key) := by
  unfold stepLooking
  split
  · exact ⟨rfl, .refl site⟩
  · exact ⟨rfl, site.spares_enterGate who⟩
  · exact ⟨rfl, .refl site⟩

theorem aside_stepLocating (key : ServiceKey) (options : List DialOption)
    (flight : Flight .getPrefix) : site.Aside (site.stepLocating key options flight) := by
  unfold stepLocating
  split
  · rename_i rows mid hreceive
    exact ⟨rfl, (spares_of_receive hreceive rfl).trans (spares_recordTrail _ _)⟩
  · rename_i e mid hreceive
    exact ⟨rfl, spares_of_receive hreceive rfl⟩

theorem aside_stepListening (changes : Changes) : site.Aside (site.stepListening changes) := by
  unfold stepListening
  split <;> exact ⟨rfl, .refl site⟩

theorem aside_stepDiscarding (who : Nat) (changes : Changes) (concern : Attribution) :
    site.Aside (site.stepDiscarding who changes concern) := by
  unfold stepDiscarding
  split
  · exact ⟨rfl, site.spares_withCache _⟩
  · split
    · exact aside_refreshNext _ _ _ _
    · exact ⟨rfl, site.spares_enterGate who⟩

/-! ## The watcher and the renewals stay behind the calls -/

theorem isBackground_refreshNext (who : Nat) (changes : Changes) (keys : List ServiceKey) :
    (site.refreshNext who changes keys).1.isBackground = true := by
  cases keys <;> rfl

theorem isBackground_listenAfter (changes : Changes) (e : Error) :
    (site.listenAfter changes e).1.isBackground = true := by
  unfold listenAfter
  split <;> rfl

theorem isBackground_conclude (who : Nat) (errand : Errand) (result : Except Error Listing) :
    (site.conclude who errand result).1.isBackground = true := by
  unfold conclude
  split
  · rfl
  · exact isBackground_refreshNext _ _ _ _
  · rfl
  · exact isBackground_listenAfter _ _ _
  · exact isBackground_listenAfter _ _ _

theorem isBackground_stepBuild (who : Nat) {errand : Errand} {build : Build}
    (h : errand.changes?.isSome = true) :
    (site.stepBuild who errand build).1.isBackground = true := by
  cases build with
  | queued =>
    cases errand with
    | resolve key => cases h
    | refresh | rebuild => rfl
  | stamping =>
    simp only [stepBuild]
    split
    · exact h
    · exact isBackground_conclude _ _ _ _
  | scanning stamp flight =>
    simp only [stepBuild]
    split
    · exact h
    · exact isBackground_conclude _ _ _ _
  | dialing stamp reading keys due =>
    simp only [stepBuild]
    split <;> exact isBackground_conclude _ _ _ _

/-- What goes on behind the calls stays there. -/
theorem isBackground_stepFrom (who : Nat) {progress : Progress} (h : progress.isBackground = true) :
    (site.stepFrom who progress).1.isBackground = true := by
  cases progress with
  | building errand build => exact site.isBackground_stepBuild who h
  | starting => rfl
  | subscribing flight =>
    simp only [stepFrom]
    split <;> rfl
  | listening changes =>
    simp only [stepFrom, stepListening]
    split <;> rfl
  | discarding changes concern =>
    simp only [stepFrom, stepDiscarding]
    split
    · rfl
    · split
      · exact isBackground_refreshNext _ _ _ _
      · rfl
  | renewing key lease renewals =>
    simp only [stepFrom, stepRenewing]
    split
    · rfl
    · rfl
    · split <;> rfl
    · rfl
    · rfl
  | finished outcome => rfl
  | _ => cases h

/-! ## Steps that concern the registration -/

variable (who : Nat)

theorem ensureOpen_eq_ok {registry : Registry} {u : Unit} (h : registry.ensureOpen = .ok u) :
    registry.closed = false := by
  unfold Registry.ensureOpen at h
  split at h
  · cases h
  · simp_all

theorem deed_stepCalling (call : Call) :
    site.Deed who (.calling call) (site.stepCalling who call).1 (site.stepCalling who call).2 := by
  cases call with
  | register service host port =>
    simp only [stepCalling]
    split
    · exact .aside rfl rfl (.refl site) fun h => absurd h Bool.false_ne_true
    · exact .aside rfl rfl (.refl site) fun h => absurd h Bool.false_ne_true
    · rename_i hopen hkey
      exact .comeToRegister (ensureOpen_eq_ok hopen)
  | unregister =>
    simp only [stepCalling]
    split
    · exact .aside rfl rfl (.refl site) fun h => absurd h Bool.false_ne_true
    · rename_i hopen
      exact .comeToUnregister (ensureOpen_eq_ok hopen)
  | getConnections service =>
    simp only [stepCalling]
    split <;> exact .aside rfl rfl (.refl site) fun h => absurd h Bool.false_ne_true
  | getConnection service options =>
    simp only [stepCalling]
    split
    · exact .aside rfl rfl (.refl site) fun h => absurd h Bool.false_ne_true
    · exact .aside rfl rfl (.refl site) fun h => absurd h Bool.false_ne_true
    · exact .aside rfl rfl (of_sent rfl).1 fun h => absurd h Bool.false_ne_true
  | addOptions options => exact .aside rfl rfl (site.spares_withCache _) fun h => absurd h Bool.false_ne_true
  | invalidate => exact .aside rfl rfl (site.spares_withCache _) fun h => absurd h Bool.false_ne_true
  | close =>
    simp only [stepCalling]
    split
    · exact .aside rfl rfl (.refl site) fun h => absurd h Bool.false_ne_true
    · rename_i hopen
      exact .close (by simpa using hopen)

theorem deed_stepRegistering (key : EndpointKey) (stage : Registering) :
    site.Deed who (.registering key stage) (site.stepRegistering key stage).1
      (site.stepRegistering key stage).2 := by
  cases stage with
  | queued =>
    simp only [stepRegistering]
    split
    · rename_i hactive
      exact .begin hactive rfl
    · rename_i current hactive
      split
      · rename_i hlost
        exact .replace hactive hlost rfl
      · rename_i hlost
        exact .turnAway hactive (by simpa using hlost)
  | replacing flight => exact .beginAgain rfl rfl
  | granting flight =>
    simp only [stepRegistering]
    split
    · rename_i hreceive
      exact .grant hreceive rfl
    · rename_i hreceive
      exact .refuse hreceive
  | attaching lease flight =>
    simp only [stepRegistering]
    split
    · rename_i hreceive
      exact .attach hreceive rfl
    · rename_i hreceive
      exact .detach hreceive rfl
  | opening lease flight =>
    simp only [stepRegistering]
    split
    · rename_i mid hreceive
      rw [registry_of_receive hreceive]
      exact .register hreceive
    · rename_i hreceive
      exact .abandon hreceive rfl
  | abandoning cause flight => exact .giveUp rfl
  | leaving outcome => exact .leave

theorem deed_stepUnregistering (closing : Bool) (stage : Unregistering) :
    site.Deed who (.unregistering closing stage) (site.stepUnregistering closing stage).1
      (site.stepUnregistering closing stage).2 := by
  cases stage with
  | queued =>
    simp only [stepUnregistering]
    split
    · rename_i hactive
      exact .lack hactive
    · rename_i current hactive
      exact .remove hactive rfl
  | deleting lease flight => exact .delete rfl rfl
  | revoking deleted flight => exact .revoke rfl
  | leaving outcome =>
    cases closing with
    | true => exact .leaveClosing
    | false => exact .leaveUnregistered

theorem deed_stepRenewing (key : EndpointKey) (lease : LeaseId) (renewals : Renewals) :
    site.Deed who (.renewing key lease renewals) (site.stepRenewing key lease renewals).1
      (site.stepRenewing key lease renewals).2 := by
  unfold stepRenewing
  split
  · exact .renew
  · exact .renew
  · split
    · exact .renew
    · exact .stop
  · exact .stop
  · exact .stop

/-- Every step is a deed. -/
theorem deed_of_stepFrom (progress : Progress) :
    site.Deed who progress (site.stepFrom who progress).1 (site.stepFrom who progress).2 := by
  have haside : ∀ former : Progress, former.isAside = true →
      site.Aside (site.stepFrom who former) →
        site.Deed who former (site.stepFrom who former).1 (site.stepFrom who former).2 :=
    fun former hformer h => .aside hformer h.1 h.2 (site.isBackground_stepFrom who)
  cases progress with
  | calling call => exact site.deed_stepCalling who call
  | looking key => exact haside _ rfl (site.aside_stepLooking who key)
  | building errand build => exact haside _ rfl (site.aside_stepBuild who errand build)
  | locating key options flight => exact haside _ rfl (site.aside_stepLocating key options flight)
  | registering key stage => exact site.deed_stepRegistering who key stage
  | unregistering closing stage => exact site.deed_stepUnregistering who closing stage
  | sealing => exact .shut
  | starting => exact haside _ rfl ⟨rfl, (of_sent rfl).1⟩
  | subscribing flight =>
    refine haside _ rfl ?_
    simp only [stepFrom]
    split
    · rename_i hreceive
      exact ⟨rfl, spares_of_receive hreceive rfl⟩
    · rename_i hreceive
      exact ⟨rfl, spares_of_receive hreceive rfl⟩
  | listening changes => exact haside _ rfl (site.aside_stepListening changes)
  | discarding changes concern => exact haside _ rfl (site.aside_stepDiscarding who changes concern)
  | renewing key lease renewals => exact site.deed_stepRenewing who key lease renewals
  | finished outcome => exact haside _ rfl ⟨rfl, .refl site⟩

/-! ## Moves -/

/-- What a move does to the registration. -/
inductive Acted (site : Site) : Move → Site → Prop
  | deed {who : Nat} {former next : Progress} {mid : Site}
      (hactivity : site.registry.activities[who]? = some ⟨former, false⟩)
      (hready : site.canStep who = true) (hdeed : site.Deed who former next mid)
      (hframe : site.Frame mid) : site.Acted (.step who) (mid.settle who next)
  /-- An activity that was asked to end lets go. -/
  | drop {who : Nat} {former : Progress}
      (hactivity : site.registry.activities[who]? = some ⟨former, true⟩) :
      site.Acted (.step who) ((site.leaveLocks who).settle who (.finished (.ok .done)))
  | call {call : Call} :
      site.Acted (.call call) (site.mapRegistry fun registry => registry.begin (.calling call))
  /-- Another client is served. -/
  | request {m : Method} {request : Request m} {answer : Answer m} {store : Store}
      (hserved : site.store.Served request answer store) :
      site.Acted (.request request) { site with store := store }
  | closeStore : site.Acted .closeStore { site with store := site.store.close }
  /-- Nothing happens that concerns the registration. -/
  | outside {move : Move} {after : Site} (hmove : ∀ who, move ≠ .step who)
      (hcall : ∀ call, move ≠ .call call)
      (hregistry : after.registry = site.registry) (hclient : after.client = site.client)
      (hstore : site.store.SameHoldings after.store)
      (hsound : site.store.Sound → after.store.Sound) : site.Acted move after

/-- Every move is one of these. -/
theorem acted_of_after {site after : Site} {move : Move} (h : site.after move = some after) :
    site.Acted move after := by
  cases move with
  | step who =>
    obtain ⟨hready, rfl⟩ := of_after_step h
    obtain ⟨⟨former, asked⟩, hactivity, hgoing⟩ := of_canStep hready
    simp only [step, hactivity]
    cases asked with
    | false =>
      rw [if_neg (by simp [Activity.isDropped])]
      exact .deed hactivity hready (site.deed_of_stepFrom who former) (site.frame_stepFrom who former)
    | true =>
      have hdropped : Activity.isDropped ⟨former, true⟩ = true := by
        rcases hgoing with hdropped | ⟨-, time, hdue, -⟩
        · exact hdropped
        · cases former with
          | finished outcome => cases hdue
          | _ => rfl
      rw [if_pos hdropped, drop_eq]
      exact .drop hactivity
  | call call =>
    cases h
    exact .call
  | request request =>
    simp only [Site.after] at h
    split at h
    · rename_i answer store hserve
      cases h
      exact .request (Store.served_of_serve hserve)
    · cases h
      exact .outside (by simp) (by simp) rfl rfl (.refl _) id
  | outage unavailable =>
    cases h
    exact .outside (by simp) (by simp) rfl rfl ⟨rfl, rfl, rfl, rfl⟩ fun hsound => hsound.unavailable _
  | closeStore =>
    cases h
    exact .closeStore
  | wait millis =>
    cases h
    exact .outside (by simp) (by simp) rfl rfl (.refl _) id

/-- What an activity does that nobody has asked to end. -/
theorem deed_of_after {site after : Site} {who : Nat} {former : Progress}
    (hactivity : site.registry.activities[who]? = some ⟨former, false⟩)
    (h : site.after (.step who) = some after) :
    ∃ next mid, after = mid.settle who next ∧ site.Deed who former next mid ∧ site.Frame mid := by
  obtain ⟨-, rfl⟩ := of_after_step h
  exact ⟨_, _, step_of_activity hactivity, site.deed_of_stepFrom who former,
    site.frame_stepFrom who former⟩

end Site

end ServiceRegistry
