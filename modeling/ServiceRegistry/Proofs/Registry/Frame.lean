import ServiceRegistry.Registry.Run
import ServiceRegistry.Proofs.Client.Answers

/-!
# What steps leave alone

Whatever an activity does, the configuration and the dialer of its registry stay, others who share the
store see no more of it than requests and the end of the store, no fault is added to those in front of
it, and no other activity is moved: at most it is asked to end. `Frame` collects this for two sites. Each
part of a step has a frame lemma, and frames compose, so `frame_stepFrom` needs no more of a step than
the list of its parts.
-/
namespace ServiceRegistry

/-- Whether the move happens to the store or the clock, and not at the registry. -/
def Move.isForeign : Move → Bool
  | .step _ | .call _ => false
  | _ => true

/-- An activity begins with a call or as the renewal of a lease. -/
def Progress.isBeginning : Progress → Bool
  | .calling _ | .renewing _ _ _ => true
  | _ => false

namespace Site

/-- Where an activity stands. -/
def progress? (site : Site) (who : Nat) : Option Progress :=
  site.registry.activities[who]?.map (·.progress)

theorem progress?_of_activity {site : Site} {who : Nat} {activity : Activity}
    (h : site.registry.activities[who]? = some activity) :
    site.progress? who = some activity.progress := by
  simp [progress?, h]

/-! ## What others see -/

theorem after_of_isForeign {site other next : Site} {move : Move} (hforeign : move.isForeign = true)
    (h : site.after move = some next) (hclock : other.clock = site.clock)
    (hstore : other.store = site.store) :
    other.after move = some { other with clock := next.clock, store := next.store } := by
  cases move with
  | step | call => cases hforeign
  | request request =>
    simp only [Site.after, hclock, hstore] at h ⊢
    split at h
    · cases h
      rw [← hclock]
    · cases h
      rw [← hclock, ← hstore]
  | outage | closeStore | wait =>
    cases h
    simp [Site.after, hclock, hstore]

theorem evolves_of_isForeign {site next : Site} {move : Move} (hforeign : move.isForeign = true)
    (h : site.after move = some next) : site.store.Evolves next.store := by
  cases move with
  | step | call => cases hforeign
  | request request =>
    simp only [Site.after] at h
    split at h
    · rename_i hserve
      cases h
      exact Store.evolves_serve hserve
    · cases h
      exact Store.Evolves.refl _
  | outage =>
    cases h
    exact Store.evolves_unavailable _ _
  | closeStore =>
    cases h
    exact Store.evolves_close _
  | wait =>
    cases h
    exact Store.Evolves.refl _

/-- Who shares store and clock with the site sees what happens at it as foreign moves. -/
def Seen (before after : Site) : Prop :=
  ∃ moves, (∀ move ∈ moves, move.isForeign = true) ∧
    ∀ other : Site, other.clock = before.clock → other.store = before.store →
      other.run moves = some { other with clock := after.clock, store := after.store }

namespace Seen

theorem same {before after : Site} (hclock : after.clock = before.clock)
    (hstore : after.store = before.store) : before.Seen after := by
  refine ⟨[], nofun, fun other hbefore hshared => ?_⟩
  rw [run_nil, hclock, hstore, ← hbefore, ← hshared]

theorem of_after {before next after : Site} {move : Move} (hforeign : move.isForeign = true)
    (h : before.after move = some next) (hclock : after.clock = next.clock)
    (hstore : after.store = next.store) : before.Seen after := by
  refine ⟨[move], by simpa using hforeign, fun other hbefore hshared => ?_⟩
  rw [run_cons, after_of_isForeign hforeign h hbefore hshared, hclock, hstore]
  rfl

theorem trans {first second third : Site} (h : first.Seen second) (h' : second.Seen third) :
    first.Seen third := by
  obtain ⟨moves, hforeign, hrun⟩ := h
  obtain ⟨later, hlater, hrest⟩ := h'
  refine ⟨moves ++ later, ?_, fun other hclock hstore => ?_⟩
  · intro move hmem
    exact (List.mem_append.1 hmem).elim (hforeign move) (hlater move)
  · rw [run_append, hrun other hclock hstore]
    exact hrest _ rfl rfl

theorem evolves {before after : Site} (h : before.Seen after) :
    before.store.Evolves after.store := by
  obtain ⟨moves, hforeign, hrun⟩ := h
  have hevolves : ∀ (site final : Site), site.run moves = some final →
      final.store = after.store → site.store.Evolves after.store := by
    clear hrun
    induction moves with
    | nil =>
      intro site final hrun hfinal
      cases hrun
      exact hfinal ▸ Store.Evolves.refl _
    | cons move moves ih =>
      intro site final hrun hfinal
      obtain ⟨next, hnext, hrest⟩ := Option.bind_eq_some_iff.1 ((run_cons _ _ _).symm.trans hrun)
      exact (evolves_of_isForeign (hforeign move List.mem_cons_self) hnext).trans
        (ih (fun move hmem => hforeign move (List.mem_cons_of_mem _ hmem)) next final hrest hfinal)
  exact hevolves before _ (hrun before rfl rfl) rfl

end Seen

/-! ## What stays -/

/-- What a part of a step leaves alone. -/
structure Frame (before after : Site) : Prop where
  config : after.registry.config = before.registry.config
  dialer : after.registry.dialer = before.registry.dialer
  seen : before.Seen after
  faults : before.client.faults.Leaves after.client.faults
  kept : ∀ (who : Nat) (activity : Activity), before.registry.activities[who]? = some activity →
    ∃ cancelled, after.registry.activities[who]? = some ⟨activity.progress, cancelled⟩ ∧
      (activity.cancelled = true → cancelled = true)
  begun : ∀ who progress, after.progress? who = some progress →
    before.progress? who = some progress ∨
      before.registry.activities.length ≤ who ∧ progress.isBeginning = true
  /-- A registry that closes asks its watcher to end. -/
  closed : after.registry.closed = before.registry.closed ∨
    (before.registry.activities ≠ [] →
      ∃ progress, after.registry.activities[Registry.watcher]? = some ⟨progress, true⟩)

namespace Frame

theorem store {before after : Site} (h : before.Frame after) :
    before.store.Evolves after.store := h.seen.evolves

/-- Where the activities are the same, only the link has to be looked at. -/
theorem of_eq {before after : Site} (hconfig : after.registry.config = before.registry.config)
    (hdialer : after.registry.dialer = before.registry.dialer)
    (hactivities : after.registry.activities = before.registry.activities)
    (hclosed : after.registry.closed = before.registry.closed)
    (hseen : before.Seen after) (hfaults : before.client.faults.Leaves after.client.faults) :
    before.Frame after := by
  refine ⟨hconfig, hdialer, hseen, hfaults, ?_, ?_, .inl hclosed⟩
  · intro who activity hactivity
    exact ⟨activity.cancelled, hactivities ▸ hactivity, id⟩
  · intro who progress hprogress
    left
    rwa [progress?, hactivities] at hprogress

theorem refl (site : Site) : site.Frame site :=
  of_eq rfl rfl rfl rfl (.same rfl rfl) (.refl _)

theorem length_le {before after : Site} (h : before.Frame after) :
    before.registry.activities.length ≤ after.registry.activities.length := by
  by_contra hlt
  have hlt : after.registry.activities.length < before.registry.activities.length := by omega
  obtain ⟨cancelled, hafter, -⟩ := h.kept _ _ (List.getElem?_eq_getElem hlt)
  simp at hafter

theorem trans {first second third : Site} (h : first.Frame second) (h' : second.Frame third) :
    first.Frame third := by
  refine ⟨h'.config.trans h.config, h'.dialer.trans h.dialer,
    h.seen.trans h'.seen, h.faults.trans h'.faults, ?_, ?_, ?_⟩
  · intro who activity hactivity
    obtain ⟨asked, hsecond, hasked⟩ := h.kept who activity hactivity
    obtain ⟨cancelled, hthird, hcancelled⟩ := h'.kept who _ hsecond
    exact ⟨cancelled, hthird, fun hwas => hcancelled (hasked hwas)⟩
  · intro who progress hprogress
    rcases h'.begun who progress hprogress with hsecond | ⟨hlate, hbegins⟩
    · exact h.begun who progress hsecond
    · exact .inr ⟨h.length_le.trans hlate, hbegins⟩
  · rcases h'.closed with hsame' | hasked
    · rcases h.closed with hsame | hasked
      · exact .inl (hsame'.trans hsame)
      · right
        intro hne
        obtain ⟨progress, hsecond⟩ := hasked hne
        obtain ⟨cancelled, hthird, hcancelled⟩ := h'.kept _ _ hsecond
        exact ⟨progress, hcancelled rfl ▸ hthird⟩
    · right
      intro hne
      have hlength := h.length_le
      have hpos := List.length_pos_of_ne_nil hne
      exact hasked (List.ne_nil_of_length_pos (by omega))

end Frame

/-! ## The parts of steps -/

variable (site : Site)

theorem frame_mapRegistrar (f : Registrar → Registrar) : site.Frame (site.mapRegistrar f) :=
  .of_eq rfl rfl rfl rfl (.same rfl rfl) (.refl _)

theorem frame_publish (status : LeaseStatus) : site.Frame (site.publish status) :=
  site.frame_mapRegistrar _

theorem frame_setActive (active : Option Active) : site.Frame (site.setActive active) :=
  site.frame_mapRegistrar _

theorem frame_enterRegistrar (who : Nat) : site.Frame (site.enterRegistrar who) :=
  site.frame_mapRegistrar _

theorem frame_releaseRegistrar : site.Frame site.releaseRegistrar := site.frame_mapRegistrar _

theorem frame_withCache (cache : Cache) : site.Frame (site.withCache cache) :=
  .of_eq rfl rfl rfl rfl (.same rfl rfl) (.refl _)

theorem frame_enterGate (who : Nat) : site.Frame (site.enterGate who) :=
  .of_eq rfl rfl rfl rfl (.same rfl rfl) (.refl _)

theorem frame_releaseGate : site.Frame site.releaseGate :=
  .of_eq rfl rfl rfl rfl (.same rfl rfl) (.refl _)

theorem registry_of_send {site after : Site} {m : Method} {request : Request m} {flight : Flight m}
    (h : site.send request = (flight, after)) : after.registry = site.registry := by
  have hafter : after = (site.send request).2 := by rw [h]
  rw [hafter]
  rfl

theorem registry_of_receive {site after : Site} {m : Method} {flight : Flight m}
    {answer : Except Error (Answer m)} (h : site.receive flight = (answer, after)) :
    after.registry = site.registry := by
  have hafter : after = (site.receive flight).2 := by rw [h]
  rw [hafter]
  rfl

theorem frame_send {m : Method} (request : Request m) : site.Frame (site.send request).2 := by
  refine .of_eq rfl rfl rfl rfl
    (.same (site.toLink.clock_send request) (site.toLink.store_send request)) ?_
  show site.client.faults.Leaves (site.toLink.send request).2.client.faults
  rw [Link.faults_send]
  exact Faults.leaves_spend _ _

/-- An answer is taken from a request that is carried out, or without the store. -/
theorem seen_receive {m : Method} (flight : Flight m) : site.Seen (site.receive flight).2 := by
  have hclock : (site.receive flight).2.clock = site.clock := site.toLink.clock_receive flight
  rcases site.toLink.receive_cases flight with ⟨answer, store, hserve, hstore⟩ | ⟨hsame, -⟩
  · have hafter : site.after (.request flight.request) = some { site with store := store } := by
      simp only [Site.after, hserve]
    exact .of_after rfl hafter hclock hstore
  · exact .same hclock hsame

theorem frame_receive {m : Method} (flight : Flight m) : site.Frame (site.receive flight).2 := by
  refine .of_eq rfl rfl rfl rfl (site.seen_receive flight) ?_
  show site.client.faults.Leaves (site.toLink.receive flight).2.client.faults
  rw [Link.client_receive]
  exact .refl _

theorem faults_recordAll (client : Client) (events : List ClientEvent) :
    (client.recordAll events).faults = client.faults := by
  unfold Client.recordAll
  induction events generalizing client with
  | nil => rfl
  | cons event events ih => exact ih (client.record event)

theorem frame_recordTrail (trail : List EndpointEvent) : site.Frame (site.recordTrail trail) := by
  refine .of_eq rfl rfl rfl rfl (.same rfl rfl) ?_
  show site.client.faults.Leaves (site.client.recordAll (trail.map .endpoint)).faults
  rw [faults_recordAll]
  exact .refl _

theorem frame_cancel (who : Nat) :
    site.Frame (site.mapRegistry fun registry => registry.cancel who) := by
  refine ⟨rfl, rfl, .same rfl rfl, .refl _, ?_, ?_, .inl rfl⟩
  · intro other activity hactivity
    by_cases hwho : who = other
    · exact ⟨true, by simp [mapRegistry, Registry.cancel, hwho, hactivity], fun _ => rfl⟩
    · exact ⟨activity.cancelled, by simp [mapRegistry, Registry.cancel, hwho, hactivity], id⟩
  · intro other progress hprogress
    left
    simp only [progress?, mapRegistry, Registry.cancel, List.getElem?_modify] at hprogress ⊢
    cases hactivity : site.registry.activities[other]? with
    | none => simp [hactivity] at hprogress
    | some activity =>
      rw [hactivity] at hprogress
      split at hprogress <;> simpa using hprogress

/-- The registry closes and its watcher is asked to end. -/
theorem frame_closing : site.Frame (site.mapRegistry fun registry =>
    { registry with closed := true }.cancel Registry.watcher) := by
  have h := frame_cancel (site.mapRegistry fun registry => { registry with closed := true })
    Registry.watcher
  refine ⟨h.config, h.dialer, h.seen, h.faults, h.kept, h.begun, .inr fun hne => ?_⟩
  obtain ⟨activity, rest, hactivities⟩ := List.exists_cons_of_ne_nil hne
  exact ⟨activity.progress, by simp [mapRegistry, Registry.cancel, Registry.watcher, hactivities]⟩

theorem frame_begin {progress : Progress} (hbegins : progress.isBeginning = true) :
    site.Frame (site.mapRegistry fun registry => registry.begin progress) := by
  refine ⟨rfl, rfl, .same rfl rfl, .refl _, ?_, ?_, .inl rfl⟩
  · intro who activity hactivity
    refine ⟨activity.cancelled, ?_, id⟩
    have hlt := (List.getElem?_eq_some_iff.1 hactivity).1
    simp only [mapRegistry, Registry.begin, List.getElem?_append_left hlt]
    exact hactivity
  · intro who other hother
    simp only [progress?, mapRegistry, Registry.begin] at hother ⊢
    by_cases hlt : who < site.registry.activities.length
    · left
      rwa [List.getElem?_append_left hlt] at hother
    · right
      have hle : site.registry.activities.length ≤ who := by omega
      rw [List.getElem?_append_right hle] at hother
      obtain ⟨activity, hactivity, rfl⟩ := Option.map_eq_some_iff.1 hother
      rw [List.mem_singleton.1 (List.mem_of_getElem? hactivity)]
      exact ⟨hle, hbegins⟩

/-! ## Whole steps -/

theorem frame_refreshNext (who : Nat) (changes : Changes) (keys : List ServiceKey) :
    site.Frame (site.refreshNext who changes keys).2 := by
  cases keys with
  | nil => exact .refl site
  | cons key rest => exact site.frame_enterGate who

theorem frame_listenAfter (changes : Changes) (e : Error) :
    site.Frame (site.listenAfter changes e).2 := by
  unfold listenAfter
  split <;> exact .refl site

theorem frame_conclude (who : Nat) (errand : Errand) (result : Except Error Listing) :
    site.Frame (site.conclude who errand result).2 := by
  refine site.frame_releaseGate.trans ?_
  unfold conclude
  split
  · exact .refl _
  · exact frame_refreshNext _ _ _ _
  · exact .refl _
  · exact frame_listenAfter _ _ _
  · exact frame_listenAfter _ _ _

theorem frame_install {site after : Site} {errand : Errand} {stamp : Stamp} {reading : Reading}
    {keys : List EndpointKey} {listing : Listing}
    (h : site.install errand stamp reading keys = .ok (listing, after)) : site.Frame after := by
  cases errand with
  | resolve key =>
    obtain ⟨cache, -, hafter⟩ := of_map_ok h
    cases hafter
    exact site.frame_withCache cache
  | refresh key rest changes =>
    obtain ⟨cache, -, hafter⟩ := of_map_ok h
    cases hafter
    exact site.frame_withCache cache
  | rebuild changes =>
    obtain ⟨cache, -, hafter⟩ := of_map_ok h
    cases hafter
    exact site.frame_withCache cache

theorem frame_stepBuild (who : Nat) (errand : Errand) (build : Build) :
    site.Frame (site.stepBuild who errand build).2 := by
  cases build with
  | queued =>
    simp only [stepBuild]
    split
    · split
      · exact .refl _
      · exact frame_conclude _ _ _ _
      · exact frame_conclude _ _ _ _
    · exact .refl _
  | stamping =>
    simp only [stepBuild]
    split
    · exact site.frame_send _
    · exact frame_conclude _ _ _ _
  | scanning stamp flight =>
    have hreceive := site.frame_receive flight
    simp only [stepBuild]
    split
    · rename_i rows after hafter
      rw [hafter] at hreceive
      exact hreceive.trans (frame_recordTrail _ _)
    · rename_i e after hafter
      rw [hafter] at hreceive
      exact hreceive.trans (frame_conclude _ _ _ _)
  | dialing stamp reading keys due =>
    simp only [stepBuild]
    split
    · rename_i listing after hafter
      exact (frame_install hafter).trans (frame_conclude _ _ _ _)
    · exact frame_conclude _ _ _ _

theorem frame_startGranting (key : EndpointKey) : site.Frame (site.startGranting key).2 :=
  (site.frame_publish _).trans (frame_send _ _)

theorem frame_startAbandoning (key : EndpointKey) (lease : LeaseId) (cause : Error) :
    site.Frame (site.startAbandoning key lease cause).2 :=
  site.frame_send _

theorem frame_stepRegistering (key : EndpointKey) (stage : Registering) :
    site.Frame (site.stepRegistering key stage).2 := by
  cases stage with
  | queued =>
    simp only [stepRegistering]
    split
    · exact site.frame_startGranting key
    · split
      · exact ((site.frame_setActive _).trans (frame_cancel _ _)).trans (frame_send _ _)
      · exact .refl _
  | replacing flight => exact (site.frame_receive flight).trans (frame_startGranting _ _)
  | granting flight =>
    have hreceive := site.frame_receive flight
    simp only [stepRegistering]
    split
    · rename_i lease after hafter
      rw [hafter] at hreceive
      exact hreceive.trans (frame_send _ _)
    · rename_i e after hafter
      rw [hafter] at hreceive
      exact hreceive.trans (frame_publish _ _)
  | attaching lease flight =>
    have hreceive := site.frame_receive flight
    simp only [stepRegistering]
    split
    · rename_i after hafter
      rw [hafter] at hreceive
      exact hreceive.trans (frame_send _ _)
    · rename_i e after hafter
      rw [hafter] at hreceive
      exact hreceive.trans (frame_startAbandoning _ _ _ _)
  | opening lease flight =>
    have hreceive := site.frame_receive flight
    simp only [stepRegistering]
    split
    · rename_i renewals after hafter
      rw [hafter] at hreceive
      exact ((hreceive.trans (frame_publish _ _)).trans (frame_begin _ rfl)).trans
        (frame_setActive _ _)
    · rename_i e after hafter
      rw [hafter] at hreceive
      exact hreceive.trans (frame_startAbandoning _ _ _ _)
  | abandoning cause flight => exact (site.frame_receive flight).trans (frame_publish _ _)
  | leaving outcome => exact site.frame_releaseRegistrar

theorem frame_stepUnregistering (closing : Bool) (stage : Unregistering) :
    site.Frame (site.stepUnregistering closing stage).2 := by
  cases stage with
  | queued =>
    simp only [stepUnregistering]
    split
    · exact .refl _
    · exact (((site.frame_setActive _).trans (frame_publish _ _)).trans
        (frame_cancel _ _)).trans (frame_send _ _)
  | deleting lease flight => exact (site.frame_receive flight).trans (frame_send _ _)
  | revoking deleted flight => exact (site.frame_receive flight).trans (frame_publish _ _)
  | leaving outcome => exact site.frame_releaseRegistrar

theorem frame_stepRenewing (key : EndpointKey) (lease : LeaseId) (renewals : Renewals) :
    site.Frame (site.stepRenewing key lease renewals).2 := by
  have hstopped : site.Frame (site.mapRegistrar fun registrar => registrar.lose key lease) :=
    site.frame_mapRegistrar _
  unfold stepRenewing
  split
  · exact .refl _
  · exact .refl _
  · split
    · exact .refl _
    · exact hstopped
  · exact hstopped
  · exact hstopped

theorem frame_stepCalling (who : Nat) (call : Call) :
    site.Frame (site.stepCalling who call).2 := by
  cases call with
  | register service host port =>
    simp only [stepCalling]
    split
    · exact .refl _
    · exact .refl _
    · exact site.frame_enterRegistrar who
  | unregister =>
    simp only [stepCalling]
    split
    · exact .refl _
    · exact site.frame_enterRegistrar who
  | getConnections service =>
    simp only [stepCalling]
    split <;> exact .refl _
  | getConnection service options =>
    simp only [stepCalling]
    split
    · exact .refl _
    · exact .refl _
    · exact site.frame_send _
  | addOptions options => exact site.frame_withCache _
  | invalidate => exact site.frame_withCache _
  | close =>
    simp only [stepCalling]
    split
    · exact .refl _
    · exact site.frame_closing.trans (frame_enterRegistrar _ _)

/-- What any step leaves alone before the activity is moved on. -/
theorem frame_stepFrom (who : Nat) (progress : Progress) :
    site.Frame (site.stepFrom who progress).2 := by
  cases progress with
  | calling call => exact site.frame_stepCalling who call
  | looking key =>
    simp only [stepFrom, stepLooking]
    split
    · exact .refl _
    · exact site.frame_enterGate who
    · exact .refl _
  | building errand build => exact site.frame_stepBuild who errand build
  | locating key options flight =>
    have hreceive := site.frame_receive flight
    simp only [stepFrom, stepLocating]
    split
    · rename_i rows after hafter
      rw [hafter] at hreceive
      exact hreceive.trans (frame_recordTrail _ _)
    · rename_i e after hafter
      rw [hafter] at hreceive
      exact hreceive
  | registering key stage => exact site.frame_stepRegistering key stage
  | unregistering closing stage => exact site.frame_stepUnregistering closing stage
  | sealing =>
    have hclose : site.after .closeStore = some { site with store := site.store.close } := rfl
    exact .of_eq rfl rfl rfl rfl (.of_after rfl hclose rfl rfl) (.refl _)
  | starting => exact site.frame_send _
  | subscribing flight =>
    have hreceive := site.frame_receive flight
    simp only [stepFrom]
    split
    · rename_i changes after hafter
      rw [hafter] at hreceive
      exact hreceive
    · rename_i e after hafter
      rw [hafter] at hreceive
      exact hreceive
  | listening changes =>
    simp only [stepFrom, stepListening]
    split <;> exact .refl _
  | discarding changes concern =>
    simp only [stepFrom, stepDiscarding]
    split
    · exact site.frame_withCache _
    · split
      · exact site.frame_refreshNext _ _ _
      · exact site.frame_enterGate who
  | renewing key lease renewals => exact site.frame_stepRenewing key lease renewals
  | finished outcome => exact .refl _

end Site

end ServiceRegistry
