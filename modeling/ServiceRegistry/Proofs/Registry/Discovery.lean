import ServiceRegistry.Proofs.Registry.Attendance
import ServiceRegistry.Proofs.Registry.Presence
import ServiceRegistry.Proofs.Registry.Reception
import ServiceRegistry.Proofs.Store.Addresses

/-!
# Registered instances are found

What one registry registers, another one with the same root hands out as soon as its watcher rests: the
registration was published, so what the reader shows has been read since, and the caller is handed what
stands in the store. The same goes for an instance that was unregistered. An instance whose key cannot be
read back, or whose address cannot be dialed, is handed out by nobody, although it can be registered.
-/
namespace ServiceRegistry

/-! ## What is handed out at rest -/

/-- To a dialer that connects to everything only the address of an instance matters. -/
theorem Dialing.reaches_of_accepts {dialing : Dialing}
    (haccepts : ∀ time endpoint, dialing.dialer.accepts time endpoint = true) (key : EndpointKey) :
    dialing.reaches key = (Uri.ofAddress key.address).toOption.isSome := by
  unfold reaches Endpoint.build Endpoint.ofAddress
  cases Uri.ofAddress key.address with
  | error e => rfl
  | ok uri => exact haccepts _ _

/-- An instance is found once if it can be used and stands in the store, and else not at all. -/
theorem Store.count_address_reached (store : Store) {dialing : Dialing}
    (haccepts : ∀ time endpoint, dialing.dialer.accepts time endpoint = true) {root service host : String}
    {port : Nat} {key : EndpointKey} (hkey : EndpointKey.make root service host port = .ok key) :
    (((store.instances root key.service).filter dialing.reaches).map (·.address)).count
        (EndpointKey.addressOf host port) =
      if EndpointKey.isUsable host port = true ∧ (store.content.get? key.text).isSome = true
        then 1 else 0 := by
  obtain ⟨rfl, haddress⟩ : key.service.root = root ∧ key.address = EndpointKey.addressOf host port := by
    obtain ⟨name, hname, rfl⟩ := of_map_ok hkey
    exact ⟨(ServiceKey.make_eq_ok_iff.1 hname).1, rfl⟩
  rw [← haddress, store.count_address_instances]
  refine if_congr ?_ rfl rfl
  rw [store.mem_instances_iff, EndpointKey.parse_text_iff hkey, Dialing.reaches_of_accepts haccepts,
    haddress, EndpointKey.isUsable_iff]
  tauto

namespace Site

/-- Who calls here for a service is served, and whoever is served before anything is published is handed
this number of connections to the target. -/
structure Hands (site : Site) (service target : String) (number : Nat) : Prop where
  served : ∃ moves later listing, site.run (.call (.getConnections service) :: moves) = some later ∧
    later.store.revision = site.store.revision ∧
    later.progress? site.registry.activities.length = some (.finished (.ok (.connections listing)))
  /-- Nobody fails as long as the store answers and the registry is open. -/
  answered : ∀ moves later who outcome, site.run moves = some later →
    (∀ entry ∈ site.history moves, entry.1.store.check = .ok ()) → later.registry.closed = false →
    Calls (site.history moves) who (.getConnections service) →
    later.progress? who = some (.finished outcome) → ∃ listing, outcome = .ok (.connections listing)
  right : ∀ moves later who listing, site.run moves = some later →
    later.store.revision = site.store.revision →
    Calls (site.history moves) who (.getConnections service) →
    later.progress? who = some (.finished (.ok (.connections listing))) →
    (listing.connections.map (·.target)).count target = number

section
variable {store : Store} {config : Config} {dialer : Dialer} {faults : Faults}
  {moves before later : List Move} {opening there : Site}

/-- An instance that cannot be used is handed out by nobody, whenever the list was read. -/
theorem count_of_not_usable (hgenuine : faults.Genuine .getPrefix)
    (hrun : (start store config dialer faults).run moves = some there)
    (haccepts : ∀ time endpoint, there.registry.dialer.accepts time endpoint = true)
    {service host : String} {port who : Nat} {key : EndpointKey} {listing : Listing}
    (hkey : EndpointKey.make config.root service host port = .ok key)
    (hunusable : ¬ EndpointKey.isUsable host port = true)
    (hcall : Calls ((start store config dialer faults).history moves) who (.getConnections service))
    (hlisting : there.progress? who = some (.finished (.ok (.connections listing)))) :
    (listing.connections.map (·.target)).count (EndpointKey.addressOf host port) = 0 := by
  obtain ⟨name, n, stamp, hname, hfound, -⟩ :=
    (Ordered.of_run hrun).returned who service listing hcall hlisting
  obtain ⟨other, hother, rfl⟩ := of_map_ok hkey
  rw [hname] at hother
  cases hother
  obtain ⟨early, -, -, -, -, -, -, htargets⟩ := hfound.targets hgenuine hrun
  rw [htargets]
  exact (early.store.count_address_reached haccepts hkey).trans (if_neg fun h => hunusable h.1)

/-- At rest an instance is handed out once if it can be used and stands in the store, and else not at all,
if the subscription was opened in time for what can be read. -/
theorem Rests.hands (hrests : there.Rests) (hrows : faults .getPrefix = [])
    (hwatch : faults.Genuine .watch)
    (hrun : (start store config dialer faults).run moves = some there)
    (hmoves : moves = before ++ .step Registry.watcher :: later)
    (hbefore : (start store config dialer faults).run before = some opening) (hopens : opening.Opens)
    (hanswered : ∀ early errand,
      (early, .step Registry.watcher) ∈ (start store config dialer faults).history moves →
        ¬ early.Fails Registry.watcher errand)
    (hanswers : there.store.check = .ok ())
    (haccepts : ∀ time endpoint, there.registry.dialer.accepts time endpoint = true)
    {service host : String} {port : Nat} {key : EndpointKey}
    (hkey : EndpointKey.make config.root service host port = .ok key)
    (hintime : EndpointKey.isUsable host port = true →
      OpensInTime (start store config dialer faults) before opening there config.root key.service) :
    there.Hands service (EndpointKey.addressOf host port)
      (if EndpointKey.isUsable host port = true ∧ (there.store.content.get? key.text).isSome = true
        then 1 else 0) := by
  have hgenuine : faults.Genuine .getPrefix := by
    intro fault hfault
    rw [hrows] at hfault
    cases hfault
  obtain ⟨name, hname, rfl⟩ := of_map_ok hkey
  refine ⟨hrests.served hrun hrows hanswers hname, ?_, ?_⟩
  · intro further final who outcome hfurther hchecks hopen hcall hended
    obtain ⟨progress, hprogress, hresolves⟩ :=
      resolves_of_run hrun hfurther hrows hname hchecks hopen hcall
    rw [hended] at hprogress
    cases hprogress
    exact hresolves.listing
  · intro further final who listing hfurther hrevision hcall hlisting
    by_cases husable : EndpointKey.isUsable host port = true
    · obtain ⟨options, time, htargets⟩ := hrests.targets hgenuine hwatch hrun hmoves hbefore hopens hanswered
        hname (hintime husable) hfurther hrevision hcall hlisting
      rw [htargets]
      exact there.store.count_address_reached haccepts hkey
    · have hall : (start store config dialer faults).run (moves ++ further) = some final := by
        rw [run_append, hrun, Option.bind_some, hfurther]
      have hmade : Calls ((start store config dialer faults).history (moves ++ further)) who
          (.getConnections service) := by
        rw [history_append hrun]
        exact hcall.mono (List.subset_append_right _ _)
      have hconnects : ∀ time endpoint, final.registry.dialer.accepts time endpoint = true := by
        rw [(precedes_of_run hfurther).dialer]
        exact haccepts
      rw [if_neg fun h => husable h.1]
      exact count_of_not_usable hgenuine hall hconnects hkey husable hmade hlisting

end

end Site

/-! ## In a fleet -/

namespace Fleet

/-- Nothing is laid between the registries and the store, and the store answers throughout. -/
structure Untroubled (first : Fleet) (moves : List Move) (final : Fleet) : Prop where
  faults : ∀ config dialer faults, .join config dialer faults ∈ moves → faults = Faults.none
  answers : ∀ past move later, first.Made moves past move later → past.store.check = .ok ()
  last : final.store.check = .ok ()

/-- The member has read nothing before what is left of the run. -/
def Unread (first : Fleet) (moves : List Move) (number : Nat) (left : List Move) : Prop :=
  ∀ past who rest site errand stamp rows, first.Made moves past (.member number (.step who)) rest →
    left <:+ rest → past.site? number = some site → ¬ site.Scans who errand stamp rows

/-- A call to unregister that has taken the registration of the key has returned without an error, and
nobody has put the key there since. -/
def Unregistered (first : Fleet) (moves : List Move) (final : Fleet) (key : EndpointKey) : Prop :=
  ∃ taken number who later site last current,
    first.Made moves taken (.member number (.step who)) later ∧ taken.site? number = some site ∧
      site.Takes false who current ∧ current.key = key ∧ final.site? number = some last ∧
      last.progress? who = some (.finished (.ok .done)) ∧
      taken.KeepsOut (.member number (.step who) :: later) key.text

theorem Untroubled.genuine {first final : Fleet} {moves : List Move} (h : first.Untroubled moves final)
    (m : Method) (config : Config) (dialer : Dialer) (faults : Faults)
    (hjoin : .join config dialer faults ∈ moves) : faults.Genuine m := by
  rw [h.faults config dialer faults hjoin]
  exact Faults.genuine_none m

theorem Unregistered.get? {store : Store} {moves : List Move} {final : Fleet} {key : EndpointKey}
    (h : (start store).Unregistered moves final key) (hrun : (start store).run moves = some final)
    (huntroubled : (start store).Untroubled moves final) :
    final.store.content.get? key.text = none := by
  obtain ⟨taken, number, who, later, site, last, current, hmade, hsite, htakes, rfl, hlast, hdone,
    hout⟩ := h
  exact unregistered_of_run hrun (huntroubled.genuine .delete) hmade hsite htakes hlast hdone hout

/-- No reading of a member fails. -/
theorem Untroubled.not_fails {store : Store} {moves later : List Move} {past final : Fleet}
    {number who : Nat} {site : Site} (h : (start store).Untroubled moves final)
    (hmade : (start store).Made moves past (.member number (.step who)) later)
    (hsite : past.site? number = some site) (errand : Errand) : ¬ site.Fails who errand := by
  obtain ⟨config, dialer, faults, own, hjoin, hown⟩ := hmade.site_of_run hsite
  obtain rfl := h.faults config dialer faults hjoin
  refine (Site.unhindered_of_run rfl hown).not_fails ?_ who errand
  rw [store_of_site? hsite]
  exact h.answers _ _ _ hmade

/-- A reader whose watcher rests hands out what stands in the store and can be used, if it has heard of the
key since it has subscribed, or had read nothing before. -/
theorem hands_of_run {store : Store} {moves later : List Move} {opened final : Fleet} {reader : Nat}
    {opening there : Site} (hrun : (start store).run moves = some final)
    (huntroubled : (start store).Untroubled moves final) (hthere : final.site? reader = some there)
    (hrests : there.Rests) (haccepts : ∀ time endpoint, there.registry.dialer.accepts time endpoint = true)
    (hsubscribes : (start store).Made moves opened (.member reader (.step Registry.watcher)) later)
    (hopening : opened.site? reader = some opening) (hopens : opening.Opens) {service host : String}
    {port : Nat} {key : EndpointKey}
    (hkey : EndpointKey.make there.registry.config.root service host port = .ok key)
    (hintime : final.store.Published opened.store.revision key.text ∨
      (start store).Unread moves reader (.member reader (.step Registry.watcher) :: later)) :
    there.Hands service (EndpointKey.addressOf host port)
      (if EndpointKey.isUsable host port = true ∧ (final.store.content.get? key.text).isSome = true
        then 1 else 0) := by
  have hstore := store_of_site? hthere
  have hrest := hsubscribes.rest hrun
  obtain ⟨before, rfl, hbefore⟩ := id hsubscribes
  obtain ⟨config, dialer, faults, front, back, hjoin, hfront, hall, hearly, hfollows⟩ :=
    split_of_run hbefore hrest hopening hthere
  obtain rfl := huntroubled.faults config dialer faults (List.mem_append_left _ hjoin)
  rw [(Site.precedes_of_run hall).config] at hkey
  rw [← hstore] at hintime ⊢
  refine hrests.hands rfl (Faults.genuine_none _) hall rfl hfront hopens ?_ ?_ haccepts hkey ?_
  · intro early errand hmem
    obtain ⟨fleet, left, hmade, hsite⟩ := hfollows early _ hmem
    exact huntroubled.not_fails hmade hsite errand
  · rw [hstore]
    exact huntroubled.last
  · intro husable
    rcases hintime with hpublished | hunread
    · rw [← store_of_site? hopening] at hpublished
      exact .inr (hpublished.not_silent
        ((EndpointKey.parse_text_iff hkey).2 (EndpointKey.isUsable_iff.1 husable).1))
    · refine .inl fun early who errand stamp rows hmem => ?_
      obtain ⟨fleet, left, hmade, hsite⟩ := hearly early who hmem
      exact hunread fleet who _ early errand stamp rows (hmade.append _) (List.suffix_append _ _) hsite

end Fleet

/-- An instance that was registered is handed out once by every registry with the same root whose watcher
rests, if it can be used, and else not at all, as long as nobody else takes its key away; and it is handed
out no more after it was unregistered. -/
theorem handed_out_while_registered {store : Store} {moves since later : List Fleet.Move}
    {asked opened final : Fleet} {number reader : Nat} {caller called opening there : Site}
    {service host : String} {port : Nat}
    (hrun : (Fleet.start store).run moves = some final)
    (huntroubled : (Fleet.start store).Untroubled moves final)
    (hcall : (Fleet.start store).Made moves asked
      (.member number (.call (.register service host port))) since)
    (hcaller : asked.site? number = some caller) (hcalled : final.site? number = some called)
    (hregistered : called.progress? caller.registry.activities.length = some (.finished (.ok .done)))
    (hthere : final.site? reader = some there) (hrests : there.Rests)
    (hroot : there.registry.config.root = caller.registry.config.root)
    (haccepts : ∀ time endpoint, there.registry.dialer.accepts time endpoint = true)
    (hsubscribes : (Fleet.start store).Made moves opened (.member reader (.step Registry.watcher)) later)
    (hopening : opened.site? reader = some opening) (hopens : opening.Opens)
    (hbeforehand : .member number (.call (.register service host port)) :: since <:+ later ∨
      (Fleet.start store).Unread moves reader (.member reader (.step Registry.watcher) :: later)) :
    ∃ key, EndpointKey.make caller.registry.config.root service host port = .ok key ∧
      (asked.Keeps (.member number (.call (.register service host port)) :: since)
          (.member number (.step caller.registry.activities.length)) key.text →
        there.Hands service (EndpointKey.addressOf host port)
          (if EndpointKey.isUsable host port then 1 else 0)) ∧
      ((Fleet.start store).Unregistered moves final key →
        there.Hands service (EndpointKey.addressOf host port) 0) := by
  obtain ⟨key, hkey, hpublished, hstands⟩ :=
    Fleet.registered_of_run hrun (huntroubled.genuine .put) hcall hcaller hcalled hregistered
  have hhands := Fleet.hands_of_run hrun huntroubled hthere hrests haccepts hsubscribes hopening hopens
    (hroot ▸ hkey) (hbeforehand.imp_left fun hlater =>
      hpublished.mono (hsubscribes.evolves hcall hlater).revision_le)
  refine ⟨key, hkey, fun hkeeps => ?_, fun hunregistered => ?_⟩
  · simpa [hstands hkeeps] using hhands
  · simpa [hunregistered.get? hrun huntroubled] using hhands

/-! ## Runs in which this happens -/

namespace Fleet

/-- Whether a test holds of every move of a run, with the fleets before and after it. -/
def every (test : Fleet → Move → Fleet → Bool) : Fleet → List Move → Bool
  | _, [] => true
  | first, move :: moves =>
    match first.after move with
    | some next => test first move next && every test next moves
    | none => true

theorem of_every {test : Fleet → Move → Fleet → Bool} {first past next : Fleet} {moves later : List Move}
    {move : Move} (h : every test first moves = true) (hmade : first.Made moves past move later)
    (hmove : past.after move = some next) : test past move next = true := by
  obtain ⟨before, rfl, hbefore⟩ := hmade
  induction before generalizing first with
  | nil =>
    cases hbefore
    simp only [List.nil_append, every, hmove, Bool.and_eq_true] at h
    exact h.1
  | cons earlier before ih =>
    rw [run_cons] at hbefore
    obtain ⟨mid, hmid, hrest⟩ := Option.bind_eq_some_iff.1 hbefore
    simp only [List.cons_append, every, hmid, Bool.and_eq_true] at h
    exact ih hrest h.2

section
variable {first final : Fleet} {moves : List Move} {text : String}

theorem untroubled_of_every (hrun : first.run moves = some final)
    (hfaults : ∀ config dialer faults, .join config dialer faults ∈ moves → faults = Faults.none)
    (h : every (fun past _ _ => past.store.check.isOk) first moves = true)
    (hlast : final.store.check.isOk = true) : first.Untroubled moves final := by
  have hcheck : ∀ {store : Store}, store.check.isOk = true → store.check = .ok () := by
    intro store hok
    cases hstore : store.check with
    | ok => rfl
    | error e =>
      rw [hstore] at hok
      cases hok
  refine ⟨hfaults, fun past move later hmade => hcheck ?_, hcheck hlast⟩
  obtain ⟨next, hnext, -⟩ := Option.bind_eq_some_iff.1 ((run_cons _ _ _).symm.trans (hmade.rest hrun))
  exact of_every h hmade hnext

/-- Whether the move is the step of an activity of a member. -/
def Move.isStepOf (number who : Nat) : Move → Bool
  | .member other (.step acting) => other = number && acting = who
  | _ => false

theorem keeps_of_every {number who : Nat}
    (h : every (fun past move next => move.isStepOf number who || !(past.store.content.get? text).isSome ||
      (next.store.content.get? text).isSome) first moves = true) :
    first.Keeps moves (.member number (.step who)) text := by
  intro past move later next hmade hother hmove hstands
  have hkept := of_every h hmade hmove
  have hnot : move.isStepOf number who = false := by
    by_contra hstep
    unfold Move.isStepOf at hstep
    split at hstep
    · simp only [Bool.not_eq_false, Bool.and_eq_true, decide_eq_true_eq] at hstep
      exact hother (by rw [hstep.1, hstep.2])
    · exact hstep rfl
  simpa [hnot, hstands] using hkept

theorem keepsOut_of_every
    (h : every (fun past _ next => (past.store.content.get? text).isSome ||
      (next.store.content.get? text).isNone) first moves = true) : first.KeepsOut moves text := by
  intro past move later next hmade hmove hnone
  have hkept := of_every h hmade hmove
  simpa [hnone] using hkept

end

end Fleet

/-- The watcher of the second registry takes two steps: it subscribes, or takes a batch from its stream
while there is nothing to be refreshed. -/
def hears : List Fleet.Move := List.replicate 2 (.member 1 (.step Registry.watcher))

/-- The second registry has subscribed, the first one registers an instance, and the second one hears of
it. -/
def foundOnce : List Fleet.Move := pair ++ hears ++ registersAt 0 ++ hears

/-- The first registry ends its registration, and the second one hears of this as well. -/
def foundNoMore : List Fleet.Move :=
  foundOnce ++ (.member 0 (.call .unregister) :: List.replicate 5 (.member 0 (.step 3)) ++ hears)

/-- Where the second registry is about to subscribe. -/
def unsubscribed : Fleet :=
  ((Fleet.start .empty).run (pair ++ [.member 1 (.step Registry.watcher)])).get rfl

/-- Where the first registry is about to be called. -/
def uncalled : Fleet := ((Fleet.start .empty).run (pair ++ hears)).get rfl

def discovered : Fleet := ((Fleet.start .empty).run foundOnce).get rfl

/-- Where the first registry is about to take its registration. -/
def vanishing : Fleet :=
  (discovered.run [.member 0 (.call .unregister), .member 0 (.step 3)]).get rfl

def vanished : Fleet := ((Fleet.start .empty).run foundNoMore).get rfl

/-- The instance is found after its registration, and it is not found after this has ended. -/
theorem handed_out_until_unregistered :
    (∃ there, (Fleet.start .empty).run foundOnce = some discovered ∧
      discovered.site? 1 = some there ∧ there.Hands "chat" "10.0.0.1:9000" 1) ∧
    ∃ there, (Fleet.start .empty).run foundNoMore = some vanished ∧
      vanished.site? 1 = some there ∧ there.Hands "chat" "10.0.0.1:9000" 0 := by
  have hplain : ∀ config dialer faults, .join config dialer faults ∈ foundNoMore →
      faults = Faults.none := by
    simp [foundNoMore, foundOnce, pair, hears, registersAt]
  -- the call and the subscription are the same in both runs
  have hcall : (Fleet.start .empty).Made foundOnce uncalled
      (.member 0 (.call (.register "chat" "10.0.0.1" 9000)))
      (List.replicate 6 (.member 0 (.step 1)) ++ hears) :=
    ⟨pair ++ hears, rfl, (Option.some_get _).symm⟩
  have hsubscribes : (Fleet.start .empty).Made foundOnce unsubscribed
      (.member 1 (.step Registry.watcher)) (registersAt 0 ++ hears) :=
    ⟨pair ++ [.member 1 (.step Registry.watcher)], rfl, (Option.some_get _).symm⟩
  let caller : Site := (uncalled.site? 0).get rfl
  have hcaller : uncalled.site? 0 = some caller := (Option.some_get _).symm
  let opening : Site := (unsubscribed.site? 1).get rfl
  have hopening : unsubscribed.site? 1 = some opening := (Option.some_get _).symm
  have hopens : opening.Opens := ⟨_, _, _, rfl, rfl, rfl⟩
  constructor
  · let called : Site := (discovered.site? 0).get rfl
    have hcalled : discovered.site? 0 = some called := (Option.some_get _).symm
    let there : Site := (discovered.site? 1).get rfl
    have hthere : discovered.site? 1 = some there := (Option.some_get _).symm
    have hrests : there.Rests := ⟨.live ⟨"svc/", 1⟩, rfl, rfl⟩
    have hrun : (Fleet.start .empty).run foundOnce = some discovered := (Option.some_get _).symm
    have huntroubled : (Fleet.start .empty).Untroubled foundOnce discovered :=
      Fleet.untroubled_of_every hrun
        (fun config dialer faults hjoin => hplain config dialer faults (List.mem_append_left _ hjoin))
        rfl rfl
    obtain ⟨key, hkey, hstays, -⟩ := handed_out_while_registered hrun huntroubled hcall hcaller hcalled
      rfl hthere hrests rfl (fun _ _ => rfl) hsubscribes hopening hopens (.inl List.suffix_rfl)
    cases hkey
    exact ⟨there, hrun, hthere, hstays (Fleet.keeps_of_every rfl)⟩
  · let called : Site := (vanished.site? 0).get rfl
    have hcalled : vanished.site? 0 = some called := (Option.some_get _).symm
    let there : Site := (vanished.site? 1).get rfl
    have hthere : vanished.site? 1 = some there := (Option.some_get _).symm
    have hrests : there.Rests := ⟨.live ⟨"svc/", 2⟩, rfl, rfl⟩
    have hrun : (Fleet.start .empty).run foundNoMore = some vanished := (Option.some_get _).symm
    have huntroubled : (Fleet.start .empty).Untroubled foundNoMore vanished :=
      Fleet.untroubled_of_every hrun hplain rfl rfl
    obtain ⟨key, hkey, -, hends⟩ := handed_out_while_registered hrun huntroubled (hcall.append _) hcaller
      hcalled rfl hthere hrests rfl (fun _ _ => rfl) (hsubscribes.append _) hopening hopens
      (.inl List.suffix_rfl)
    cases hkey
    refine ⟨there, hrun, hthere, hends ?_⟩
    let ending : Site := (vanishing.site? 0).get rfl
    have hending : vanishing.site? 0 = some ending := (Option.some_get _).symm
    refine ⟨vanishing, 0, 3, List.replicate 3 (.member 0 (.step 3)) ++ hears, ending, called, cutOffActive,
      ⟨foundOnce ++ [.member 0 (.call .unregister), .member 0 (.step 3)], rfl, ?_⟩, hending, ⟨rfl, rfl⟩,
      rfl, hcalled, rfl, Fleet.keepsOut_of_every rfl⟩
    exact (Option.some_get _).symm

/-- A registry that has subscribed registers an instance of which the host is no part of an authority, and
hears of it. -/
def notFound : List Move :=
  List.replicate 2 (.step Registry.watcher) ++ .call (.register "chat" "bad host" 9000) ::
    List.replicate 6 (.step 1) ++ List.replicate 2 (.step Registry.watcher)

/-- Where the registry has heard of it. -/
def inVain : Site := (Site.sample.run notFound).get rfl

/-- A caller of the registry, from the call to its return. -/
def asksForChat : List Move := .call (.getConnections "chat") :: List.replicate 6 (.step 3)

/-- The registration has succeeded and its key stands in the store, and a caller at rest is handed no
connection. -/
theorem registered_and_not_found :
    ∃ later listing, Site.sample.run notFound = some inVain ∧
      inVain.progress? 1 = some (.finished (.ok .done)) ∧
      inVain.store.keys = ["svc/chat/bad host:9000"] ∧ inVain.Rests ∧
      inVain.run asksForChat = some later ∧ later.store.revision = inVain.store.revision ∧
      later.progress? 3 = some (.finished (.ok (.connections listing))) ∧
      listing.connections = [] ∧ ¬ inVain.Hands "chat" "bad host:9000" 1 := by
  let later : Site := (inVain.run asksForChat).get rfl
  let listing : Listing := ⟨⟨1, 0, 1, 0⟩, []⟩
  have hlater : inVain.run asksForChat = some later := (Option.some_get _).symm
  have hended : later.progress? 3 = some (.finished (.ok (.connections listing))) := rfl
  refine ⟨later, listing, (Option.some_get _).symm, rfl, rfl, ⟨.live ⟨"svc/", 1⟩, rfl, rfl⟩, hlater, rfl,
    hended, rfl, fun hhands => ?_⟩
  have hcall : Calls (inVain.history asksForChat) 3 (.getConnections "chat") :=
    ⟨inVain, List.mem_cons_self, rfl⟩
  have hone := hhands.right asksForChat later 3 listing hlater rfl hcall hended
  cases hone

end ServiceRegistry
