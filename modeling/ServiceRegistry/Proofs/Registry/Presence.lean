import ServiceRegistry.Proofs.Registry.Fleet
import ServiceRegistry.Proofs.Registry.Handling
import ServiceRegistry.Proofs.Registry.Removal
import ServiceRegistry.Proofs.Store.Silence

/-!
# What an answer says about a key

A registration that returns without an error has put its key into the store, which has published it, and
an unregistration that does so has taken the key away. From then on the key is there, or is not, as long
as nobody else in the fleet changes this. Both are shown by following the call from its beginning to its
end through whatever else happens in the fleet.
-/
namespace ServiceRegistry

namespace Store

/-- From a revision on something was published about the key. -/
def Published (store : Store) (first : Nat) (text : String) : Prop :=
  ∃ n batch, first ≤ n ∧ store.feed.published[n]? = some batch ∧ ∃ event ∈ batch, event.key = text

theorem Published.of_evolves {before after : Store} {first : Nat} {text : String}
    (h : before.Published first text) (hevolves : before.Evolves after) :
    after.Published first text := by
  obtain ⟨n, batch, hfirst, hbatch, hevent⟩ := h
  obtain ⟨batches, hbatches⟩ := hevolves.published_prefix
  refine ⟨n, batch, hfirst, ?_, hevent⟩
  rw [← hbatches, List.getElem?_append_left (List.getElem?_eq_some_iff.1 hbatch).1, hbatch]

theorem Published.mono {store : Store} {first later : Nat} {text : String}
    (h : store.Published later text) (hle : first ≤ later) : store.Published first text := by
  obtain ⟨n, batch, hlater, hbatch⟩ := h
  exact ⟨n, batch, hle.trans hlater, hbatch⟩

theorem Published.not_silent {store : Store} {first : Nat} {root text : String} {key : EndpointKey}
    (h : store.Published first text) (hparse : EndpointKey.parse root text = .ok key) :
    ¬ store.Silent root key.service first store.revision := by
  obtain ⟨n, batch, hfirst, hbatch, event, hevent, rfl⟩ := h
  intro hsilent
  exact hsilent n hfirst (List.getElem?_eq_some_iff.1 hbatch).1 batch hbatch event hevent key hparse rfl

theorem published_of_put {before after : Store} {key value : String} {lease : Option LeaseId}
    (h : before.put key value lease = .ok after) : after.Published before.revision key := by
  obtain ⟨hopen, -, rfl⟩ := of_put h
  refine ⟨before.revision, [⟨.put, key⟩], le_rfl, ?_, _, List.mem_singleton.2 rfl, rfl⟩
  simp [Feed.publish, hopen, revision]

theorem get?_of_put {before after : Store} {key value : String} {lease : Option LeaseId}
    (h : before.put key value lease = .ok after) : (after.content.get? key).isSome = true := by
  obtain ⟨-, -, rfl⟩ := of_put h
  rw [Keyspace.get?_insert, if_pos rfl]
  rfl

end Store

/-! ## A registration -/

namespace Progress

/-- Where a call to register an instance can be met. -/
def Registers (progress : Progress) (root service host : String) (port : Nat) : Prop :=
  progress = .calling (.register service host port) ∨
    (∃ key stage, EndpointKey.make root service host port = .ok key ∧
      progress = .registering key stage) ∨
    ∃ outcome, progress = .finished outcome

/-- Whether a registration that is met here has attached its key and will not give it up. -/
def isAttached : Progress → Bool
  | .registering _ (.opening _ _) | .registering _ (.leaving (.ok _)) | .finished (.ok _) => true
  | _ => false

end Progress

namespace Site

section
variable {site mid : Site} {who : Nat} {former next : Progress}

/-- Once the key is attached, the registration changes nothing in the store. -/
theorem Deed.same_of_isAttached (h : site.Deed who former next mid)
    (hattached : former.isAttached = true) : site.store.SameHoldings mid.store := by
  rcases h.store_cases with ⟨-, hsame⟩ |
    ⟨m, flight, answer, received, hflight, hreceive, hsame⟩ | ⟨rfl, -⟩
  · exact hsame
  · cases former with
    | registering key stage =>
      cases stage with
      | opening =>
        cases hflight
        exact (spares_of_receive hreceive rfl).store.trans hsame
      | leaving => cases hflight
      | _ => cases hattached
    | finished => cases hflight
    | _ => cases hattached
  · cases hattached

/-- A registration comes to have its key attached when the store has answered that it is. -/
theorem Deed.isAttached_cases {key : EndpointKey} {stage : Registering}
    (h : site.Deed who (.registering key stage) next mid) (hnext : next.isAttached = true) :
    (Progress.registering key stage).isAttached = true ∨
      ∃ lease flight received, stage = .attaching lease flight ∧
        site.receive flight = (.ok (), received) ∧ mid.store = received.store := by
  cases h with
  | aside hformer => cases hformer
  | @attach _ lease _ former answer flight received mid hreceive hsend =>
    have hstore : mid.store = received.store := by
      have hsent := congrArg (fun result => result.2.store) hsend
      exact hsent.symm.trans (received.toLink.store_send _)
    exact .inr ⟨lease, former, received, rfl, hreceive, hstore⟩
  | register => exact .inl rfl
  | @leave _ outcome =>
    cases outcome with
    | ok => exact .inl rfl
    | error => cases hnext
  | _ => cases hnext

/-- A deed of a registration leads to its end or stays with its key. -/
theorem Deed.registers {key : EndpointKey} {stage : Registering}
    (h : site.Deed who (.registering key stage) next mid) :
    (∃ later, next = .registering key later) ∨ ∃ outcome, next = .finished outcome :=
  (h.left_lt rfl).2 key stage rfl

end

/-- Who has ended takes no more steps. -/
theorem not_canStep_of_finished {site : Site} {who : Nat} {outcome : Except Error Outcome}
    (h : site.progress? who = some (.finished outcome)) : ¬ site.canStep who = true := by
  intro hready
  obtain ⟨activity, hactivity, hgoing⟩ := of_canStep hready
  rw [progress?_of_activity hactivity] at h
  obtain ⟨progress, asked⟩ := activity
  cases h
  rcases hgoing with hdropped | ⟨-, time, hdue, -⟩
  · simp [Activity.isDropped, Activity.outcome?] at hdropped
  · cases hdue

/-- A call to register goes on to its end; it has its key attached if it had before, and if the store has
just put the key. -/
theorem registers_step {site next : Site} {who : Nat} {progress : Progress}
    {service host : String} {port : Nat} {faults : Faults} (hbacked : site.Backed)
    (hasks : site.AsksLeases faults) (hput : faults.Genuine .put)
    (hprogress : site.progress? who = some progress)
    (h : progress.Registers site.registry.config.root service host port)
    (hmove : site.after (.step who) = some next) {further : Progress}
    (hfurther : next.progress? who = some further) :
    further.Registers site.registry.config.root service host port ∧ (further.isAttached = true →
      progress.isAttached = true ∧ site.store.SameHoldings next.store ∨
      ∃ key lease, EndpointKey.make site.registry.config.root service host port = .ok key ∧
        site.store.put key.text key.descriptor (some lease) = .ok next.store) := by
  rcases h with rfl | ⟨key, stage, hkey, rfl⟩ | ⟨outcome, rfl⟩
  · have hactivity := hbacked.activity_of_progress? hprogress rfl
    have hstep : further = (site.stepFrom who (.calling (.register service host port))).1 := by
      obtain ⟨-, rfl⟩ := of_after_step hmove
      rw [progress?_step hactivity] at hfurther
      exact (Option.some.inj hfurther).symm
    simp only [stepFrom, stepCalling] at hstep
    split at hstep
    · subst hstep
      exact ⟨.inr (.inr ⟨_, rfl⟩), Bool.noConfusion⟩
    · subst hstep
      exact ⟨.inr (.inr ⟨_, rfl⟩), Bool.noConfusion⟩
    · rename_i key _ hkey
      subst hstep
      exact ⟨.inr (.inl ⟨key, _, hkey, rfl⟩), Bool.noConfusion⟩
  · have hactivity := hbacked.activity_of_progress? hprogress rfl
    obtain ⟨later, mid, rfl, hdeed, hframe⟩ := deed_of_after hactivity hmove
    rw [progress?_settle_self hframe later hprogress] at hfurther
    cases hfurther
    constructor
    · rcases hdeed.registers with ⟨reached, rfl⟩ | ⟨outcome, rfl⟩
      · exact .inr (.inl ⟨key, reached, hkey, rfl⟩)
      · exact .inr (.inr ⟨outcome, rfl⟩)
    · intro hattached
      rcases hdeed.isAttached_cases hattached with
        hbefore | ⟨lease, flight, received, rfl, hreceive, hstore⟩
      · exact .inl ⟨hbefore, hdeed.same_of_isAttached hbefore⟩
      · right
        have hgenuine := (hasks.meets who _ _ flight hprogress rfl).genuine hput
        have hserve := serve_of_receive hgenuine hreceive
        rw [hasks.attaching who key lease flight hprogress] at hserve
        obtain ⟨after, hdone, he⟩ := of_map_ok hserve
        cases he
        exact ⟨key, lease, hkey, hstore ▸ hdone⟩
  · exact absurd (of_after_step hmove).1 (not_canStep_of_finished hprogress)

end Site

/-! ## The end of a registration -/

namespace Progress

/-- Where a call to unregister can be met that has taken a registration. -/
def Removes (progress : Progress) (current : Active) : Prop :=
  (∃ stage, progress = .unregistering false stage ∧ stage.Ends current) ∨
    ∃ outcome, progress = .finished outcome

/-- Whether a call to unregister that is met here has had its key deleted. -/
def isRemoved : Progress → Bool
  | .unregistering _ (.revoking (.ok _) _) | .unregistering _ (.leaving (.ok _))
  | .finished (.ok _) => true
  | _ => false

end Progress

namespace Site

/-- A call to unregister goes on to its end; it has its key deleted if it had before, or if the store has
just taken it away. -/
theorem removes_step {site next : Site} {who : Nat} {progress further : Progress} {current : Active}
    {faults : Faults} (hbacked : site.Backed) (hasks : site.AsksLeases faults)
    (hdelete : faults.Genuine .delete) (hprogress : site.progress? who = some progress)
    (h : progress.Removes current) (hmove : site.after (.step who) = some next)
    (hfurther : next.progress? who = some further) :
    further.Removes current ∧ (further.isRemoved = true → progress.isRemoved = true ∨
      next.store.content.get? current.key.text = none) := by
  rcases h with ⟨stage, rfl, hends⟩ | ⟨outcome, rfl⟩
  · obtain ⟨later, mid, rfl, hdeed, hframe⟩ :=
      deed_of_after (hbacked.activity_of_progress? hprogress rfl) hmove
    rw [progress?_settle_self hframe later hprogress] at hfurther
    cases hfurther
    cases hdeed with
    | aside hformer => cases hformer
    | lack | remove => exact hends.elim
    | @delete _ lease former flight answer received mid hreceive hsend =>
      obtain ⟨rfl, hrequest⟩ := hends
      refine ⟨.inl ⟨_, rfl, (of_sent hsend).2.1⟩, fun hremoved => .inr ?_⟩
      cases answer with
      | error e => cases hremoved
      | ok answer =>
        have hgenuine := (hasks.meets who _ _ former hprogress rfl).genuine hdelete
        have hserved := Store.served_of_serve (serve_of_receive hgenuine hreceive)
        rw [hrequest] at hserved
        show mid.store.content.get? current.key.text = none
        rw [(of_sent hsend).1.store.content]
        cases hserved with
        | read hreads => cases hreads
        | delete hcontent => exact (hcontent _).trans (if_pos rfl)
    | @revoke _ former deleted answer received hreceive =>
      refine ⟨.inl ⟨_, rfl, trivial⟩, fun hremoved => .inl ?_⟩
      cases deleted with
      | error e => cases hremoved
      | ok deleted => rfl
    | @leaveUnregistered outcome =>
      refine ⟨.inr ⟨_, rfl⟩, fun hremoved => .inl ?_⟩
      cases outcome with
      | error e => cases hremoved
      | ok done => rfl
  · exact absurd (of_after_step hmove).1 (not_canStep_of_finished hprogress)

end Site

/-! ## In a fleet -/

namespace Fleet

/-- No move of the run but the own one takes the key away. -/
def Keeps (first : Fleet) (moves : List Move) (own : Move) (text : String) : Prop :=
  ∀ past move later next, first.Made moves past move later → move ≠ own →
    past.after move = some next → (past.store.content.get? text).isSome = true →
      (next.store.content.get? text).isSome = true

/-- No move of the run puts the key there. -/
def KeepsOut (first : Fleet) (moves : List Move) (text : String) : Prop :=
  ∀ past move later next, first.Made moves past move later → past.after move = some next →
    past.store.content.get? text = none → next.store.content.get? text = none

/-- How far a registration has come that was called at a fleet, and what it has done: once its key is
attached, the key was published since the call, and it stands there unless something else takes it away. -/
structure Registration (asked : Fleet) (moves : List Move) (own : Move) (root service host : String)
    (port : Nat) (fleet : Fleet) (progress : Progress) : Prop where
  registers : progress.Registers root service host port
  attached : progress.isAttached = true → ∃ key, EndpointKey.make root service host port = .ok key ∧
    fleet.store.Published asked.store.revision key.text ∧
      (asked.Keeps moves own key.text → (fleet.store.content.get? key.text).isSome = true)

section
variable {store : Store} {moves later : List Move} {asked past : Fleet} {own : Move}
  {root service host : String} {port : Nat} {progress : Progress}

/-- What others do leaves a registration where it is. -/
theorem Registration.other {next : Fleet} {move : Move}
    (h : Registration asked moves own root service host port past progress)
    (hmade : asked.Made moves past move later) (hother : move ≠ own)
    (hmove : past.after move = some next) :
    Registration asked moves own root service host port next progress := by
  refine ⟨h.registers, fun hattached => ?_⟩
  obtain ⟨key, hkey, hpublished, hstands⟩ := h.attached hattached
  exact ⟨key, hkey, hpublished.of_evolves (evolves_of_after hmove), fun hkeeps =>
    hkeeps past move later next hmade hother hmove (hstands hkeeps)⟩

/-- A registration goes on by its own step. -/
theorem Registration.step {number who : Nat} {site next : Site} {further : Progress} {faults : Faults}
    (h : Registration asked moves own site.registry.config.root service host port past progress)
    (hrevision : asked.store.revision ≤ past.store.revision) (hbacked : site.Backed)
    (hasks : site.AsksLeases faults) (hput : faults.Genuine .put) (hsite : past.site? number = some site)
    (hmove : site.after (.step who) = some next) (hprogress : site.progress? who = some progress)
    (hfurther : next.progress? who = some further) :
    Registration asked moves own site.registry.config.root service host port
      (past.withSite number next) further := by
  obtain ⟨hlater, hattaches⟩ :=
    Site.registers_step hbacked hasks hput hprogress h.registers hmove hfurther
  refine ⟨hlater, fun hattached => ?_⟩
  show ∃ key, _ ∧ next.store.Published _ _ ∧ (_ → (next.store.content.get? _).isSome = true)
  rcases hattaches hattached with ⟨hbefore, hsame⟩ | ⟨key, lease, hkey, hput⟩
  · obtain ⟨key, hkey, hpublished, hstands⟩ := h.attached hbefore
    rw [← store_of_site? hsite] at hpublished hstands
    exact ⟨key, hkey, hpublished.of_evolves (Site.precedes_of_after hmove).store,
      fun hkeeps => hsame.content ▸ hstands hkeeps⟩
  · rw [← store_of_site? hsite] at hrevision
    exact ⟨key, hkey, (Store.published_of_put hput).mono hrevision, fun _ => Store.get?_of_put hput⟩

end

/-- What a registration that has returned without an error has done: the key was published since the call,
and it stands there unless something else has taken it away. -/
theorem registered_of_run {store : Store} {moves since : List Move} {asked final : Fleet} {number : Nat}
    {site last : Site} {service host : String} {port : Nat}
    (hrun : (start store).run moves = some final)
    (hfaults : ∀ config dialer faults, .join config dialer faults ∈ moves → faults.Genuine .put)
    (hcall : (start store).Made moves asked (.member number (.call (.register service host port))) since)
    (hsite : asked.site? number = some site) (hlast : final.site? number = some last)
    (hdone : last.progress? site.registry.activities.length = some (.finished (.ok .done))) :
    ∃ key, EndpointKey.make site.registry.config.root service host port = .ok key ∧
      final.store.Published asked.store.revision key.text ∧
      (asked.Keeps (.member number (.call (.register service host port)) :: since)
          (.member number (.step site.registry.activities.length)) key.text →
        (final.store.content.get? key.text).isSome = true) := by
  obtain ⟨moved, hmoved, -⟩ := of_run_member hsite (hcall.rest hrun)
  have hholds := hcall.activity_induction
    (P := Registration asked (.member number (.call (.register service host port)) :: since)
      (.member number (.step site.registry.activities.length)) site.registry.config.root service host
      port) hrun hsite hmoved (Site.progress?_call hmoved) hlast hdone ⟨.inl rfl, Bool.noConfusion⟩
    (fun past move later next progress hpast hother hmove hholds => hholds.other hpast hother hmove)
    (fun past later there config dialer faults own next progress further hpast hthere hjoin hown hmove
        hmet hfurther hholds => by
      obtain ⟨front, -, hfront⟩ := hpast
      rw [← config_of_run hfront hsite hthere] at hholds ⊢
      exact hholds.step (evolves_of_run hfront).revision_le (Site.inLine_of_run hown).2
        (Site.asksLeases_of_run hown) (hfaults config dialer faults hjoin) hthere hmove hmet hfurther)
  exact hholds.attached rfl

/-- How far a call to unregister has come, and what it has done. -/
structure Unregistration (taken : Fleet) (moves : List Move) (current : Active) (fleet : Fleet)
    (progress : Progress) : Prop where
  removes : progress.Removes current
  gone : progress.isRemoved = true → taken.KeepsOut moves current.key.text →
    fleet.store.content.get? current.key.text = none

/-- The key of a registration that was taken by a call to unregister which has returned without an error is
gone, and it has not come back unless something has put it there again. -/
theorem unregistered_of_run {store : Store} {moves later : List Move} {taken final : Fleet}
    {number who : Nat} {site last : Site} {current : Active}
    (hrun : (start store).run moves = some final)
    (hfaults : ∀ config dialer faults, .join config dialer faults ∈ moves → faults.Genuine .delete)
    (hmade : (start store).Made moves taken (.member number (.step who)) later)
    (hsite : taken.site? number = some site) (htakes : site.Takes false who current)
    (hlast : final.site? number = some last)
    (hdone : last.progress? who = some (.finished (.ok .done)))
    (hout : taken.KeepsOut (.member number (.step who) :: later) current.key.text) :
    final.store.content.get? current.key.text = none := by
  obtain ⟨moved, hmoved, -⟩ := of_run_member hsite (hmade.rest hrun)
  obtain ⟨flight, hrequest, hdeleting, -⟩ := htakes.after hmoved
  have hholds := hmade.activity_induction
    (P := Unregistration taken (.member number (.step who) :: later) current) hrun hsite hmoved
    hdeleting hlast hdone ⟨.inl ⟨_, rfl, rfl, hrequest⟩, Bool.noConfusion⟩
    (fun past move rest next progress hpast hother hmove hholds =>
      ⟨hholds.removes, fun hremoved hout =>
        hout past move rest next hpast hmove (hholds.gone hremoved hout)⟩)
    (fun past rest there config dialer faults own next progress further hpast hthere hjoin hown hmove
        hmet hfurther hholds => by
      obtain ⟨hgoes, hdeletes⟩ := Site.removes_step (Site.inLine_of_run hown).2
        (Site.asksLeases_of_run hown) (hfaults config dialer faults hjoin) hmet hholds.removes hmove
        hfurther
      refine ⟨hgoes, fun hremoved hout => ?_⟩
      rcases hdeletes hremoved with hbefore | hgone
      · exact hout past _ rest _ hpast (after_member hthere hmove) (hholds.gone hbefore hout)
      · exact hgone)
  exact hholds.gone rfl hout

end Fleet

end ServiceRegistry
