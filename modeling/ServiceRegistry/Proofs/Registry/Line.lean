import ServiceRegistry.Proofs.Registry.Deed

/-!
# The line in front of the registrar

Registrations and unregistrations are carried out one at a time, in the order in which they have come to
the registrar. Nobody in the line is ever asked to end: this happens only to what goes on behind the
calls, the watcher and the renewals of leases. So whoever is in the line gets to its head, and only who
stands at the head is handled.
-/
namespace ServiceRegistry

/-- Whether the activity has come to the head of the line and has not left it. -/
def Progress.isHandled : Progress → Bool
  | .registering _ .queued | .unregistering _ .queued => false
  | .registering _ _ | .unregistering _ _ => true
  | _ => false

namespace Progress

theorem isAtRegistrar_of_isHandled {progress : Progress} (h : progress.isHandled = true) :
    progress.isAtRegistrar = true := by
  cases progress with
  | registering | unregistering => rfl
  | _ => cases h

theorem not_isAtRegistrar_of_isBackground {progress : Progress} (h : progress.isBackground = true) :
    progress.isAtRegistrar = false := by
  cases progress with
  | registering | unregistering => cases h
  | _ => rfl

theorem not_isAtRegistrar_of_isAside {progress : Progress} (h : progress.isAside = true) :
    progress.isAtRegistrar = false := by
  cases progress with
  | registering | unregistering => cases h
  | _ => rfl

theorem not_isAtRegistrar_of_isBeginning {progress : Progress} (h : progress.isBeginning = true) :
    progress.isAtRegistrar = false := by
  cases progress with
  | registering | unregistering => cases h
  | _ => rfl

/-- Whether the activity has come to register, to unregister or to close the registry. -/
def isEngaged : Progress → Bool
  | .registering _ _ | .unregistering _ _ | .sealing => true
  | _ => false

theorem isEngaged_of_isAtRegistrar {progress : Progress} (h : progress.isAtRegistrar = true) :
    progress.isEngaged = true := by
  cases progress with
  | registering | unregistering => rfl
  | _ => cases h

theorem not_isEngaged_of_isBackground {progress : Progress} (h : progress.isBackground = true) :
    progress.isEngaged = false := by
  cases progress with
  | registering | unregistering | sealing => cases h
  | _ => rfl

theorem not_isEngaged_of_isBeginning {progress : Progress} (h : progress.isBeginning = true) :
    progress.isEngaged = false := by
  cases progress with
  | registering | unregistering | sealing => cases h
  | _ => rfl

end Progress

namespace Site

/-! ## What a deed does to the lock and to other activities -/

theorem registry_publish_of_receive {site mid : Site} {m : Method} {flight : Flight m}
    {answer : Except Error (Answer m)} (h : site.receive flight = (answer, mid))
    (status : LeaseStatus) : (mid.publish status).registry = (site.publish status).registry := by
  simp only [publish, mapRegistrar, mapRegistry, registry_of_receive h]

/-- The registry when a registration is complete. -/
theorem registry_register_of_receive {site mid : Site} {m : Method} {flight : Flight m}
    {answer : Except Error (Answer m)} (h : site.receive flight = (answer, mid))
    (status : LeaseStatus) (progress : Progress) (active : Option Active) :
    (((mid.publish status).mapRegistry fun registry =>
        registry.begin progress).setActive active).registry =
      (((site.publish status).mapRegistry fun registry =>
        registry.begin progress).setActive active).registry := by
  simp only [publish, setActive, mapRegistrar, mapRegistry, registry_of_receive h]

@[simp] theorem lock_lose (registrar : Registrar) (key : EndpointKey) (lease : LeaseId) :
    (registrar.lose key lease).lock = registrar.lock := by
  unfold Registrar.lose
  split
  · split <;> rfl
  · rfl

@[simp] theorem active_lose (registrar : Registrar) (key : EndpointKey) (lease : LeaseId) :
    (registrar.lose key lease).active = registrar.active := by
  unfold Registrar.lose
  split
  · split <;> rfl
  · rfl

section
variable {site mid : Site} {who : Nat} {former next : Progress}

/-- A deed leaves the lock as it is and who has it where it was, or gets in line while the registry is
open, or leaves it. -/
theorem Deed.lock_cases (h : site.Deed who former next mid) :
    mid.registry.registrar.lock = site.registry.registrar.lock ∧
        former.isAtRegistrar = next.isAtRegistrar ∨
      mid.registry.registrar.lock = site.registry.registrar.lock.enter who ∧
        site.registry.closed = false ∧
        former.isAtRegistrar = false ∧ next.isAtRegistrar = true ∧ next.isHandled = false ∨
      mid.registry.registrar.lock = site.registry.registrar.lock.release ∧
        former.isHandled = true ∧ next.isAtRegistrar = false := by
  cases h with
  | aside hformer hnext hspares =>
    left
    rw [Progress.not_isAtRegistrar_of_isAside hformer, Progress.not_isAtRegistrar_of_isAside hnext]
    exact ⟨congrArg Registrar.lock hspares.registrar, rfl⟩
  | stop => exact .inl ⟨lock_lose _ _ _, rfl⟩
  | comeToRegister hopen | comeToUnregister hopen | close hopen =>
    exact .inr (.inl ⟨rfl, hopen, rfl, rfl, rfl⟩)
  | renew | turnAway | lack | shut => exact .inl ⟨rfl, rfl⟩
  | begin hactive hsend | replace hactive hlost hsend | remove hactive hsend =>
    rw [registry_of_send hsend]
    exact .inl ⟨rfl, rfl⟩
  | beginAgain hreceive hsend =>
    rw [registry_of_send hsend, registry_publish_of_receive hreceive]
    exact .inl ⟨rfl, rfl⟩
  | grant hreceive hsend | attach hreceive hsend | detach hreceive hsend | abandon hreceive hsend
  | delete hreceive hsend =>
    rw [registry_of_send hsend, registry_of_receive hreceive]
    exact .inl ⟨rfl, rfl⟩
  | refuse hreceive | giveUp hreceive | revoke hreceive =>
    rw [registry_publish_of_receive hreceive]
    exact .inl ⟨rfl, rfl⟩
  | register hreceive =>
    rw [registry_register_of_receive hreceive]
    exact .inl ⟨rfl, rfl⟩
  | leave | leaveUnregistered | leaveClosing => exact .inr (.inr ⟨rfl, rfl, rfl⟩)

/-- A deed lets the other activities be, or asks the watcher or the renewal of a lease to end, or begins
the renewal of a lease. -/
theorem Deed.activities_cases (h : site.Deed who former next mid) :
    mid.registry.activities = site.registry.activities ∧
        (mid.registry.registrar.active = site.registry.registrar.active ∨
          mid.registry.registrar.active = none) ∨
      former.isBackground = false ∧
        (mid.registry.registrar.active = site.registry.registrar.active ∨
          mid.registry.registrar.active = none) ∧
        (∃ asked, mid.registry.activities = (site.registry.cancel asked).activities ∧
          (asked = Registry.watcher ∨
            ∃ current, site.registry.registrar.active = some current ∧ asked = current.renewal)) ∨
      ∃ key lease rest,
        mid.registry.activities = (site.registry.begin (.renewing key lease rest)).activities ∧
          mid.registry.registrar.active = some ⟨key, lease, site.registry.activities.length⟩ := by
  cases h with
  | aside hformer hnext hspares =>
    exact .inl ⟨hspares.activities, .inl (congrArg Registrar.active hspares.registrar)⟩
  | stop => exact .inl ⟨rfl, .inl (active_lose _ _ _)⟩
  | renew | comeToRegister | comeToUnregister | turnAway | lack | shut =>
    exact .inl ⟨rfl, .inl rfl⟩
  | leave | leaveUnregistered | leaveClosing => exact .inl ⟨rfl, .inl rfl⟩
  | close => exact .inr (.inl ⟨rfl, .inl rfl, Registry.watcher, rfl, .inl rfl⟩)
  | begin hactive hsend =>
    rw [registry_of_send hsend]
    exact .inl ⟨rfl, .inl rfl⟩
  | @replace key current flight after hactive hlost hsend =>
    rw [registry_of_send hsend]
    exact .inr (.inl ⟨rfl, .inr rfl, current.renewal, rfl, .inr ⟨current, hactive, rfl⟩⟩)
  | @remove closing current flight after hactive hsend =>
    rw [registry_of_send hsend]
    exact .inr (.inl ⟨rfl, .inr rfl, current.renewal, rfl, .inr ⟨current, hactive, rfl⟩⟩)
  | beginAgain hreceive hsend =>
    rw [registry_of_send hsend, registry_publish_of_receive hreceive]
    exact .inl ⟨rfl, .inl rfl⟩
  | grant hreceive hsend | attach hreceive hsend | detach hreceive hsend | abandon hreceive hsend
  | delete hreceive hsend =>
    rw [registry_of_send hsend, registry_of_receive hreceive]
    exact .inl ⟨rfl, .inl rfl⟩
  | refuse hreceive | giveUp hreceive | revoke hreceive =>
    rw [registry_publish_of_receive hreceive]
    exact .inl ⟨rfl, .inl rfl⟩
  | @register key lease former renewals rest mid hreceive =>
    rw [registry_register_of_receive hreceive]
    exact .inr (.inr ⟨key, lease, rest, rfl, rfl⟩)

/-- What goes on behind the calls stays there. -/
theorem Deed.isBackground (h : site.Deed who former next mid) (hformer : former.isBackground = true) :
    next.isBackground = true := by
  cases h with
  | aside haside hnext hspares hbackground => exact hbackground hformer
  | renew | stop => rfl
  | _ => cases hformer

end

/-- Who goes on behind the calls does so for good. -/
theorem stands_background {site after : Site} {move : Move} {who : Nat}
    (h : site.Stands Progress.isBackground who) (hmove : site.after move = some after) :
    after.Stands Progress.isBackground who := by
  obtain ⟨progress, hprogress, hbackground⟩ := h
  by_cases hother : move = .step who
  · subst hother
    cases acted_of_after hmove with
    | deed hactivity hready hdeed hframe =>
      rw [progress?_of_activity hactivity] at hprogress
      cases hprogress
      exact ⟨_, progress?_settle_self hframe _ (progress?_of_activity hactivity),
        hdeed.isBackground hbackground⟩
    | drop hactivity =>
      exact ⟨_, progress?_settle_self (site.frame_leaveLocks who) _ hprogress, rfl⟩
    | outside hnot => exact absurd rfl (hnot who)
  · exact ⟨progress, progress?_of_other hmove hother hprogress, hbackground⟩

/-! ## Who is asked to end -/

/-- Only what goes on behind the calls is asked to end. -/
structure Backed (site : Site) : Prop where
  asked : ∀ (who : Nat) (progress : Progress),
    site.registry.activities[who]? = some ⟨progress, true⟩ → progress.isBackground = true
  watcher : site.Stands Progress.isBackground Registry.watcher
  renewal : ∀ current, site.registry.registrar.active = some current →
    site.Stands Progress.isBackground current.renewal

theorem Backed.start {store : Store} {config : Config} {dialer : Dialer} {faults : Faults} :
    (start store config dialer faults).Backed := by
  refine ⟨?_, ⟨.starting, rfl, rfl⟩, nofun⟩
  intro who progress h
  cases who with
  | zero => cases h
  | succ who => cases h

/-- A call is not asked to end. -/
theorem Backed.activity_of_progress? {site : Site} (h : site.Backed) {who : Nat} {progress : Progress}
    (hprogress : site.progress? who = some progress) (hcall : progress.isBackground = false) :
    site.registry.activities[who]? = some ⟨progress, false⟩ := by
  obtain ⟨⟨met, asked⟩, hactivity, rfl⟩ := Option.map_eq_some_iff.1 hprogress
  cases asked with
  | false => exact hactivity
  | true =>
    rw [h.asked who met hactivity] at hcall
    cases hcall

section
variable {site mid : Site} {who : Nat} {former next : Progress} (h : site.Backed)
  (hactivity : site.registry.activities[who]? = some ⟨former, false⟩)
  (hdeed : site.Deed who former next mid)
include h hactivity hdeed

/-- An activity is not asked to end by what it does itself. -/
theorem Backed.asked_cases {other : Nat} {progress : Progress}
    (hother : mid.registry.activities[other]? = some ⟨progress, true⟩) :
    other ≠ who ∧ progress.isBackground = true := by
  have hbefore : ∀ asked : Bool, site.registry.activities[other]? = some ⟨progress, asked⟩ →
      progress.isBackground = true → (asked = true ∨ former.isBackground = false) →
        other ≠ who ∧ progress.isBackground = true := by
    intro asked hsite hprogress hasked
    refine ⟨?_, hprogress⟩
    rintro rfl
    rw [hactivity] at hsite
    cases hsite
    rcases hasked with hasked | hformer
    · cases hasked
    · rw [hprogress] at hformer
      cases hformer
  rcases hdeed.activities_cases with ⟨hsame, -⟩ | ⟨hformer, -, asked, hsame, hasked⟩ |
    ⟨key, lease, rest, hsame, -⟩
  · rw [hsame] at hother
    exact hbefore true hother (h.asked other progress hother) (.inl rfl)
  · rw [hsame, Registry.cancel, List.getElem?_modify] at hother
    obtain ⟨⟨point, cancelled⟩, hsite, hmoved⟩ := Option.map_eq_some_iff.1 hother
    by_cases hwho : asked = other
    · subst hwho
      rw [if_pos rfl] at hmoved
      cases hmoved
      have hprogress : point.isBackground = true := by
        have hhere : site.progress? asked = some point := progress?_of_activity hsite
        rcases hasked with rfl | ⟨current, hcurrent, rfl⟩
        · obtain ⟨met, hmet, hbackground⟩ := h.watcher
          rw [hhere] at hmet
          cases hmet
          exact hbackground
        · obtain ⟨met, hmet, hbackground⟩ := h.renewal current hcurrent
          rw [hhere] at hmet
          cases hmet
          exact hbackground
      exact hbefore cancelled hsite hprogress (.inr hformer)
    · rw [if_neg hwho] at hmoved
      cases hmoved
      exact hbefore true hsite (h.asked other progress hsite) (.inl rfl)
  · rw [hsame, Registry.begin, List.getElem?_append] at hother
    split at hother
    · exact hbefore true hother (h.asked other progress hother) (.inl rfl)
    · cases List.mem_singleton.1 (List.mem_of_getElem? hother)

theorem Backed.deed (hkept : ∀ other, site.Stands Progress.isBackground other →
    (mid.settle who next).Stands Progress.isBackground other) : (mid.settle who next).Backed := by
  refine ⟨?_, hkept _ h.watcher, ?_⟩
  · intro other progress hother
    simp only [settle, mapRegistry, Registry.move, List.getElem?_modify] at hother
    obtain ⟨⟨point, cancelled⟩, hmid, hmoved⟩ := Option.map_eq_some_iff.1 hother
    by_cases hwho : who = other
    · rw [if_pos hwho] at hmoved
      cases hmoved
      exact absurd hwho.symm (h.asked_cases hactivity hdeed hmid).1
    · rw [if_neg hwho] at hmoved
      cases hmoved
      exact (h.asked_cases hactivity hdeed hmid).2
  · intro current hcurrent
    have hmid : mid.registry.registrar.active = some current := hcurrent
    have hsame : mid.registry.registrar.active = site.registry.registrar.active ∨
        mid.registry.registrar.active = none →
          (mid.settle who next).Stands Progress.isBackground current.renewal := by
      rintro (hsame | hnone)
      · exact hkept _ (h.renewal current (hsame ▸ hmid))
      · rw [hnone] at hmid
        cases hmid
    rcases hdeed.activities_cases with ⟨-, hactive⟩ | ⟨-, hactive, -⟩ |
      ⟨key, lease, rest, hactivities, hactive⟩
    · exact hsame hactive
    · exact hsame hactive
    · rw [hactive] at hmid
      cases hmid
      have hne : who ≠ site.registry.activities.length := by
        have hlt := (List.getElem?_eq_some_iff.1 hactivity).1
        omega
      refine ⟨.renewing key lease rest, ?_, rfl⟩
      simp [progress?, settle, mapRegistry, Registry.move, hactivities, Registry.begin,
        Activity.begin, hne]

end

theorem Backed.moved {site after : Site} {move : Move} (h : site.Backed)
    (hmove : site.after move = some after) : after.Backed := by
  have hkept : ∀ other, site.Stands Progress.isBackground other →
      after.Stands Progress.isBackground other := fun other hstands =>
    stands_background hstands hmove
  -- moves by which nobody is asked to end
  have hcalm : after.registry.registrar.active = site.registry.registrar.active →
      (∀ (who : Nat) (progress : Progress), after.registry.activities[who]? = some ⟨progress, true⟩ →
        site.registry.activities[who]? = some ⟨progress, true⟩ ∨ progress.isBackground = true) →
        after.Backed := by
    intro hactive hasked
    refine ⟨fun who progress hlater => ?_, hkept _ h.watcher, fun current hcurrent => ?_⟩
    · exact (hasked who progress hlater).elim (h.asked who progress) id
    · exact hkept _ (h.renewal current (hactive ▸ hcurrent))
  cases acted_of_after hmove with
  | deed hactivity hready hdeed hframe => exact h.deed hactivity hdeed hkept
  | @drop who former hactivity =>
    refine hcalm rfl fun other progress hother => ?_
    simp only [settle, leaveLocks, mapRegistry, mapRegistrar, Registry.move,
      List.getElem?_modify] at hother
    obtain ⟨⟨point, cancelled⟩, hsite, hmoved⟩ := Option.map_eq_some_iff.1 hother
    by_cases hwho : who = other
    · rw [if_pos hwho] at hmoved
      cases hmoved
      exact .inr rfl
    · rw [if_neg hwho] at hmoved
      cases hmoved
      exact .inl hsite
  | call =>
    refine hcalm rfl fun other progress hother => ?_
    simp only [mapRegistry, Registry.begin, List.getElem?_append] at hother
    split at hother
    · exact .inl hother
    · cases List.mem_singleton.1 (List.mem_of_getElem? hother)
  | request | closeStore => exact hcalm rfl fun _ _ hother => .inl hother
  | outside hnot hcall hregistry =>
    exact hcalm (by rw [hregistry]) fun _ _ hother => .inl (by rwa [hregistry] at hother)

/-! ## Who is in the line -/

/-- The line in front of the registrar: who is in it stands at the registrar, and only who is at its head
is handled. -/
structure InLine (site : Site) : Prop where
  queues : site.registry.registrar.lock.Queues (site.Stands Progress.isAtRegistrar)
  handled : ∀ who progress, site.progress? who = some progress → progress.isHandled = true →
    site.registry.registrar.lock.holder? = some who

theorem InLine.start {store : Store} {config : Config} {dialer : Dialer} {faults : Faults} :
    (start store config dialer faults).InLine := by
  refine ⟨⟨.nil, fun who => ⟨nofun, ?_⟩⟩, ?_⟩
  · rintro ⟨progress, hprogress, hat⟩
    cases (progress?_start hprogress).2
    cases hat
  · intro who progress hprogress hhandled
    cases (progress?_start hprogress).2
    cases hhandled

/-- Only one activity is handled at a time. -/
theorem InLine.handled_unique {site : Site} (h : site.InLine) {who other : Nat}
    {progress met : Progress} (hprogress : site.progress? who = some progress)
    (hhandled : progress.isHandled = true) (hmet : site.progress? other = some met)
    (hbusy : met.isHandled = true) : who = other ∧ progress = met := by
  have hwho := h.handled who progress hprogress hhandled
  have hother := h.handled other met hmet hbusy
  obtain rfl : who = other := Option.some.inj (hwho.symm.trans hother)
  exact ⟨rfl, Option.some.inj (hprogress.symm.trans hmet)⟩

/-- Who stands at the registrar and can take a step is at the head of the line. -/
theorem InLine.holder? {site : Site} (h : site.InLine) {who : Nat} {progress : Progress}
    (hready : site.canStep who = true)
    (hactivity : site.registry.activities[who]? = some ⟨progress, false⟩)
    (hat : progress.isAtRegistrar = true) : site.registry.registrar.lock.holder? = some who := by
  have hprogress : site.progress? who = some progress := progress?_of_activity hactivity
  have hqueued : site.dueFrom who progress = dueBehind site.registry.registrar.lock who →
      site.registry.registrar.lock.holder? = some who := by
    intro hbehind
    obtain ⟨activity, hsame, hgoing⟩ := of_canStep hready
    rw [hactivity] at hsame
    cases hsame
    rcases hgoing with hdropped | ⟨-, time, hdue, -⟩
    · cases hdropped
    · rw [hbehind, dueBehind] at hdue
      split at hdue
      · assumption
      · cases hdue
  cases progress with
  | registering key stage =>
    cases stage with
    | queued => exact hqueued rfl
    | _ => exact h.handled who _ hprogress rfl
  | unregistering closing stage =>
    cases stage with
    | queued => exact hqueued rfl
    | _ => exact h.handled who _ hprogress rfl
  | _ => cases hat

/-- Who was asked to end is not in the line. -/
theorem InLine.not_mem_of_asked {site : Site} (h : site.InLine) (hbacked : site.Backed) {who : Nat}
    {progress : Progress} (hactivity : site.registry.activities[who]? = some ⟨progress, true⟩) :
    who ∉ site.registry.registrar.lock.line := by
  rw [h.queues.mem_line, stands_iff _ (progress?_of_activity hactivity),
    Progress.not_isAtRegistrar_of_isBackground (hbacked.asked who progress hactivity)]
  exact Bool.false_ne_true

/-! ## Moves that are no deeds -/

/-- What a move that is not a deed does to the store. -/
inductive StoreMoved (store : Store) : Move → Store → Prop
  | same {move : Move} {after : Store} (hsame : store.SameHoldings after)
      (hsound : store.Sound → after.Sound) : StoreMoved store move after
  | served {m : Method} {request : Request m} {answer : Answer m} {after : Store}
      (hserved : store.Served request answer after) : StoreMoved store (.request request) after
  | closed : StoreMoved store .closeStore store.close

/-- What a move that is not a deed leaves as it is: nobody who was not asked to end takes a step, the
registrar does not change, and whoever registers, unregisters, closes the registry or renews a lease after
it did so before. -/
structure Calm (site : Site) (move : Move) (after : Site) : Prop where
  passes : ∀ (who : Nat) (progress : Progress), move = .step who →
    site.registry.activities[who]? ≠ some ⟨progress, false⟩
  registrar : after.registry.registrar = site.registry.registrar
  closed : after.registry.closed = site.registry.closed
  closes : after.client.closes = site.client.closes
  engaged : ∀ who progress, progress.isEngaged = true →
    (after.progress? who = some progress ↔ site.progress? who = some progress)
  renewing : ∀ (who : Nat) (key : EndpointKey) (lease : LeaseId) (renewals : Renewals),
    after.registry.activities[who]? = some ⟨.renewing key lease renewals, false⟩ →
      site.registry.activities[who]? = some ⟨.renewing key lease renewals, false⟩
  store : StoreMoved site.store move after.store

/-- An activity that was asked to end has nothing to do with a registration. -/
theorem InLine.calm_drop {site : Site} (h : site.InLine) (hbacked : site.Backed) {who : Nat}
    {former : Progress} (hactivity : site.registry.activities[who]? = some ⟨former, true⟩) :
    site.Calm (.step who) ((site.leaveLocks who).settle who (.finished (.ok .done))) := by
  have hframe := site.frame_leaveLocks who
  have hprogress : site.progress? who = some former := progress?_of_activity hactivity
  refine ⟨?_, ?_, rfl, rfl, fun other progress hengaged => ⟨fun hlater => ?_, fun hbefore => ?_⟩, ?_,
    .same (.refl _) id⟩
  · rintro other progress ⟨⟩ hgoing
    rw [hactivity] at hgoing
    cases hgoing
  · show { site.registry.registrar with lock := site.registry.registrar.lock.leave who } = _
    rw [Lock.leave_of_not_mem (h.not_mem_of_asked hbacked hactivity)]
  · rcases progress?_turned hframe hlater with ⟨-, rfl⟩ | ⟨-, hbefore | hbegins⟩
    · cases hengaged
    · exact hbefore
    · rw [Progress.not_isEngaged_of_isBeginning hbegins] at hengaged
      cases hengaged
  · refine progress?_settle_other hframe ?_ hbefore
    rintro rfl
    rw [hprogress] at hbefore
    cases hbefore
    rw [Progress.not_isEngaged_of_isBackground (hbacked.asked other _ hactivity)] at hengaged
    cases hengaged
  · intro other key lease renewals hother
    simp only [settle, leaveLocks, mapRegistry, mapRegistrar, Registry.move,
      List.getElem?_modify] at hother
    obtain ⟨activity, hsite, hmoved⟩ := Option.map_eq_some_iff.1 hother
    by_cases hwho : who = other
    · rw [if_pos hwho] at hmoved
      cases hmoved
    · rw [if_neg hwho] at hmoved
      rw [hsite]
      exact congrArg some hmoved

theorem calm_call (site : Site) (call : Call) :
    site.Calm (.call call) (site.mapRegistry fun registry => registry.begin (.calling call)) := by
  have hmove : site.after (.call call) =
      some (site.mapRegistry fun registry => registry.begin (.calling call)) := rfl
  refine ⟨fun _ _ hstep => (by cases hstep), rfl, rfl, rfl,
    fun who progress hengaged => ⟨fun hlater => ?_, progress?_of_other hmove (by simp)⟩, ?_,
    .same (.refl _) id⟩
  · rcases (site.frame_begin rfl).begun who progress hlater with hbefore | ⟨-, hbegins⟩
    · exact hbefore
    · rw [Progress.not_isEngaged_of_isBeginning hbegins] at hengaged
      cases hengaged
  · intro who key lease renewals hlater
    simp only [mapRegistry, Registry.begin, List.getElem?_append] at hlater
    split at hlater
    · exact hlater
    · cases List.mem_singleton.1 (List.mem_of_getElem? hlater)

theorem calm_of_registry {site after : Site} {move : Move} (hother : ∀ who, move ≠ .step who)
    (hregistry : after.registry = site.registry) (hclient : after.client = site.client)
    (hstore : StoreMoved site.store move after.store) : site.Calm move after := by
  refine ⟨fun who _ hstep => absurd hstep (hother who), by rw [hregistry], by rw [hregistry],
    by rw [hclient], fun who progress _ => ?_, fun who key lease renewals hlater => ?_, hstore⟩
  · rw [progress?, hregistry]
    rfl
  · rwa [hregistry] at hlater

/-- A move is a deed, or it is calm. -/
inductive Course (site : Site) : Move → Site → Prop
  | deed {who : Nat} {former next : Progress} {mid : Site}
      (hactivity : site.registry.activities[who]? = some ⟨former, false⟩)
      (hready : site.canStep who = true) (hdeed : site.Deed who former next mid)
      (hframe : site.Frame mid) : site.Course (.step who) (mid.settle who next)
  | calm {move : Move} {after : Site} (hcalm : site.Calm move after) : site.Course move after

theorem InLine.course {site after : Site} {move : Move} (h : site.InLine) (hbacked : site.Backed)
    (hmove : site.after move = some after) : site.Course move after := by
  cases acted_of_after hmove with
  | deed hactivity hready hdeed hframe => exact .deed hactivity hready hdeed hframe
  | drop hactivity => exact .calm (h.calm_drop hbacked hactivity)
  | @call call => exact .calm (site.calm_call call)
  | request hserved => exact .calm (calm_of_registry (by simp) rfl rfl (.served hserved))
  | closeStore => exact .calm (calm_of_registry (by simp) rfl rfl .closed)
  | outside hother hcall hregistry hclient hsame hsound =>
    exact .calm (calm_of_registry hother hregistry hclient (.same hsame hsound))

/-- Who is met at the registrar after a move was met there before, or has come to where it is by its own
deed. -/
theorem InLine.met {site after : Site} {move : Move} (h : site.InLine) (hbacked : site.Backed)
    (hmove : site.after move = some after) {who : Nat} {progress : Progress}
    (hprogress : after.progress? who = some progress) (hat : progress.isAtRegistrar = true) :
    site.progress? who = some progress ∨ ∃ former mid,
      site.registry.activities[who]? = some ⟨former, false⟩ ∧ site.Deed who former progress mid := by
  cases h.course hbacked hmove with
  | deed hactivity hready hdeed hframe =>
    rcases progress?_turned hframe hprogress with ⟨rfl, rfl⟩ | ⟨-, hbefore | hbegins⟩
    · exact .inr ⟨_, _, hactivity, hdeed⟩
    · exact .inl hbefore
    · rw [Progress.not_isAtRegistrar_of_isBeginning hbegins] at hat
      cases hat
  | calm hcalm =>
    exact .inl ((hcalm.engaged who progress (Progress.isEngaged_of_isAtRegistrar hat)).1 hprogress)

/-! ## The line after a move -/

/-- Who is handled after a step was handled before, or has just come to where it is. -/
theorem InLine.handled_cases {site mid : Site} {who : Nat} {next : Progress} (h : site.InLine)
    (hframe : site.Frame mid) {other : Nat} {progress : Progress}
    (hmet : (mid.settle who next).progress? other = some progress)
    (hbusy : progress.isHandled = true) :
    other ≠ who ∧ site.registry.registrar.lock.holder? = some other ∨
      other = who ∧ next.isHandled = true := by
  rcases progress?_turned hframe hmet with ⟨rfl, rfl⟩ | ⟨hne, hbefore | hbegins⟩
  · exact .inr ⟨rfl, hbusy⟩
  · exact .inl ⟨hne, h.handled other progress hbefore hbusy⟩
  · have hat := Progress.isAtRegistrar_of_isHandled hbusy
    rw [Progress.not_isAtRegistrar_of_isBeginning hbegins] at hat
    cases hat

theorem InLine.deed {site mid : Site} {who : Nat} {former next : Progress} (h : site.InLine)
    (hactivity : site.registry.activities[who]? = some ⟨former, false⟩)
    (hready : site.canStep who = true) (hdeed : site.Deed who former next mid)
    (hframe : site.Frame mid) : (mid.settle who next).InLine := by
  have hprogress : site.progress? who = some former := progress?_of_activity hactivity
  have hwas := stands_iff Progress.isAtRegistrar hprogress
  have hown := stands_iff Progress.isAtRegistrar
    (progress?_settle_self hframe next hprogress)
  have hothers : ∀ other, other ≠ who → ((mid.settle who next).Stands Progress.isAtRegistrar other ↔
      site.Stands Progress.isAtRegistrar other) :=
    fun other => stands_settle_other hframe fun _ => Progress.not_isAtRegistrar_of_isBeginning
  have hlock : (mid.settle who next).registry.registrar.lock = mid.registry.registrar.lock := rfl
  rcases hdeed.lock_cases with ⟨hsame, hstays⟩ | ⟨henter, -, hnot, hcomes, hwaits⟩ |
    ⟨hrelease, hbusy, hleaves⟩
  · constructor
    · rw [hlock, hsame]
      exact h.queues.congr (stands_settle hframe
        (fun _ => Progress.not_isAtRegistrar_of_isBeginning) hprogress hstays.symm)
    · intro other progress hmet hbusy
      rw [hlock, hsame]
      rcases h.handled_cases hframe hmet hbusy with ⟨-, hholder⟩ | ⟨rfl, hnext⟩
      · exact hholder
      · exact h.holder? hready hactivity
          (hstays.trans (Progress.isAtRegistrar_of_isHandled hnext))
  · constructor
    · rw [hlock, henter]
      refine h.queues.enter hothers ?_ (hown.2 hcomes)
      rw [hwas, hnot]
      exact Bool.false_ne_true
    · intro other progress hmet hbusy
      rw [hlock, henter]
      rcases h.handled_cases hframe hmet hbusy with ⟨-, hholder⟩ | ⟨rfl, hnext⟩
      · exact Lock.holder?_enter hholder
      · rw [hwaits] at hnext
        cases hnext
  · have hholder := h.handled who former hprogress hbusy
    constructor
    · rw [hlock, hrelease, ← Lock.leave_of_holder? hholder]
      refine h.queues.leave hothers ?_
      rw [hown, hleaves]
      exact Bool.false_ne_true
    · intro other progress hmet hhandles
      rcases h.handled_cases hframe hmet hhandles with ⟨hne, hother⟩ | ⟨rfl, hnext⟩
      · rw [hholder] at hother
        exact absurd (Option.some.inj hother).symm hne
      · rw [Progress.isAtRegistrar_of_isHandled hnext] at hleaves
        cases hleaves

theorem InLine.moved {site after : Site} {move : Move} (h : site.InLine) (hbacked : site.Backed)
    (hmove : site.after move = some after) : after.InLine := by
  cases h.course hbacked hmove with
  | deed hactivity hready hdeed hframe => exact h.deed hactivity hready hdeed hframe
  | calm hcalm =>
    have hsame : ∀ who progress, progress.isAtRegistrar = true →
        (after.progress? who = some progress ↔ site.progress? who = some progress) :=
      fun who progress hat => hcalm.engaged who progress (Progress.isEngaged_of_isAtRegistrar hat)
    refine ⟨?_, fun who progress hprogress hhandled => ?_⟩
    · rw [hcalm.registrar]
      refine h.queues.congr fun who => ⟨?_, ?_⟩
      · rintro ⟨progress, hprogress, hat⟩
        exact ⟨progress, (hsame who progress hat).1 hprogress, hat⟩
      · rintro ⟨progress, hprogress, hat⟩
        exact ⟨progress, (hsame who progress hat).2 hprogress, hat⟩
    · rw [hcalm.registrar]
      exact h.handled who progress
        ((hsame who progress (Progress.isAtRegistrar_of_isHandled hhandled)).1 hprogress) hhandled

/-- The line is in order after every run, and nobody in it has been asked to end. -/
theorem inLine_of_run {store : Store} {config : Config} {dialer : Dialer} {faults : Faults}
    {moves : List Move} {site : Site}
    (hrun : (Site.start store config dialer faults).run moves = some site) :
    site.InLine ∧ site.Backed :=
  run_induction (P := fun site => site.InLine ∧ site.Backed) ⟨.start, .start⟩
    (fun _ _ _ ⟨hline, hbacked⟩ hmove => ⟨hline.moved hbacked hmove, hbacked.moved hmove⟩) hrun

end Site

end ServiceRegistry
