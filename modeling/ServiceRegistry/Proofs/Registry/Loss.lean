import ServiceRegistry.Proofs.Registry.Attachment

/-!
# The loss of a lease

The renewal of a lease runs beside the registrations and unregistrations, and it is told to end when its
registration is taken away. Until it has ended it may still look at its stream. What it finds there is
published only if the status is that of a registration under its lease (`Registrar.lose`). As leases are
not granted twice, that is only its own one: no renewal speaks for another registration
(`renewing_unique`). Nor is a registration left without its renewal (`Attended`): as long as the status
says that a key is registered under a lease, an activity that nobody has asked to end renews this lease.
-/
namespace ServiceRegistry

/-- What a look at a stream of renewals has found ends the renewal: an error, the end of the stream, or an
acknowledgement that grants no time. -/
def Pull.isLoss {Stream : Type} : Pull Stream Int → Bool
  | .item (.ok ttl) _ => decide (ttl ≤ 0)
  | .item (.error _) _ | .finished => true
  | .waiting | .skipped _ => false

/-- How a stream of renewals is read on without a loss. -/
inductive Renewals.Goes (renewals : Renewals) (store : Store) (clock : Nat) : Renewals → Prop
  | stays : renewals.Goes store clock renewals
  | skips {rest : Renewals} (hpull : renewals.pull store clock = .skipped rest) :
      renewals.Goes store clock rest
  | takes {rest : Renewals} {ttl : Int} (hpull : renewals.pull store clock = .item (.ok ttl) rest) :
      renewals.Goes store clock (rest.ask clock)

namespace Registrar

/-- The loss of a lease is published just if the status is that of a registration under the lease. -/
theorem lose_eq (registrar : Registrar) (key : EndpointKey) (lease : LeaseId) :
    (∃ other, registrar.status = .registered other lease) ∧
        registrar.lose key lease = registrar.publish (.lost key lease) ∨
      (∀ other, registrar.status ≠ .registered other lease) ∧ registrar.lose key lease = registrar := by
  unfold lose
  split
  · rename_i other live hstatus
    by_cases hlease : live = lease
    · exact .inl ⟨⟨other, hlease ▸ hstatus⟩, if_pos hlease⟩
    · refine .inr ⟨fun met hmet => hlease ?_, if_neg hlease⟩
      rw [hstatus] at hmet
      cases hmet
      rfl
  · rename_i hstatus
    exact .inr ⟨fun other hother => hstatus other lease hother, rfl⟩

end Registrar

namespace Site

/-- The renewal of a lease goes on, or it stops because the stream has told of a loss. -/
theorem stepRenewing_cases (site : Site) (key : EndpointKey) (lease : LeaseId) (renewals : Renewals) :
    (renewals.pull site.store site.clock).isLoss = false ∧
        (∃ rest, renewals.Goes site.store site.clock rest ∧
          site.stepRenewing key lease renewals = (.renewing key lease rest, site)) ∨
      (renewals.pull site.store site.clock).isLoss = true ∧
        site.stepRenewing key lease renewals = (.finished (.ok .done),
          site.mapRegistrar fun registrar => registrar.lose key lease) := by
  unfold stepRenewing
  cases hpull : renewals.pull site.store site.clock with
  | waiting => exact .inl ⟨rfl, renewals, .stays, rfl⟩
  | skipped rest => exact .inl ⟨rfl, rest, .skips hpull, rfl⟩
  | finished => exact .inr ⟨rfl, rfl⟩
  | item item rest =>
    cases item with
    | error e => exact .inr ⟨rfl, rfl⟩
    | ok ttl =>
      by_cases httl : 0 < ttl
      · exact .inl ⟨decide_eq_false (not_le.2 httl), rest.ask site.clock, .takes hpull,
          by simp only [if_pos httl]⟩
      · exact .inr ⟨decide_eq_true (not_lt.1 httl), by simp only [if_neg httl]⟩

/-! ## Registrations are attended -/

/-- Only the renewal of a lease goes on as one. -/
theorem Deed.isRenewing {site mid : Site} {who : Nat} {former next : Progress}
    (h : site.Deed who former next mid) (hnext : next.isRenewing = true) : former.isRenewing = true := by
  cases h with
  | aside hformer haside =>
    rw [Progress.not_isRenewing_of_isAside haside] at hnext
    cases hnext
  | renew => rfl
  | _ => cases hnext

/-- A registration that is not lost is attended by the renewal of its lease, and that is not the
watcher. -/
structure Attended (site : Site) : Prop where
  renewed : ∀ key lease, site.registry.registrar.status = .registered key lease →
    ∃ renewal renewals, site.registry.registrar.active = some ⟨key, lease, renewal⟩ ∧
      site.registry.activities[renewal]? = some ⟨.renewing key lease renewals, false⟩
  watcher : ∀ progress, site.progress? Registry.watcher = some progress → progress.isRenewing = false

theorem Attended.start {store : Store} {config : Config} {dialer : Dialer} {faults : Faults} :
    (start store config dialer faults).Attended := by
  refine ⟨nofun, fun progress hprogress => ?_⟩
  cases (progress?_start hprogress).2
  rfl

/-- What has just begun is not the watcher, since there are activities before it. -/
theorem watcher_turned {site mid : Site} {who : Nat} {activity : Activity} {next progress : Progress}
    (hactivity : site.registry.activities[who]? = some activity) (hframe : site.Frame mid)
    (hmet : (mid.settle who next).progress? Registry.watcher = some progress) :
    who = Registry.watcher ∧ progress = next ∨ site.progress? Registry.watcher = some progress := by
  by_cases hwho : who = Registry.watcher
  · subst hwho
    rw [progress?_settle_self hframe next (progress?_of_activity hactivity)] at hmet
    exact .inl ⟨rfl, (Option.some.inj hmet).symm⟩
  · have hmid : mid.progress? Registry.watcher = some progress := by
      simpa [settle, mapRegistry, Registry.move, progress?, hwho] using hmet
    have hlt := (List.getElem?_eq_some_iff.1 hactivity).1
    exact .inr ((hframe.begun _ _ hmid).resolve_right fun hlate =>
      absurd (hlt.trans_le hlate.1) (Nat.not_lt_zero _))

section
variable {site mid : Site} {who : Nat} {former next : Progress} (h : site.Attended)
  (hactivity : site.registry.activities[who]? = some ⟨former, false⟩)
include h

/-- Where the status and the active registration are the same, it is enough that the renewals go on. -/
theorem Attended.of_same {after : Site}
    (hstatus : after.registry.registrar.status = site.registry.registrar.status)
    (hactive : after.registry.registrar.active = site.registry.registrar.active)
    (hwatcher : ∀ progress, after.progress? Registry.watcher = some progress →
      progress.isRenewing = false)
    (hrenewing : ∀ other key lease renewals, other ≠ Registry.watcher →
      site.registry.activities[other]? = some ⟨.renewing key lease renewals, false⟩ →
        ∃ rest, after.registry.activities[other]? = some ⟨.renewing key lease rest, false⟩) :
    after.Attended := by
  refine ⟨fun key lease hregistered => ?_, hwatcher⟩
  obtain ⟨renewal, renewals, hcurrent, hbefore⟩ := h.renewed key lease (hstatus ▸ hregistered)
  have hother : renewal ≠ Registry.watcher := by
    rintro rfl
    cases h.watcher _ (progress?_of_activity hbefore)
  obtain ⟨rest, hafter⟩ := hrenewing renewal key lease renewals hother hbefore
  exact ⟨renewal, rest, hactive.trans hcurrent, hafter⟩

include hactivity in
/-- The watcher does not come to renew a lease. -/
theorem Attended.watcher_settle (hdeed : site.Deed who former next mid) (hframe : site.Frame mid)
    (progress : Progress) (hmet : (mid.settle who next).progress? Registry.watcher = some progress) :
    progress.isRenewing = false := by
  rcases watcher_turned hactivity hframe hmet with ⟨rfl, rfl⟩ | hbefore
  · by_contra hrenewing
    have hformer := hdeed.isRenewing (by simpa using hrenewing)
    rw [h.watcher former (progress?_of_activity hactivity)] at hformer
    cases hformer
  · exact h.watcher progress hbefore

include hactivity in
/-- The others go on renewing after a step that leaves the status and the active registration, and asks
nobody but the watcher to end. -/
theorem Attended.of_kept (hdeed : site.Deed who former next mid) (hframe : site.Frame mid)
    (hformer : former.isRenewing = false)
    (hkept : ∀ other progress, other ≠ Registry.watcher →
      site.registry.activities[other]? = some ⟨progress, false⟩ →
        mid.registry.activities[other]? = some ⟨progress, false⟩)
    (hstatus : mid.registry.registrar.status = site.registry.registrar.status)
    (hactive : mid.registry.registrar.active = site.registry.registrar.active) :
    (mid.settle who next).Attended := by
  refine h.of_same hstatus hactive (h.watcher_settle hactivity hdeed hframe)
    fun other key lease renewals hne hbefore => ⟨renewals, ?_⟩
  have hwho : who ≠ other := by
    rintro rfl
    rw [hactivity] at hbefore
    cases hbefore
    cases hformer
  simp [settle, mapRegistry, Registry.move, hwho, hkept other _ hne hbefore]

include hactivity in
/-- Nobody has to renew anything after a deed that leaves the status that of no live registration. -/
theorem Attended.of_unregistered (hdeed : site.Deed who former next mid) (hframe : site.Frame mid)
    (hstatus : ∀ key lease, mid.registry.registrar.status ≠ .registered key lease) :
    (mid.settle who next).Attended :=
  ⟨fun key lease hregistered => absurd hregistered (hstatus key lease),
    h.watcher_settle hactivity hdeed hframe⟩

/-- A lease is renewed by the same activity after one more look at its stream. -/
theorem Attended.of_renew {key : EndpointKey} {lease : LeaseId} {renewals rest : Renewals}
    (hactivity : site.registry.activities[who]? = some ⟨.renewing key lease renewals, false⟩)
    (hwatcher : ∀ progress,
      (site.settle who (.renewing key lease rest)).progress? Registry.watcher = some progress →
        progress.isRenewing = false) :
    (site.settle who (.renewing key lease rest)).Attended := by
  refine h.of_same rfl rfl hwatcher fun other key' lease' renewals' hne hbefore => ?_
  by_cases hwho : who = other
  · subst hwho
    rw [hactivity] at hbefore
    cases hbefore
    exact ⟨rest, by simp [settle, mapRegistry, Registry.move, hactivity]⟩
  · exact ⟨renewals', by simp [settle, mapRegistry, Registry.move, hwho, hbefore]⟩

omit h in
/-- Whoever finds a lease lost leaves no registration with it. -/
theorem lose_status_ne {key : EndpointKey} {lease : LeaseId} {renewals : Renewals}
    (hstanding : site.Standing)
    (hactivity : site.registry.activities[who]? = some ⟨.renewing key lease renewals, false⟩)
    (other : EndpointKey) (live : LeaseId) :
    (site.registry.registrar.lose key lease).status ≠ .registered other live := by
  intro hregistered
  obtain ⟨-, hstatus⟩ := hstanding.renews who key lease renewals hactivity
  rcases site.registry.registrar.lose_eq key lease with ⟨-, hlose⟩ | ⟨hnot, -⟩
  · rw [hlose] at hregistered
    cases hregistered
  · exact hnot key hstatus

variable (hstanding : site.Standing)

include hactivity hstanding in
/-- A deed leaves a registration with the renewal of its lease, or it begins to renew the lease, or the
status is not that of a live registration any more. -/
theorem Attended.deed (hdeed : site.Deed who former next mid) (hframe : site.Frame mid) :
    (mid.settle who next).Attended := by
  have hwatcher := h.watcher_settle hactivity hdeed hframe
  have hothers := h.of_kept hactivity hdeed hframe
  have hnone := h.of_unregistered hactivity hdeed hframe
  cases hdeed with
  | aside hformer haside hspares =>
    exact hothers (Progress.not_isRenewing_of_isAside hformer)
      (fun other progress _ hbefore => hspares.activities ▸ hbefore)
      (congrArg Registrar.status hspares.registrar) (congrArg Registrar.active hspares.registrar)
  | renew => exact h.of_renew hactivity hwatcher
  | stop => exact hnone (lose_status_ne hstanding hactivity)
  | close hopen =>
    refine hothers rfl (fun other progress hne hbefore => ?_) rfl rfl
    simp [mapRegistry, enterRegistrar, mapRegistrar, Registry.cancel, hbefore, Ne.symm hne]
  | begin hactive hsend | remove hactive hsend | beginAgain hreceive hsend =>
    refine hnone fun key lease hregistered => ?_
    rw [registry_of_send hsend] at hregistered
    cases hregistered
  | replace hactive hlost hsend =>
    refine hnone fun key lease hregistered => ?_
    rw [registry_of_send hsend] at hregistered
    rw [show site.registry.registrar.status = .registered key lease from hregistered] at hlost
    cases hlost
  | refuse hreceive | giveUp hreceive | revoke hreceive =>
    exact hnone fun key lease hregistered => by cases hregistered
  | grant hreceive hsend | attach hreceive hsend | detach hreceive hsend | abandon hreceive hsend
  | delete hreceive hsend =>
    have hregistry := (registry_of_send hsend).trans (registry_of_receive hreceive)
    exact hothers rfl (fun other progress _ hbefore => hregistry ▸ hbefore)
      (congrArg (fun registry => registry.registrar.status) hregistry)
      (congrArg (fun registry => registry.registrar.active) hregistry)
  | @register key lease opening renewals rest received hreceive =>
    refine ⟨fun key' lease' hregistered => ?_, hwatcher⟩
    cases hregistered
    have hne : who ≠ site.registry.activities.length := by
      have hlt := (List.getElem?_eq_some_iff.1 hactivity).1
      omega
    refine ⟨site.registry.activities.length, rest, rfl, ?_⟩
    simp [settle, mapRegistry, Registry.move, setActive, mapRegistrar, publish, Registry.begin,
      registry_of_receive hreceive, Activity.begin, hne]
  | _ => exact hothers rfl (fun other progress _ hbefore => hbefore) rfl rfl

end

theorem Attended.moved {site after : Site} {move : Move} (h : site.Attended) (hstanding : site.Standing)
    (hmove : site.after move = some after) : after.Attended := by
  cases acted_of_after hmove with
  | deed hactivity hready hdeed hframe => exact h.deed hactivity hstanding hdeed hframe
  | @drop who former hactivity =>
    refine h.of_same rfl rfl (fun progress hmet => ?_) fun other key lease renewals hne hbefore =>
      ⟨renewals, ?_⟩
    · rcases watcher_turned hactivity (site.frame_leaveLocks who) hmet with ⟨-, rfl⟩ | hbefore
      · rfl
      · exact h.watcher progress hbefore
    · have hwho : who ≠ other := by
        rintro rfl
        rw [hactivity] at hbefore
        cases hbefore
      simp [settle, leaveLocks, mapRegistry, mapRegistrar, Registry.move, hwho, hbefore]
  | call =>
    refine h.of_same rfl rfl (fun progress hmet => ?_) fun other key lease renewals hne hbefore =>
      ⟨renewals, ?_⟩
    · rcases (site.frame_begin rfl).begun _ _ hmet with hbefore | ⟨hlate, -⟩
      · exact h.watcher progress hbefore
      · have hempty : site.registry.activities = [] := List.length_eq_zero_iff.1 (Nat.le_zero.1 hlate)
        simp only [progress?, mapRegistry, Registry.begin, hempty] at hmet
        cases hmet
        rfl
    · have hlt := (List.getElem?_eq_some_iff.1 hbefore).1
      simp only [mapRegistry, Registry.begin, List.getElem?_append_left hlt]
      exact hbefore
  | request hserved => exact ⟨h.renewed, h.watcher⟩
  | closeStore => exact ⟨h.renewed, h.watcher⟩
  | outside hnot hcall hregistry =>
    refine ⟨?_, ?_⟩
    · rw [hregistry]
      exact h.renewed
    · rw [progress?, hregistry]
      exact h.watcher

theorem attended_of_run {store : Store} {config : Config} {dialer : Dialer} {faults : Faults}
    {moves : List Move} {site : Site}
    (hrun : (Site.start store config dialer faults).run moves = some site) : site.Attended := by
  refine history_induction (P := fun _ site => site.Attended) .start ?_ hrun
  exact fun _ _ _ _ hbefore h hmove => h.moved (standing_of_run hbefore) hmove

/-! ## Where renewals come from -/

/-- An activity that is met where no activity begins was met there before, or it has come there by its own
step. -/
theorem met_of_after {site after : Site} {move : Move} (hmove : site.after move = some after) {who : Nat}
    {progress : Progress} (hprogress : after.progress? who = some progress)
    (hbegun : progress.isBeginning = false) :
    site.progress? who = some progress ∨ move = .step who ∧ ∃ former asked,
      site.registry.activities[who]? = some ⟨former, asked⟩ ∧
        (progress = .finished (.ok .done) ∨ progress = (site.stepFrom who former).1) := by
  rcases (moved_of_after hmove).progress_cases hprogress with
    ⟨-, hbefore | hbegins⟩ | ⟨⟨former, asked⟩, mid, rfl, -, hactivity, -⟩
  · exact .inl hbefore
  · rw [hbegun] at hbegins
    cases hbegins
  · refine .inr ⟨rfl, former, asked, hactivity, ?_⟩
    obtain ⟨-, rfl⟩ := of_after_step hmove
    rw [progress?_step hactivity] at hprogress
    split at hprogress
    · exact .inl (Option.some.inj hprogress).symm
    · exact .inr (Option.some.inj hprogress).symm

/-- Who is asked to end stays where it is until then. -/
theorem progress?_cancel {site after : Site} {asked : Nat}
    (h : after.registry.activities = (site.registry.cancel asked).activities) (who : Nat) :
    after.progress? who = site.progress? who := by
  rw [progress?, h, Registry.cancel, List.getElem?_modify, progress?]
  cases site.registry.activities[who]? with
  | none => rfl
  | some activity => by_cases hwho : asked = who <;> simp [hwho]

/-- No deed but the completion of a registration puts anybody but the one who does it anywhere. -/
theorem Deed.begun_cases {site mid : Site} {who : Nat} {former next : Progress}
    (h : site.Deed who former next mid) :
    (∀ other, mid.progress? other = site.progress? other) ∨
      ∃ key lease flight, former = .registering key (.opening lease flight) := by
  cases h with
  | aside hformer hnext hspares => exact .inl fun other => by rw [progress?, hspares.activities]; rfl
  | close => exact .inl (progress?_cancel rfl)
  | begin hactive hsend =>
    exact .inl fun other => by rw [progress?, registry_of_send hsend]; rfl
  | replace hactive hlost hsend | remove hactive hsend =>
    exact .inl (progress?_cancel (by rw [registry_of_send hsend]; rfl))
  | beginAgain hreceive hsend =>
    exact .inl fun other => by
      rw [progress?, registry_of_send hsend, registry_publish_of_receive hreceive]
      rfl
  | grant hreceive hsend | attach hreceive hsend | detach hreceive hsend | delete hreceive hsend =>
    exact .inl fun other => by
      rw [progress?, registry_of_send hsend, registry_of_receive hreceive]
      rfl
  | refuse hreceive | giveUp hreceive | revoke hreceive =>
    exact .inl fun other => by
      rw [progress?, registry_publish_of_receive hreceive]
      rfl
  | register | abandon => exact .inr ⟨_, _, _, rfl⟩
  | _ => exact .inl fun other => rfl

/-- The step that completes a registration begins to renew its lease, and no other one. -/
theorem renewing_of_opening {site : Site} {who : Nat} {key opened : EndpointKey}
    {lease held : LeaseId} {flight : Flight .keepAlive} {renewals : Renewals}
    (hrenewing : (site.stepRegistering opened (.opening held flight)).2.progress? who =
      some (.renewing key lease renewals)) :
    site.progress? who = some (.renewing key lease renewals) ∨
      key = opened ∧ lease = held ∧ who = site.registry.activities.length ∧
        ∃ given, (site.receive flight).1 = .ok given ∧ renewals = given.ask site.clock := by
  simp only [stepRegistering] at hrenewing
  split at hrenewing
  · rename_i given received hreceive
    have hclock : received.clock = site.clock := by
      have hmid : received.clock = (site.receive flight).2.clock := by rw [hreceive]
      exact hmid.trans (site.toLink.clock_receive flight)
    have hactivities : received.registry.activities = site.registry.activities := by
      rw [registry_of_receive hreceive]
    simp only [progress?, setActive, mapRegistrar, mapRegistry, publish, Registry.begin, hactivities,
      hclock, List.getElem?_append] at hrenewing
    split at hrenewing
    · exact .inl hrenewing
    · rename_i hlate
      obtain ⟨activity, hactivity, hprogress⟩ := Option.map_eq_some_iff.1 hrenewing
      have hlast := (List.getElem?_eq_some_iff.1 hactivity).1
      cases List.mem_singleton.1 (List.mem_of_getElem? hactivity)
      cases hprogress
      exact .inr ⟨rfl, rfl, by simp at hlast; omega, given, by rw [hreceive], rfl⟩
  · rename_i e received hreceive
    have hsame : (received.send (.revoke held)).2.registry = site.registry :=
      (registry_of_send (Prod.ext rfl rfl)).trans (registry_of_receive hreceive)
    left
    change (received.send (.revoke held)).2.progress? who = _ at hrenewing
    rwa [progress?, hsame] at hrenewing

/-- A renewal that goes on after its own step has read its stream on. -/
theorem renewing_of_own {site : Site} {who : Nat} {former : Progress} {key : EndpointKey}
    {lease : LeaseId} {renewals : Renewals}
    (hactivity : site.registry.activities[who]? = some ⟨former, false⟩)
    (hformer : former.isRenewing = true)
    (hrenewing : (site.step who).progress? who = some (.renewing key lease renewals)) :
    ∃ read, former = .renewing key lease read ∧ read.Goes site.store site.clock renewals := by
  rw [progress?_step hactivity] at hrenewing
  cases former with
  | renewing key' lease' read =>
    rcases site.stepRenewing_cases key' lease' read with ⟨-, rest, hgoes, hrest⟩ | ⟨-, hstopped⟩
    · simp only [Activity.isDropped, Bool.false_and, stepFrom, hrest] at hrenewing
      cases hrenewing
      exact ⟨read, rfl, hgoes⟩
    · simp only [Activity.isDropped, Bool.false_and, stepFrom, hstopped] at hrenewing
      cases hrenewing
  | _ => cases hformer

/-- A renewal met after the step of another was there before, or that one is a registration which has just
opened the stream. -/
theorem renewing_of_other {site mid : Site} {other who : Nat} {former next : Progress}
    {key : EndpointKey} {lease : LeaseId} {renewals : Renewals}
    (hactivity : site.registry.activities[other]? = some ⟨former, false⟩)
    (hdeed : site.Deed other former next mid) (hstep : mid.settle other next = site.step other)
    (hne : other ≠ who)
    (hrenewing : (mid.settle other next).progress? who = some (.renewing key lease renewals)) :
    site.progress? who = some (.renewing key lease renewals) ∨
      ∃ flight given, who = site.registry.activities.length ∧
        former = .registering key (.opening lease flight) ∧
          (site.receive flight).1 = .ok given ∧ renewals = given.ask site.clock := by
  have hmid : mid.progress? who = some (.renewing key lease renewals) := by
    simpa [settle, mapRegistry, Registry.move, progress?, hne] using hrenewing
  rcases hdeed.begun_cases with hsame | ⟨key', lease', flight, rfl⟩
  · rw [hsame] at hmid
    exact .inl hmid
  · have hopening : (site.stepRegistering key' (.opening lease' flight)).2.progress? who =
        some (.renewing key lease renewals) := by
      rw [hstep, step_of_activity hactivity] at hrenewing
      simpa [settle, mapRegistry, Registry.move, progress?, hne, stepFrom] using hrenewing
    rcases renewing_of_opening hopening with hbefore | ⟨rfl, rfl, hlast, given, hgiven, hasked⟩
    · exact .inl hbefore
    · exact .inr ⟨flight, given, hlast, rfl, hgiven, hasked⟩

/-- A lease that is renewed was renewed before, from a stream that was read on, or its stream has just
been opened by a registration. -/
theorem renewing_of_after {site after : Site} {move : Move} (hmove : site.after move = some after)
    {who : Nat} {key : EndpointKey} {lease : LeaseId} {renewals : Renewals}
    (hrenewing : after.progress? who = some (.renewing key lease renewals)) :
    (∃ former, site.progress? who = some (.renewing key lease former) ∧
        former.Goes site.store site.clock renewals) ∨
      ∃ other flight given, move = .step other ∧ who = site.registry.activities.length ∧
        site.registry.activities[other]? = some ⟨.registering key (.opening lease flight), false⟩ ∧
          (site.receive flight).1 = .ok given ∧ renewals = given.ask site.clock := by
  cases acted_of_after hmove with
  | @deed other former next mid hactivity hready hdeed hframe =>
    have hprogress : site.progress? other = some former := progress?_of_activity hactivity
    have hstep : mid.settle other next = site.step other := (of_after_step hmove).2
    by_cases hwho : other = who
    · subst hwho
      have hnext : next = .renewing key lease renewals :=
        Option.some.inj ((progress?_settle_self hframe next hprogress).symm.trans hrenewing)
      obtain ⟨read, rfl, hgoes⟩ :=
        renewing_of_own hactivity (hdeed.isRenewing (hnext ▸ rfl)) (hstep ▸ hrenewing)
      exact .inl ⟨read, hprogress, hgoes⟩
    · rcases renewing_of_other hactivity hdeed hstep hwho hrenewing with
        hbefore | ⟨flight, given, hlast, rfl, hgiven, hasked⟩
      · exact .inl ⟨renewals, hbefore, .stays⟩
      · exact .inr ⟨other, flight, given, rfl, hlast, hactivity, hgiven, hasked⟩
  | @drop other former hactivity =>
    by_cases hwho : other = who
    · subst hwho
      rw [progress?_settle_self (site.frame_leaveLocks other) _ (progress?_of_activity hactivity)]
        at hrenewing
      cases hrenewing
    · have hbefore : site.progress? who = some (.renewing key lease renewals) := by
        simpa [settle, leaveLocks, mapRegistry, mapRegistrar, Registry.move, progress?, hwho]
          using hrenewing
      exact .inl ⟨renewals, hbefore, .stays⟩
  | call =>
    refine .inl ⟨renewals, ?_, .stays⟩
    simp only [progress?, mapRegistry, Registry.begin, List.getElem?_append] at hrenewing
    split at hrenewing
    · exact hrenewing
    · obtain ⟨activity, hactivity, hprogress⟩ := Option.map_eq_some_iff.1 hrenewing
      cases List.mem_singleton.1 (List.mem_of_getElem? hactivity)
      cases hprogress
  | request hserved => exact .inl ⟨renewals, hrenewing, .stays⟩
  | closeStore => exact .inl ⟨renewals, hrenewing, .stays⟩
  | outside hnot hcall hregistry =>
    rw [progress?, hregistry] at hrenewing
    exact .inl ⟨renewals, hrenewing, .stays⟩

/-! ## What is granted and renewed -/

/-- A lease is asked for with the time-to-live of the configuration, and what is renewed is the lease of
the registration. -/
structure AsksRenewals (site : Site) : Prop where
  granting : ∀ who key flight, site.progress? who = some (.registering key (.granting flight)) →
    flight.request = .grant site.registry.config.leaseTtlSecs
  opening : ∀ who key lease flight,
    site.progress? who = some (.registering key (.opening lease flight)) →
      ∃ interval, flight.request = .keepAlive lease interval

theorem request_startGranting {site : Site} {key asked : EndpointKey} {flight : Flight .grant}
    (h : (site.startGranting key).1 = .registering asked (.granting flight)) :
    flight.request = .grant site.registry.config.leaseTtlSecs := by
  cases h
  exact Link.request_send _ _

/-- A step by which a lease is asked for asks for the time-to-live of the configuration. -/
theorem request_stepFrom {site : Site} {who : Nat} {former : Progress} {key : EndpointKey}
    {flight : Flight .grant} (h : (site.stepFrom who former).1 = .registering key (.granting flight)) :
    flight.request = .grant site.registry.config.leaseTtlSecs := by
  have hdeed := site.deed_of_stepFrom who former
  rw [h] at hdeed
  generalize (site.stepFrom who former).2 = mid at hdeed
  cases hdeed with
  | aside hformer hnext => cases hnext
  | begin hactive hsend =>
    simp only [stepFrom, stepRegistering, hactive] at h
    exact request_startGranting h
  | @beginAgain _ _ revoke _ answer mid _ hreceive hsend =>
    simp only [stepFrom, stepRegistering] at h
    have hrequest := request_startGranting h
    have hregistry : (site.receive revoke).2.registry = site.registry := registry_of_receive rfl
    rwa [hregistry] at hrequest

theorem AsksRenewals.start {store : Store} {config : Config} {dialer : Dialer} {faults : Faults} :
    (start store config dialer faults).AsksRenewals := by
  constructor
  · intro who key flight hprogress
    cases (progress?_start hprogress).2
  · intro who key lease flight hprogress
    cases (progress?_start hprogress).2

theorem AsksRenewals.moved {site after : Site} {move : Move} (h : site.AsksRenewals)
    (hline : site.InLine) (hbacked : site.Backed) (hmove : site.after move = some after) :
    after.AsksRenewals := by
  constructor
  · intro who key flight hprogress
    rw [(precedes_of_after hmove).config]
    rcases met_of_after hmove hprogress rfl with hbefore | ⟨-, former, asked, -, hended | hstep⟩
    · exact h.granting who key flight hbefore
    · cases hended
    · exact request_stepFrom hstep.symm
  · intro who key lease flight hprogress
    rcases hline.met hbacked hmove hprogress rfl with hbefore | ⟨former, mid, -, hdeed⟩
    · exact h.opening who key lease flight hbefore
    · cases hdeed with
      | aside hformer hnext => cases hnext
      | attach hreceive hsend => exact ⟨_, (of_sent hsend).2.1⟩

section
variable {site after : Site} {move : Move}

theorem StoreMoved.ttl?_cases {store after : Store} {move : Move} (h : StoreMoved store move after)
    {lease : LeaseId} {ttl : Int} (httl : after.ttl? lease = some ttl) :
    store.ttl? lease = some ttl ∨ lease = ⟨store.granted + 1⟩ := by
  cases h with
  | same hsame => exact .inl (hsame.ttl?_eq lease ▸ httl)
  | served hserved => exact hserved.ttl?_cases httl
  | closed => cases httl

/-- The time-to-live of a lease is that which it was granted with. -/
theorem ttl?_of_after (hline : site.InLine) (hbacked : site.Backed)
    (hmove : site.after move = some after) {lease : LeaseId} {ttl : Int}
    (httl : after.store.ttl? lease = some ttl) :
    site.store.ttl? lease = some ttl ∨ lease = ⟨site.store.granted + 1⟩ := by
  cases hline.course hbacked hmove with
  | @deed who former next mid hactivity hready hdeed hframe =>
    have hmid : mid.store.ttl? lease = some ttl := httl
    obtain ⟨received, hsame, rfl | rfl | ⟨m, flight, answer, -, hserved⟩⟩ := hdeed.served
    · exact .inl (hsame.ttl?_eq lease ▸ hmid)
    · rw [hsame.ttl?_eq] at hmid
      cases hmid
    · rw [hsame.ttl?_eq] at hmid
      exact hserved.ttl?_cases hmid
  | calm hcalm => exact hcalm.store.ttl?_cases httl

/-- A lease that is granted is the next one, with the time-to-live of the configuration. -/
theorem Deed.granted_next {mid : Site} {who : Nat} {former next : Progress} {faults : Faults}
    (hdeed : site.Deed who former next mid) (hgrants : faults.Genuine .grant)
    (hasks : site.AsksLeases faults) (hterms : site.AsksRenewals)
    (hactivity : site.registry.activities[who]? = some ⟨former, false⟩) {lease : LeaseId}
    (hgranted : site.Grants who lease) :
    lease = ⟨site.store.granted + 1⟩ ∧ mid.store.granted = site.store.granted + 1 ∧
      mid.store.ttl? lease = some site.registry.config.leaseTtlSecs := by
  obtain ⟨-, flight, received, hflight, hreceive, hsame⟩ := hdeed.granted hactivity hgranted
  have hprogress : site.progress? who = some former := progress?_of_activity hactivity
  have hgenuine := (hasks.meets who former _ flight hprogress hflight).genuine hgrants
  obtain ⟨key, granting, -, hgranting, -⟩ := hgranted
  rw [hactivity] at hgranting
  cases hgranting
  cases hflight
  have hserve := Link.serve_of_receive hgenuine
    (congrArg (fun result => (result.1, result.2.toLink)) hreceive)
  rw [hterms.granting who key flight hprogress] at hserve
  obtain ⟨hlease, hstore⟩ := Store.of_grant hserve
  rw [hsame.granted, hsame.ttl?_eq, hstore]
  exact ⟨hlease, rfl, by simp [Store.ttl?]⟩

/-- No two activities renew the same lease, and what is being attached to a lease is not renewed yet. -/
structure Distinct (site : Site) : Prop where
  numbered : ∀ who key lease renewals, site.progress? who = some (.renewing key lease renewals) →
    lease.number ≤ site.store.granted
  attaching : ∀ who progress key lease, site.progress? who = some progress →
    progress.attaching? = some (key, lease) →
      lease.number ≤ site.store.granted ∧
        (∀ ttl, site.store.ttl? lease = some ttl → ttl = site.registry.config.leaseTtlSecs) ∧
        ∀ other key renewals, site.progress? other ≠ some (.renewing key lease renewals)
  unique : ∀ who other key met lease renewals rest,
    site.progress? who = some (.renewing key lease renewals) →
      site.progress? other = some (.renewing met lease rest) → who = other

theorem Distinct.start {store : Store} {config : Config} {dialer : Dialer} {faults : Faults} :
    (start store config dialer faults).Distinct := by
  refine ⟨?_, ?_, ?_⟩
  · intro who key lease renewals hprogress
    cases (progress?_start hprogress).2
  · intro who progress key lease hprogress hattaching
    cases (progress?_start hprogress).2
    cases hattaching
  · intro who other key met lease renewals rest hprogress
    cases (progress?_start hprogress).2

/-- A lease whose renewal has just begun was being attached. -/
theorem Distinct.renewing_cases (hmove : site.after move = some after) {who : Nat} {key : EndpointKey}
    {lease : LeaseId} {renewals : Renewals}
    (hrenewing : after.progress? who = some (.renewing key lease renewals)) :
    (∃ rest, site.progress? who = some (.renewing key lease rest)) ∨
      who = site.registry.activities.length ∧ ∃ other progress, move = .step other ∧
        site.progress? other = some progress ∧ progress.attaching? = some (key, lease) ∧
          ∀ later, after.progress? other = some later → later.attaching? = none := by
  rcases renewing_of_after hmove hrenewing with
    ⟨rest, hbefore, -⟩ | ⟨other, flight, given, rfl, hlast, hactivity, hgiven, -⟩
  · exact .inl ⟨rest, hbefore⟩
  · refine .inr ⟨hlast, other, _, rfl, progress?_of_activity hactivity, rfl, fun later hlater => ?_⟩
    obtain ⟨-, rfl⟩ := of_after_step hmove
    rw [progress?_step hactivity] at hlater
    simp only [Activity.isDropped, Bool.false_and, stepFrom, stepRegistering] at hlater
    split at hlater
    · rename_i hdropped
      cases hdropped
    · split at hlater
      · cases hlater
        rfl
      · rename_i e received hreceive
        rw [hreceive] at hgiven
        cases hgiven

section
variable {faults : Faults} (h : site.Distinct) (hgrants : faults.Genuine .grant)
  (hasks : site.AsksLeases faults) (hterms : site.AsksRenewals) (hline : site.InLine)
  (hbacked : site.Backed) (hmove : site.after move = some after)
include h hline hbacked hmove

/-- What goes on being attached is not renewed meanwhile. -/
theorem Distinct.attaching_kept {who : Nat} {former progress : Progress} {key : EndpointKey}
    {lease : LeaseId} (hformer : site.progress? who = some former)
    (hattaching : former.attaching? = some (key, lease)) (hprogress : after.progress? who = some progress)
    (hstill : progress.attaching? = some (key, lease)) :
    lease.number ≤ after.store.granted ∧
      (∀ ttl, after.store.ttl? lease = some ttl → ttl = after.registry.config.leaseTtlSecs) ∧
      ∀ other key renewals, after.progress? other ≠ some (.renewing key lease renewals) := by
  obtain ⟨hnumber, hterm, hfresh⟩ := h.attaching who former key lease hformer hattaching
  refine ⟨hnumber.trans (Int.ofNat_le.2 (granted_le_of_after hline hbacked hmove)), fun ttl httl => ?_,
    fun other met renewals hrenewing => ?_⟩
  · rw [(precedes_of_after hmove).config]
    rcases ttl?_of_after hline hbacked hmove httl with hbefore | rfl
    · exact hterm ttl hbefore
    · exact absurd hnumber (not_le.2 (Int.lt_succ _))
  · rcases Distinct.renewing_cases hmove hrenewing with
      ⟨rest, hbefore⟩ | ⟨-, opener, opening, -, hopener, hopening, hleft⟩
    · exact hfresh other met rest hbefore
    · have hhandled : ∀ {p : Progress} {pair : EndpointKey × LeaseId}, p.attaching? = some pair →
          p.isHandled = true := fun hp =>
        Progress.isHandled_of_isPending (Progress.isPending_of_attaching? hp)
      obtain ⟨rfl, -⟩ := hline.handled_unique hopener (hhandled hopening) hformer (hhandled hattaching)
      rw [hleft progress hprogress] at hstill
      cases hstill

include hgrants hasks hterms in
theorem Distinct.moved : after.Distinct := by
  have hle : (site.store.granted : Int) ≤ after.store.granted :=
    Int.ofNat_le.2 (granted_le_of_after hline hbacked hmove)
  have hcourse := hline.course hbacked hmove
  refine ⟨fun who key lease renewals hrenewing => ?_, fun who progress key lease hprogress hattaching => ?_,
    fun who other key met lease renewals rest hwho hother => ?_⟩
  · rcases Distinct.renewing_cases hmove hrenewing with
      ⟨rest, hbefore⟩ | ⟨-, opener, opening, -, hopener, hopening, -⟩
    · exact (h.numbered who key lease rest hbefore).trans hle
    · exact (h.attaching opener opening key lease hopener hopening).1.trans hle
  · cases hcourse with
    | @deed actor former next mid hactivity hready hdeed hframe =>
      have hkept : ∀ met, site.progress? who = some met → met.attaching? = some (key, lease) → _ :=
        fun met hmet hbefore => h.attaching_kept hline hbacked hmove hmet hbefore hprogress hattaching
      rcases progress?_turned hframe hprogress with ⟨rfl, rfl⟩ | ⟨-, hbefore | hbegins⟩
      · rcases hdeed.attaching?_cases hactivity hattaching with hbefore | hgranted
        · exact hkept former (progress?_of_activity hactivity) hbefore
        · -- the lease has just been granted, and its number is greater than that of all before
          obtain ⟨rfl, hnext, httl⟩ := hdeed.granted_next hgrants hasks hterms hactivity hgranted
          have hnew : ¬ ((site.store.granted : Int) + 1 ≤ site.store.granted) := not_le.2 (Int.lt_succ _)
          refine ⟨?_, fun ttl hterm => ?_, fun other met renewals hrenewing => ?_⟩
          · show (site.store.granted : Int) + 1 ≤ (mid.store.granted : Int)
            rw [hnext]
            exact le_of_eq (by simp)
          · rw [show mid.store.ttl? _ = some ttl from hterm] at httl
            rw [(precedes_of_after hmove).config]
            exact Option.some.inj httl
          · rcases Distinct.renewing_cases hmove hrenewing with
              ⟨rest, hbefore⟩ | ⟨-, opener, opening, -, hopener, hopening, -⟩
            · exact hnew (h.numbered other met _ rest hbefore)
            · exact hnew (h.attaching opener opening met _ hopener hopening).1
      · exact hkept progress hbefore hattaching
      · rw [Progress.attaching?_of_isBeginning hbegins] at hattaching
        cases hattaching
    | calm hcalm =>
      have hat := Progress.isAtRegistrar_of_isHandled
        (Progress.isHandled_of_isPending (Progress.isPending_of_attaching? hattaching))
      have hbefore := (hcalm.engaged who progress (Progress.isEngaged_of_isAtRegistrar hat)).1 hprogress
      exact h.attaching_kept hline hbacked hmove hbefore hattaching hprogress hattaching
  · rcases Distinct.renewing_cases hmove hwho with
      ⟨former, hbefore⟩ | ⟨hlast, opener, opening, -, hopener, hopening, -⟩
    · rcases Distinct.renewing_cases hmove hother with
        ⟨earlier, hearlier⟩ | ⟨-, opener, opening, -, hopener, hopening, -⟩
      · exact h.unique who other key met lease former earlier hbefore hearlier
      · exact absurd hbefore ((h.attaching opener opening met lease hopener hopening).2.2 who key former)
    · rcases Distinct.renewing_cases hmove hother with ⟨earlier, hearlier⟩ | ⟨hlast', -⟩
      · exact absurd hearlier ((h.attaching opener opening key lease hopener hopening).2.2 other met earlier)
      · exact hlast.trans hlast'.symm

end

end

/-- What is asked of the store about renewals in every run. -/
theorem asksRenewals_of_run {store : Store} {config : Config} {dialer : Dialer} {faults : Faults}
    {moves : List Move} {site : Site}
    (hrun : (start store config dialer faults).run moves = some site) : site.AsksRenewals := by
  refine history_induction (P := fun _ site => site.AsksRenewals) .start ?_ hrun
  intro before mid move after hbefore h hmove
  obtain ⟨hline, hbacked⟩ := inLine_of_run hbefore
  exact h.moved hline hbacked hmove

/-- If the store itself grants the leases, no lease is renewed by two activities. -/
theorem distinct_of_run {store : Store} {config : Config} {dialer : Dialer} {faults : Faults}
    {moves : List Move} {site : Site} (hgrants : faults.Genuine .grant)
    (hrun : (start store config dialer faults).run moves = some site) : site.Distinct := by
  refine history_induction (P := fun _ site => site.Distinct) .start ?_ hrun
  intro before mid move after hbefore h hmove
  obtain ⟨hline, hbacked⟩ := inLine_of_run hbefore
  exact h.moved hgrants (asksLeases_of_run hbefore) (asksRenewals_of_run hbefore) hline hbacked hmove

/-! ## Streams of the store itself -/

/-- A stream of the store goes on as one of the same lease. -/
theorem goes_live {renewal : Renewal} {store : Store} {clock : Nat} {rest : Renewals}
    (h : (Renewals.live renewal).Goes store clock rest) :
    ∃ later, rest = .live later ∧ later.lease = renewal.lease ∧ later.ttl = renewal.ttl := by
  cases h with
  | stays => exact ⟨renewal, rfl, rfl, rfl⟩
  | skips hpull =>
    simp only [Renewals.pull, Store.pullRenewal] at hpull
    split at hpull
    · split at hpull <;> cases hpull
    · cases hpull
  | takes hpull =>
    simp only [Renewals.pull, Store.pullRenewal] at hpull
    split at hpull
    · split at hpull
      · cases hpull
        exact ⟨_, rfl, rfl, rfl⟩
      · cases hpull
    · cases hpull

/-- The store opens a stream for a live lease only. -/
theorem of_serve_keepAlive {store after : Store} {clock : Nat} {lease : LeaseId} {interval : Duration}
    {given : Renewals} (h : store.serve clock (.keepAlive lease interval) = .ok (given, after)) :
    ∃ renewal, given = .live renewal ∧ renewal.lease = lease ∧ store.ttl? lease = some renewal.ttl := by
  obtain ⟨renewal, hopened, hgiven⟩ := of_map_ok h
  cases hgiven
  obtain ⟨-, -, hfound⟩ := Store.of_check_bind hopened
  cases httl : store.ttl? lease with
  | none =>
    rw [httl] at hfound
    cases hfound
  | some ttl =>
    rw [httl] at hfound
    cases hfound
    exact ⟨_, rfl, rfl, rfl⟩

/-- If the store itself opens the streams of renewals, each is a stream of the lease that is renewed, and
if it grants the leases too, each grants the time of the configuration. -/
theorem live_of_run {store : Store} {config : Config} {dialer : Dialer} {faults : Faults}
    {moves : List Move} {site : Site} (hkeeps : faults.Genuine .keepAlive)
    (hrun : (start store config dialer faults).run moves = some site) {who : Nat} {key : EndpointKey}
    {lease : LeaseId} {renewals : Renewals}
    (hrenewing : site.progress? who = some (.renewing key lease renewals)) :
    ∃ renewal, renewals = .live renewal ∧ renewal.lease = lease ∧
      (faults.Genuine .grant → renewal.ttl = config.leaseTtlSecs) := by
  refine history_induction (P := fun _ site => ∀ who key lease renewals,
    site.progress? who = some (.renewing key lease renewals) →
      ∃ renewal, renewals = .live renewal ∧ renewal.lease = lease ∧
        (faults.Genuine .grant → renewal.ttl = config.leaseTtlSecs)) ?_ ?_ hrun who key lease renewals
    hrenewing
  · intro who key lease renewals hprogress
    cases (progress?_start hprogress).2
  · intro before mid move after hbefore ih hmove who key lease renewals hlater
    rcases renewing_of_after hmove hlater with
      ⟨former, hformer, hgoes⟩ | ⟨opener, flight, given, -, -, hactivity, hgiven, rfl⟩
    · obtain ⟨renewal, rfl, rfl, hterm⟩ := ih who key lease former hformer
      obtain ⟨later, rfl, hsame, httl⟩ := goes_live hgoes
      exact ⟨later, rfl, hsame, fun hgrants => httl.trans (hterm hgrants)⟩
    · have hopener : mid.progress? opener = some (.registering key (.opening lease flight)) :=
        progress?_of_activity hactivity
      have hgenuine := ((asksLeases_of_run hbefore).meets opener _ _ flight hopener rfl).genuine hkeeps
      obtain ⟨interval, hrequest⟩ := (asksRenewals_of_run hbefore).opening opener key lease flight hopener
      have hanswered : mid.toLink.receive flight = (.ok given, (mid.toLink.receive flight).2) :=
        Prod.ext hgiven rfl
      have hserve := Link.serve_of_receive hgenuine hanswered
      rw [hrequest] at hserve
      obtain ⟨renewal, rfl, hlease, hfound⟩ := of_serve_keepAlive hserve
      refine ⟨renewal, rfl, hlease, fun hgrants => ?_⟩
      rw [((distinct_of_run hgrants hbefore).attaching opener _ key lease hopener rfl).2.1 _ hfound]
      exact congrArg (fun config : Config => (config.leaseTtlSecs : Int)) (precedes_of_run hbefore).config

/-! ## What is told of a loss -/

/-- An activity that nobody has asked to end renews the lease, its stream tells of a loss, and the status
is that of a registration under the lease. -/
def FindsLoss (site : Site) (who : Nat) (key : EndpointKey) (lease : LeaseId) : Prop :=
  (∃ renewals, site.registry.activities[who]? = some ⟨.renewing key lease renewals, false⟩ ∧
      (renewals.pull site.store site.clock).isLoss = true) ∧
    ∃ other, site.registry.registrar.status = .registered other lease

/-- No activity can take a step. -/
def Idle (site : Site) : Prop := ∀ who, site.canStep who = false

/-- Only the activities that there are have to be looked at. -/
theorem idle_of_all {site : Site}
    (h : ∀ who < site.registry.activities.length, site.canStep who = false) : site.Idle := by
  intro who
  by_cases hwho : who < site.registry.activities.length
  · exact h who hwho
  · have hnone : site.registry.activities[who]? = none := List.getElem?_eq_none (not_lt.1 hwho)
    simp [canStep, due, hnone]

section
variable {site : Site} {who : Nat} {key : EndpointKey} {lease : LeaseId} {renewals : Renewals}

/-- What the renewal of a lease does to the registrar: it publishes the loss that it finds, and nothing
else. -/
theorem registrar_step_renewing (hline : site.InLine) (hbacked : site.Backed)
    (hready : site.canStep who = true) {asked : Bool}
    (hactivity : site.registry.activities[who]? = some ⟨.renewing key lease renewals, asked⟩) :
    site.FindsLoss who key lease ∧
        (site.step who).registry.registrar = site.registry.registrar.publish (.lost key lease) ∨
      ¬ site.FindsLoss who key lease ∧ (site.step who).registry.registrar = site.registry.registrar := by
  cases asked with
  | true =>
    refine .inr ⟨?_, ?_⟩
    · rintro ⟨⟨rest, hgoing, -⟩, -⟩
      rw [hactivity] at hgoing
      cases hgoing
    · have hmove : site.after (.step who) = some (site.step who) := by simp [Site.after, hready]
      generalize site.step who = after at hmove ⊢
      cases hline.course hbacked hmove with
      | deed hgoing =>
        rw [hactivity] at hgoing
        cases hgoing
      | calm hcalm => exact hcalm.registrar
  | false =>
    have hstep : (site.step who).registry.registrar =
        (site.stepRenewing key lease renewals).2.registry.registrar := by
      rw [step_of_activity hactivity]
      rfl
    rcases site.stepRenewing_cases key lease renewals with
      ⟨hnot, rest, -, hgoes⟩ | ⟨hloss, hstops⟩
    · refine .inr ⟨?_, by rw [hstep, hgoes]⟩
      rintro ⟨⟨met, hmet, hmetLoss⟩, -⟩
      rw [hactivity] at hmet
      cases hmet
      rw [hnot] at hmetLoss
      cases hmetLoss
    · have hlose : (site.step who).registry.registrar = site.registry.registrar.lose key lease := by
        rw [hstep, hstops]
        rfl
      rcases site.registry.registrar.lose_eq key lease with ⟨hstatus, htold⟩ | ⟨hstatus, hsilent⟩
      · exact .inl ⟨⟨⟨renewals, hactivity, hloss⟩, hstatus⟩, hlose.trans htold⟩
      · exact .inr ⟨fun hfinds => hfinds.2.elim hstatus, hlose.trans hsilent⟩

/-- A renewal ends with the first loss that its stream tells of. -/
theorem progress?_of_isLoss
    (hactivity : site.registry.activities[who]? = some ⟨.renewing key lease renewals, false⟩)
    (hloss : (renewals.pull site.store site.clock).isLoss = true) :
    (site.step who).progress? who = some (.finished (.ok .done)) := by
  rw [progress?_step hactivity]
  rcases site.stepRenewing_cases key lease renewals with ⟨hnot, -⟩ | ⟨-, hstops⟩
  · rw [hnot] at hloss
    cases hloss
  · simp [Activity.isDropped, stepFrom, hstops]

/-- Nobody but the renewal of a lease tells of its loss. -/
theorem published_cases {after : Site} {move : Move} (hline : site.InLine) (hbacked : site.Backed)
    (hmove : site.after move = some after) :
    after.registry.registrar.published = site.registry.registrar.published ∨
      ∃ status, after.registry.registrar.published = status :: site.registry.registrar.published ∧
        ∀ key lease, status = .lost key lease → ∃ who, move = .step who ∧ site.FindsLoss who key lease := by
  cases hline.course hbacked hmove with
  | calm hcalm => exact .inl (congrArg Registrar.published hcalm.registrar)
  | @deed who former next mid hactivity hready hdeed hframe =>
    have hother {status : LeaseStatus} (hstatus : status.isLost = false)
        (hmid : mid.registry.registrar.published = status :: site.registry.registrar.published) :
        (mid.settle who next).registry.registrar.published = site.registry.registrar.published ∨
          ∃ status, (mid.settle who next).registry.registrar.published =
              status :: site.registry.registrar.published ∧
            ∀ key lease, status = .lost key lease →
              ∃ actor, Move.step who = .step actor ∧ site.FindsLoss actor key lease := by
      refine .inr ⟨status, hmid, fun key lease hlost => ?_⟩
      rw [hlost] at hstatus
      cases hstatus
    cases hdeed with
    | aside hformer hnext hspares => exact .inl (congrArg Registrar.published hspares.registrar)
    | @stop key lease renewals =>
      have hstep := (of_after_step hmove).2
      rcases registrar_step_renewing hline hbacked hready hactivity with ⟨hfinds, htold⟩ | ⟨-, hsilent⟩
      · refine .inr ⟨.lost key lease, ?_, fun other held hlost => ?_⟩
        · rw [hstep, htold]
          rfl
        · cases hlost
          exact ⟨who, rfl, hfinds⟩
      · exact .inl (by rw [hstep, hsilent])
    | begin hactive hsend | remove hactive hsend =>
      exact hother rfl (by rw [registry_of_send hsend]; rfl)
    | replace hactive hlost hsend => exact .inl (by rw [settle, mapRegistry, registry_of_send hsend]; rfl)
    | beginAgain hreceive hsend =>
      exact hother rfl (by
        rw [registry_of_send hsend, registry_publish_of_receive hreceive]
        rfl)
    | grant hreceive hsend | attach hreceive hsend | detach hreceive hsend | abandon hreceive hsend
    | delete hreceive hsend =>
      left
      simp only [settle, mapRegistry, registry_of_send hsend, registry_of_receive hreceive]
      rfl
    | refuse hreceive | giveUp hreceive | revoke hreceive =>
      exact hother rfl (by rw [registry_publish_of_receive hreceive]; rfl)
    | register hreceive =>
      exact hother rfl (by rw [registry_register_of_receive hreceive]; rfl)
    | _ => exact .inl rfl

end

section
variable {store : Store} {config : Config} {dialer : Dialer} {faults : Faults} {moves : List Move}
  {site : Site} (hrun : (start store config dialer faults).run moves = some site)
include hrun

/-- No renewal but that of the current registration has anything to tell, not even one that has been
asked to end and still looks at its stream. -/
theorem lose_of_other (hgrants : faults.Genuine .grant) {who : Nat} {key : EndpointKey} {lease : LeaseId}
    {renewals : Renewals} (hrenewing : site.progress? who = some (.renewing key lease renewals))
    (hother : ∀ current, site.registry.registrar.active = some current → current.renewal ≠ who) :
    site.registry.registrar.lose key lease = site.registry.registrar := by
  rcases site.registry.registrar.lose_eq key lease with ⟨⟨met, hstatus⟩, -⟩ | ⟨-, hsame⟩
  · obtain ⟨renewal, rest, hactive, hactivity⟩ := (attended_of_run hrun).renewed met lease hstatus
    have hwho := (distinct_of_run hgrants hrun).unique renewal who met key lease rest renewals
      (progress?_of_activity hactivity) hrenewing
    exact absurd hwho (hother _ hactive)
  · exact hsame

/-- As soon as the lease of a registration is not live, its renewal can go on, and finds the loss. -/
theorem findsLoss_of_not_live (hkeeps : faults.Genuine .keepAlive) {key : EndpointKey} {lease : LeaseId}
    (hstatus : site.registry.registrar.status = .registered key lease)
    (hlive : site.store.isLive lease = false) :
    ∃ who, site.canStep who = true ∧ site.FindsLoss who key lease := by
  obtain ⟨who, renewals, -, hactivity⟩ := (attended_of_run hrun).renewed key lease hstatus
  obtain ⟨renewal, rfl, rfl, -⟩ := live_of_run hkeeps hrun (progress?_of_activity hactivity)
  refine ⟨who, canStep_of_due hactivity ?_ (Nat.zero_le _), ⟨_, hactivity, ?_⟩, key, hstatus⟩
  · simp [dueFrom, Renewals.due, hlive]
  · simp [Renewals.pull, Store.pullRenewal, hlive, Pull.map, Pull.isLoss]

/-- The store itself ends or refuses no stream of a live lease. -/
theorem not_live_of_findsLoss (hgrants : faults.Genuine .grant) (hkeeps : faults.Genuine .keepAlive)
    (hpositive : 0 < config.leaseTtlSecs) {who : Nat} {key : EndpointKey} {lease : LeaseId}
    (hfinds : site.FindsLoss who key lease) : site.store.isLive lease = false := by
  obtain ⟨⟨renewals, hactivity, hloss⟩, -⟩ := hfinds
  obtain ⟨renewal, rfl, rfl, hterm⟩ := live_of_run hkeeps hrun (progress?_of_activity hactivity)
  have httl : ¬ renewal.ttl ≤ 0 := by
    rw [hterm hgrants]
    exact not_le.2 (Int.ofNat_lt.2 hpositive)
  by_contra hlive
  rw [Bool.not_eq_false] at hlive
  simp only [Renewals.pull, Store.pullRenewal, hlive, if_true] at hloss
  split at hloss
  · exact httl (of_decide_eq_true hloss)
  · cases hloss

end

/-- A renewal finds at most one loss, since it ends with it. -/
theorem findsLoss_once {site final : Site} {moves : List Move} (hrun : site.run moves = some final)
    {m n who : Nat} (hlt : m < n) {first second : Site} {key other : EndpointKey} {lease held : LeaseId}
    (hfirst : (site.history moves)[m]? = some (first, .step who))
    (hsecond : (site.history moves)[n]? = some (second, .step who))
    (hfinds : first.FindsLoss who key lease) : ¬ second.FindsLoss who other held := by
  rintro ⟨⟨renewals, hactivity, -⟩, -⟩
  obtain ⟨⟨former, hformer, hloss⟩, -⟩ := hfinds
  obtain ⟨next, between, hnext, hbetween⟩ := run_of_getElem? hrun hlt hfirst hsecond
  obtain ⟨-, rfl⟩ := of_after_step hnext
  have hended := finished_of_run (progress?_of_isLoss hformer hloss) hbetween
  rw [progress?_of_activity hactivity] at hended
  cases hended

end Site

/-- A renewal publishes the loss of its lease just if its stream tells of a loss while the status is that of
a registration under this lease, and then it ends; so it does so once at most, and nothing else is changed
by it, nor is a loss published by anything else. If the store grants the leases, no stream but that of the
current registration can change the status, even if it is read after its renewal was asked to end. And if
the store opens the streams, the lease of a registration is live whenever no activity has anything to do,
and as long as leases are granted for some time, only the loss of one that is not live is published. -/
theorem loss_reported_exactly {store : Store} {config : Config} {dialer : Dialer} {faults : Faults}
    {moves : List Move} {final : Site}
    (hrun : (Site.start store config dialer faults).run moves = some final) :
    let history := (Site.start store config dialer faults).history moves
    (∀ site who key lease renewals asked, (site, .step who) ∈ history →
        site.registry.activities[who]? = some ⟨.renewing key lease renewals, asked⟩ →
          (site.FindsLoss who key lease →
              (site.step who).registry.registrar =
                  site.registry.registrar.publish (.lost key lease) ∧
                (site.step who).progress? who = some (.finished (.ok .done))) ∧
            (¬ site.FindsLoss who key lease →
              (site.step who).registry.registrar = site.registry.registrar)) ∧
      (∀ site move next, (site, move) ∈ history → site.after move = some next →
        next.registry.registrar.published = site.registry.registrar.published ∨
          ∃ status, next.registry.registrar.published = status :: site.registry.registrar.published ∧
            ∀ key lease, status = .lost key lease →
              ∃ who, move = .step who ∧ site.FindsLoss who key lease) ∧
      (∀ (m n who : Nat) (first second : Site) (key other : EndpointKey) (lease held : LeaseId),
        history[m]? = some (first, .step who) → history[n]? = some (second, .step who) →
          first.FindsLoss who key lease → second.FindsLoss who other held → m = n) ∧
      (faults.Genuine .grant → ∀ who key lease renewals,
        final.progress? who = some (.renewing key lease renewals) →
          (∀ current, final.registry.registrar.active = some current → current.renewal ≠ who) →
            final.registry.registrar.lose key lease = final.registry.registrar) ∧
      (faults.Genuine .keepAlive → final.Idle → ∀ key lease,
        final.registry.registrar.status = .registered key lease → final.store.isLive lease = true) ∧
      (faults.Genuine .grant → faults.Genuine .keepAlive → 0 < config.leaseTtlSecs →
        ∀ site who key lease, (site, .step who) ∈ history → site.FindsLoss who key lease →
          site.store.isLive lease = false) := by
  intro history
  -- each site of the history is one that a run has led to
  have hreached : ∀ site move, (site, move) ∈ history →
      ∃ before, (Site.start store config dialer faults).run before = some site := by
    intro site move hmem
    obtain ⟨before, after, -, hbefore⟩ := Site.split_of_mem_history hmem
    exact ⟨before, hbefore⟩
  refine ⟨fun site who key lease renewals asked hmem hactivity => ?_, fun site move next hmem hnext => ?_,
    fun m n who first second key other lease held hfirst hsecond hfinds hfound => ?_,
    fun hgrants who key lease renewals => Site.lose_of_other hrun hgrants,
    fun hkeeps hidle key lease hstatus => ?_,
    fun hgrants hkeeps hpositive site who key lease hmem hfinds => ?_⟩
  · obtain ⟨before, hbefore⟩ := hreached site _ hmem
    obtain ⟨hline, hbacked⟩ := Site.inLine_of_run hbefore
    obtain ⟨-, next, hnext, -⟩ := Site.precedes_of_mem_history hrun hmem
    have hready := (Site.of_after_step hnext).1
    rcases Site.registrar_step_renewing hline hbacked hready hactivity with
      ⟨hfinds, htold⟩ | ⟨hnot, hsilent⟩
    · refine ⟨fun _ => ⟨htold, ?_⟩, fun hnot => absurd hfinds hnot⟩
      obtain ⟨⟨rest, hgoing, hloss⟩, -⟩ := hfinds
      exact Site.progress?_of_isLoss hgoing hloss
    · exact ⟨fun hfinds => absurd hfinds hnot, fun _ => hsilent⟩
  · obtain ⟨before, hbefore⟩ := hreached site move hmem
    obtain ⟨hline, hbacked⟩ := Site.inLine_of_run hbefore
    exact Site.published_cases hline hbacked hnext
  · rcases Nat.lt_trichotomy m n with hlt | heq | hlt
    · exact absurd hfound (Site.findsLoss_once hrun hlt hfirst hsecond hfinds)
    · exact heq
    · exact absurd hfinds (Site.findsLoss_once hrun hlt hsecond hfirst hfound)
  · by_contra hlive
    obtain ⟨who, hready, -⟩ := Site.findsLoss_of_not_live hrun hkeeps hstatus (by simpa using hlive)
    rw [hidle who] at hready
    cases hready
  · obtain ⟨before, hbefore⟩ := hreached site _ hmem
    exact Site.not_live_of_findsLoss hbefore hgrants hkeeps hpositive hfinds

/-- A call registers an instance, whose lease is then renewed and watched by an idle registry. -/
def registeredAndRenewed : List Move :=
  [.step 0, .step 0, .call (.register "chat" "10.0.0.1" 9000), .step 1, .step 1, .step 1, .step 1, .step 1,
    .step 1, .step 2, .step 0, .step 0]

/-- The lease of an idle registry is live, until another client revokes it, and then the renewal tells of
the loss. -/
theorem loss_reported_exactly_revoked :
    ∃ attended bereft key, Site.sample.run registeredAndRenewed = some attended ∧ attended.Idle ∧
      attended.registry.registrar.status = .registered key ⟨1⟩ ∧ attended.store.isLive ⟨1⟩ = true ∧
      Site.sample.run (registeredAndRenewed ++ [.request (.revoke ⟨1⟩)]) = some bereft ∧
      bereft.FindsLoss 2 key ⟨1⟩ ∧ bereft.store.isLive ⟨1⟩ = false ∧
      (bereft.step 2).registry.registrar = bereft.registry.registrar.publish (.lost key ⟨1⟩) := by
  let key : EndpointKey := ⟨⟨"svc", "chat", by decide, by decide⟩, "10.0.0.1:9000"⟩
  obtain ⟨attended, hattended⟩ : ∃ attended, Site.sample.run registeredAndRenewed = some attended :=
    Option.isSome_iff_exists.1 rfl
  obtain ⟨final, hfinal⟩ : ∃ final,
      Site.sample.run (registeredAndRenewed ++ [.request (.revoke ⟨1⟩), .step 2]) = some final :=
    Option.isSome_iff_exists.1 rfl
  obtain ⟨bereft, hbereft⟩ : ∃ bereft,
      Site.sample.run (registeredAndRenewed ++ [.request (.revoke ⟨1⟩)]) = some bereft :=
    Option.isSome_iff_exists.1 rfl
  let renewal : Renewal := ⟨⟨1⟩, 30, 0, ⟨10000000000⟩, 1⟩
  have hready : (Site.sample.run registeredAndRenewed).map (fun site =>
      (List.range site.registry.activities.length).all fun who => !site.canStep who) = some true := rfl
  have hregistered : (Site.sample.run registeredAndRenewed).map
      (fun site => site.registry.registrar.status) = some (.registered key ⟨1⟩) := rfl
  have hactivity : (Site.sample.run (registeredAndRenewed ++ [.request (.revoke ⟨1⟩)])).bind
      (fun site => site.registry.activities[2]?) =
        some ⟨.renewing key ⟨1⟩ (.live renewal), false⟩ := rfl
  have hloss : (Site.sample.run (registeredAndRenewed ++ [.request (.revoke ⟨1⟩)])).map
      (fun site => ((Renewals.live renewal).pull site.store site.clock).isLoss) = some true := rfl
  have hstatus : (Site.sample.run (registeredAndRenewed ++ [.request (.revoke ⟨1⟩)])).map
      (fun site => site.registry.registrar.status) = some (.registered key ⟨1⟩) := rfl
  rw [hattended] at hready hregistered
  rw [hbereft] at hactivity hloss hstatus
  have hidle : attended.Idle := Site.idle_of_all (by simpa using hready)
  have hfinds : bereft.FindsLoss 2 key ⟨1⟩ :=
    ⟨⟨_, hactivity, Option.some.inj hloss⟩, key, Option.some.inj hstatus⟩
  have hmem : (bereft, .step 2) ∈ Site.sample.history
      (registeredAndRenewed ++ [.request (.revoke ⟨1⟩)] ++ .step 2 :: []) :=
    Site.mem_history_of_run hbereft _ _
  have hgenuine : ∀ m, Faults.none.Genuine m := Faults.genuine_none
  obtain ⟨-, -, -, -, hlive, -⟩ := loss_reported_exactly hattended
  obtain ⟨hturns, -, -, -, -, hspurious⟩ := loss_reported_exactly hfinal
  exact ⟨attended, bereft, key, hattended, hidle, Option.some.inj hregistered,
    hlive (hgenuine _) hidle key ⟨1⟩ (Option.some.inj hregistered), hbereft, hfinds,
    hspurious (hgenuine _) (hgenuine _) (by decide) bereft 2 key ⟨1⟩ hmem hfinds,
    ((hturns bereft 2 key ⟨1⟩ _ false hmem hactivity).1 hfinds).1⟩

end ServiceRegistry
