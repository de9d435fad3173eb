import ServiceRegistry.Proofs.Registry.Closing

/-!
# What is attached to the lease of a registration

As long as no other client attaches a key to a lease of the registry, only the key of the registration is
attached to its lease: it is attached by the registration itself, after the lease was granted, and the key
of a registration does not change. From then on nothing but the end of the registration or another client
can detach it.
-/
namespace ServiceRegistry

/-- The key and the lease of a live or lost registration. -/
def LeaseStatus.holding? : LeaseStatus → Option (EndpointKey × LeaseId)
  | registered key lease | lost key lease => some (key, lease)
  | _ => none

theorem LeaseStatus.lease?_of_holding? {status : LeaseStatus} {key : EndpointKey} {lease : LeaseId}
    (h : status.holding? = some (key, lease)) : status.lease? = some lease := by
  cases status with
  | registered | lost =>
    cases h
    rfl
  | _ => cases h

/-- The key and the lease that a registration is about to attach or has just attached to each other. -/
def Progress.attaching? : Progress → Option (EndpointKey × LeaseId)
  | .registering key (.attaching lease _) | .registering key (.opening lease _) => some (key, lease)
  | _ => none

namespace Progress

theorem isPending_of_attaching? {progress : Progress} {pair : EndpointKey × LeaseId}
    (h : progress.attaching? = some pair) : progress.isPending = true := by
  cases progress with
  | registering key stage =>
    cases stage with
    | attaching | opening => rfl
    | _ => cases h
  | _ => cases h

theorem attaching?_of_isBeginning {progress : Progress} (h : progress.isBeginning = true) :
    progress.attaching? = none := by
  cases progress with
  | calling | renewing => rfl
  | _ => cases h

theorem Fits.status_ne_registered {progress : Progress} {registrar : Registrar}
    (h : progress.Fits registrar) (hpending : progress.isPending = true) (key : EndpointKey)
    (lease : LeaseId) : registrar.status ≠ .registered key lease := by
  intro hstatus
  rcases h.status_of_isPending hpending with hother | hother | ⟨lost, old, hother⟩
  all_goals
    rw [hstatus] at hother
    cases hother

/-- While a key is attached to a lease, the status names no registration. -/
theorem Fits.holding?_eq {progress : Progress} {registrar : Registrar} (h : progress.Fits registrar)
    {pair : EndpointKey × LeaseId} (hattaching : progress.attaching? = some pair) :
    registrar.status.holding? = none := by
  cases progress with
  | registering key stage =>
    cases stage with
    | attaching | opening =>
      rw [h.2]
      rfl
    | _ => cases hattaching
  | _ => cases hattaching

end Progress

section
variable {past : List (Site × Move)} {site : Site} (h : Site.Kept past site)
  (hstanding : site.Standing) {lease : LeaseId} (hgranted : Granted past lease)
  (hknown : site.store.Involves lease)
include h hstanding hgranted hknown

/-- The store knows of no lease of the registry while nothing is registered. -/
theorem Site.Kept.status_ne_unregistered :
    site.registry.registrar.status ≠ .unregistered := by
  intro hstatus
  rcases hstanding.status_of_keeps (h.kept lease hgranted hknown) with hother | hother | hother
  all_goals
    rw [hstatus] at hother
    cases hother

/-- The store knows of no lease of the registry but that of the registration. -/
theorem Site.Kept.eq_of_holding {key : EndpointKey} {held : LeaseId}
    (hholding : site.registry.registrar.status.holding? = some (key, held)) : lease = held := by
  rcases hstanding.status_of_keeps (h.kept lease hgranted hknown) with hother | hother | hlease
  · rw [hother] at hholding
    cases hholding
  · rw [hother] at hholding
    cases hholding
  · exact Option.some.inj (hlease.symm.trans (LeaseStatus.lease?_of_holding? hholding))

end

/-- No other client has attached a key to a lease that was granted to the registry. -/
def Unshared (past : List (Site × Move)) : Prop :=
  ∀ before (site : Site) (m : Method) (request : Request m) after,
    past = before ++ (site, .request request) :: after →
      ∀ key lease, request.attachment? = some (key, lease) → ¬ Granted before lease

theorem Unshared.of_append {past later : List (Site × Move)} (h : Unshared (past ++ later)) :
    Unshared past := by
  rintro before site m request after rfl
  exact h before site m request (after ++ later) (by simp)

theorem unshared_of_not_isForeign {past : List (Site × Move)}
    (h : ∀ entry ∈ past, entry.2.isForeign = false) : Unshared past := by
  rintro before site m request after rfl
  cases h (site, .request request) (by simp)

namespace Site

/-- The registration under way, or that of the status, is about the key and the lease. -/
def Concerns (site : Site) (key : EndpointKey) (lease : LeaseId) : Prop :=
  site.registry.registrar.status.holding? = some (key, lease) ∨
    ∃ who progress, site.progress? who = some progress ∧ progress.attaching? = some (key, lease)

theorem status_lose (registrar : Registrar) (key : EndpointKey) (lease : LeaseId) :
    (registrar.lose key lease).status = registrar.status ∨
      (registrar.lose key lease).status = .lost key lease := by
  unfold Registrar.lose
  split
  · split
    · exact .inr rfl
    · exact .inl rfl
  · exact .inl rfl

section
variable {site mid : Site} {who : Nat} {former next : Progress}

/-- A deed leaves the status as it is, or publishes one that names no registration, or that of a complete
registration, or that of one whose renewal has stopped. -/
theorem Deed.status_cases (h : site.Deed who former next mid) :
    mid.registry.registrar.status = site.registry.registrar.status ∨
      mid.registry.registrar.status.holding? = none ∨
      (∃ key lease flight, former = .registering key (.opening lease flight) ∧
        mid.registry.registrar.status = .registered key lease) ∨
      ∃ key lease renewals, former = .renewing key lease renewals ∧
        mid.registry.registrar.status = .lost key lease := by
  cases h with
  | aside hformer hnext hspares => exact .inl (congrArg Registrar.status hspares.registrar)
  | stop =>
    rcases status_lose site.registry.registrar _ _ with hsame | hlost
    · exact .inl hsame
    · exact .inr (.inr (.inr ⟨_, _, _, rfl, hlost⟩))
  | register hreceive => exact .inr (.inr (.inl ⟨_, _, _, rfl, rfl⟩))
  | begin hactive hsend | remove hactive hsend =>
    rw [registry_of_send hsend]
    exact .inr (.inl rfl)
  | replace hactive hlost hsend =>
    rw [registry_of_send hsend]
    exact .inl rfl
  | beginAgain hreceive hsend =>
    rw [registry_of_send hsend]
    exact .inr (.inl rfl)
  | refuse hreceive | giveUp hreceive | revoke hreceive => exact .inr (.inl rfl)
  | grant hreceive hsend | attach hreceive hsend | detach hreceive hsend | abandon hreceive hsend
  | delete hreceive hsend =>
    rw [registry_of_send hsend, registry_of_receive hreceive]
    exact .inl rfl
  | _ => exact .inl rfl

/-- What a deed comes to attach was being attached, or its lease has just been granted. -/
theorem Deed.attaching?_cases (h : site.Deed who former next mid)
    (hactivity : site.registry.activities[who]? = some ⟨former, false⟩) {key : EndpointKey}
    {lease : LeaseId} (hattaching : next.attaching? = some (key, lease)) :
    former.attaching? = some (key, lease) ∨ site.Grants who lease := by
  cases h with
  | aside hformer hnext =>
    cases next with
    | registering => cases hnext
    | _ => cases hattaching
  | grant hreceive hsend =>
    cases hattaching
    exact .inr ⟨_, _, _, hactivity, hreceive⟩
  | attach => exact .inl hattaching
  | _ => cases hattaching

theorem Deed.concerns (h : site.Deed who former next mid) (hstanding : site.Standing)
    (hactivity : site.registry.activities[who]? = some ⟨former, false⟩) (hframe : site.Frame mid)
    {key : EndpointKey} {lease : LeaseId} (hconcerns : (mid.settle who next).Concerns key lease) :
    site.Concerns key lease ∨ site.Grants who lease := by
  have hprogress : site.progress? who = some former := progress?_of_activity hactivity
  rcases hconcerns with hstatus | ⟨other, progress, hmet, hattaching⟩
  · change mid.registry.registrar.status.holding? = _ at hstatus
    rcases h.status_cases with hsame | hnone | ⟨opened, granted, flight, rfl, hregistered⟩ |
      ⟨renewed, held, renewals, rfl, hlost⟩
    · exact .inl (.inl (hsame ▸ hstatus))
    · rw [hnone] at hstatus
      cases hstatus
    · rw [hregistered] at hstatus
      cases hstatus
      exact .inl (.inr ⟨who, _, hprogress, rfl⟩)
    · rw [hlost] at hstatus
      cases hstatus
      have hbefore := (hstanding.renews who key lease renewals hactivity).2
      exact .inl (.inl (by rw [hbefore]; rfl))
  · rcases progress?_turned hframe hmet with ⟨rfl, rfl⟩ | ⟨-, hbefore | hbegins⟩
    · rcases h.attaching?_cases hactivity hattaching with hsame | hgrants
      · exact .inl (.inr ⟨_, former, hprogress, hsame⟩)
      · exact .inr hgrants
    · exact .inl (.inr ⟨other, progress, hbefore, hattaching⟩)
    · rw [Progress.attaching?_of_isBeginning hbegins] at hattaching
      cases hattaching

/-- What others do does not make a registration of anything. -/
theorem Calm.concerns {after : Site} {move : Move} (h : site.Calm move after) {key : EndpointKey}
    {lease : LeaseId} (hconcerns : after.Concerns key lease) : site.Concerns key lease := by
  rcases hconcerns with hstatus | ⟨other, progress, hprogress, hattaching⟩
  · exact .inl (h.registrar ▸ hstatus)
  · have hat := Progress.isAtRegistrar_of_isHandled
      (Progress.isHandled_of_isPending (Progress.isPending_of_attaching? hattaching))
    exact .inr ⟨other, progress, (h.engaged other progress
      (Progress.isEngaged_of_isAtRegistrar hat)).1 hprogress, hattaching⟩

/-- A key that is attached to a lease after a deed was attached to it before, or the deed has found that
the request to attach it was answered. -/
theorem Deed.leaseOf_cases (h : site.Deed who former next mid) {text : String} {lease : LeaseId}
    (hkey : mid.store.leaseOf text = some lease) :
    site.store.leaseOf text = some lease ∨ ∃ m, ∃ flight : Flight m,
      former.flight? = some ⟨m, flight⟩ ∧ flight.request.attachment? = some (text, lease) := by
  obtain ⟨received, hsame, hcases⟩ := h.served
  rw [hsame.leaseOf] at hkey
  rcases hcases with rfl | rfl | ⟨m, flight, answer, hflight, hserved⟩
  · exact .inl hkey
  · exact .inl hkey
  · rcases hserved.leaseOf_cases hkey with hbefore | ⟨hattaches, -⟩
    · exact .inl hbefore
    · exact .inr ⟨m, flight, hflight, hattaches⟩

/-- Apart from deeds only the request of another client attaches a key to a lease. -/
theorem StoreMoved.leaseOf_cases {store after : Store} {move : Move}
    (h : StoreMoved store move after) {text : String} {lease : LeaseId}
    (hkey : after.leaseOf text = some lease) : store.leaseOf text = some lease ∨
      ∃ m, ∃ request : Request m, move = .request request ∧
        request.attachment? = some (text, lease) := by
  cases h with
  | same hsame => exact .inl (by rwa [← hsame.leaseOf text])
  | served hserved =>
    exact (hserved.leaseOf_cases hkey).imp_right fun hattaches => ⟨_, _, rfl, hattaches.1⟩
  | closed => exact .inl hkey

/-- A registration attaches nothing but its own key to its own lease. -/
theorem AsksLeases.attaching?_eq {faults : Faults} (h : site.AsksLeases faults) {progress : Progress}
    (hprogress : site.progress? who = some progress) {m : Method} {flight : Flight m}
    (hflight : progress.flight? = some ⟨m, flight⟩) {text : String} {lease : LeaseId}
    (hattaches : flight.request.attachment? = some (text, lease)) :
    ∃ key, progress.attaching? = some (key, lease) ∧ text = key.text := by
  obtain rfl : m = .put := by
    cases hrequest : flight.request with
    | put => rfl
    | _ =>
      rw [hrequest] at hattaches
      cases hattaches
  cases progress with
  | registering key stage =>
    cases stage with
    | attaching granted put =>
      cases hflight
      rw [h.attaching who key granted _ hprogress] at hattaches
      cases hattaches
      exact ⟨key, rfl, rfl⟩
    | _ => cases hflight
  | unregistering closing stage => cases stage <;> cases hflight
  | _ => cases hflight

end

/-- The lease of an active registration is the one that it concerns. -/
theorem Standing.concerns_of_active {site : Site} (h : site.Standing) {current : Active}
    (hactive : site.registry.registrar.active = some current) :
    site.Concerns current.key current.lease := by
  rcases h.status_of_active hactive with hstatus | hstatus <;> exact .inl (by rw [hstatus]; rfl)

end Site

/-- A registration is about a lease that was granted to the registry. -/
theorem granted_of_concerns {store : Store} {config : Config} {dialer : Dialer} {faults : Faults}
    {moves : List Move} {final : Site}
    (hrun : (Site.start store config dialer faults).run moves = some final) {key : EndpointKey}
    {lease : LeaseId} (hconcerns : final.Concerns key lease) :
    Granted ((Site.start store config dialer faults).history moves) lease := by
  refine Site.history_induction (P := fun past site => ∀ key lease, site.Concerns key lease →
    Granted past lease) ?_ ?_ hrun key lease hconcerns
  · rintro key lease (hstatus | ⟨who, progress, hprogress, hattaching⟩)
    · cases hstatus
    · cases (Site.progress?_start hprogress).2
      cases hattaching
  · intro before site move after hbefore ih hmove key lease hlater
    obtain ⟨hline, hbacked⟩ := Site.inLine_of_run hbefore
    cases hline.course hbacked hmove with
    | @deed who former next mid hactivity hready hdeed hframe =>
      rcases hdeed.concerns (Site.standing_of_run hbefore) hactivity hframe hlater with
        hearlier | hgrants
      · exact (ih key lease hearlier).mono (List.subset_append_left _ _)
      · exact ⟨site, who, by simp, hgrants⟩
    | calm hcalm =>
      exact (ih key lease (hcalm.concerns hlater)).mono (List.subset_append_left _ _)

namespace Site

/-! ## Nothing else is attached -/

/-- Only the key of the registration is attached to its lease. -/
def Confined (past : List (Site × Move)) (site : Site) : Prop :=
  ∀ text key lease, Granted past lease → site.store.leaseOf text = some lease →
    site.Concerns key lease → text = key.text

section
variable {store : Store} {faults : Faults} {past : List (Site × Move)} {site after : Site} {move : Move}

theorem Confined.deed (h : Confined past site) (hreliable : Reliable store faults)
    (hasks : site.AsksLeases faults) (hstanding : site.Standing) (hline : site.InLine)
    (hkept : Kept past site) {who : Nat} {former next : Progress} {mid : Site}
    (hactivity : site.registry.activities[who]? = some ⟨former, false⟩)
    (hdeed : site.Deed who former next mid) (hframe : site.Frame mid) :
    Confined (past ++ [(site, .step who)]) (mid.settle who next) := by
  have hprogress : site.progress? who = some former := progress?_of_activity hactivity
  -- a lease that has just been granted has not been granted before, and nothing is attached to it
  have hgranting : ∀ lease, site.Grants who lease → lease = ⟨site.store.granted + 1⟩ ∧
      ∃ key flight, former = .registering key (.granting flight) := by
    rintro lease ⟨key, flight, received, hgranting, hreceive⟩
    rw [hactivity] at hgranting
    cases hgranting
    exact ⟨(grants_eq hreliable.grants hasks hprogress rfl hreceive).1, key, flight, rfl⟩
  intro text key lease hgranted hkey hconcerns
  have hattached := hdeed.leaseOf_cases hkey
  have hattaching : ∀ {m : Method} {flight : Flight m}, former.flight? = some ⟨m, flight⟩ →
      flight.request.attachment? = some (text, lease) →
        ∃ key, former.attaching? = some (key, lease) ∧ text = key.text :=
    fun hflight => hasks.attaching?_eq hprogress hflight
  by_cases hnew : site.Grants who lease
  · obtain ⟨rfl, granting, flight, rfl⟩ := hgranting lease hnew
    rcases hattached with hbefore | ⟨m, flight, hflight, hattaches⟩
    · have hle := hkept.sound.numbered _ (.inr ⟨text, hbefore⟩)
      simp only at hle
      omega
    · obtain ⟨attached, hsame, -⟩ := hattaching hflight hattaches
      cases hsame
  · have hearlier : Granted past lease := by
      rcases hgranted.of_append with hbefore | ⟨other, hmove, hgrants⟩
      · exact hbefore
      · cases hmove
        exact absurd hgrants hnew
    have hbefore := (hdeed.concerns hstanding hactivity hframe hconcerns).resolve_right hnew
    rcases hattached with hheld | ⟨m, flight, hflight, hattaches⟩
    · exact h text key lease hearlier hheld hbefore
    · obtain ⟨attached, hsame, htext⟩ := hattaching hflight hattaches
      rw [htext]
      rcases hbefore with hstatus | ⟨other, progress, hmet, hother⟩
      · rw [(hstanding.fits who former hprogress).holding?_eq hsame] at hstatus
        cases hstatus
      · obtain ⟨rfl, rfl⟩ := hline.handled_unique hprogress
          (Progress.isHandled_of_isPending (Progress.isPending_of_attaching? hsame)) hmet
          (Progress.isHandled_of_isPending (Progress.isPending_of_attaching? hother))
        rw [hsame] at hother
        cases hother
        rfl

theorem Confined.moved (h : Confined past site) (hreliable : Reliable store faults)
    (hasks : site.AsksLeases faults) (hstanding : site.Standing) (hline : site.InLine)
    (hbacked : site.Backed) (hkept : Kept past site) (hmove : site.after move = some after)
    (hunshared : Unshared (past ++ [(site, move)])) :
    Confined (past ++ [(site, move)]) after := by
  cases hline.course hbacked hmove with
  | deed hactivity hready hdeed hframe =>
    exact h.deed hreliable hasks hstanding hline hkept hactivity hdeed hframe
  | calm hcalm =>
    intro text key lease hgranted hkey hconcerns
    have hbefore := hcalm.granted_before hgranted
    have hheld : site.store.leaseOf text = some lease := by
      rcases hcalm.store.leaseOf_cases hkey with hheld | ⟨m, request, rfl, hattaches⟩
      · exact hheld
      · exact absurd hbefore (hunshared past site m request [] rfl text lease hattaches)
    exact h text key lease hbefore hheld (hcalm.concerns hconcerns)

end

end Site

/-- As long as no other client attaches a key to a lease of the registry, only the key of the registration
is attached to its lease. -/
theorem confined_of_run {store : Store} {config : Config} {dialer : Dialer} {faults : Faults}
    {moves : List Move} {final : Site} (hreliable : Reliable store faults)
    (hrun : (Site.start store config dialer faults).run moves = some final)
    (hrevoked : RevocationsSucceed ((Site.start store config dialer faults).history moves))
    (hunshared : Unshared ((Site.start store config dialer faults).history moves)) :
    Site.Confined ((Site.start store config dialer faults).history moves) final := by
  refine Site.history_induction (P := fun past site => RevocationsSucceed past → Unshared past →
    Site.Confined past site) ?_ ?_ hrun hrevoked hunshared
  · rintro - - text key lease ⟨site, who, hmem, -⟩
    cases hmem
  · intro before site move after hbefore ih hmove hsucceed hkeepsOut
    obtain ⟨hline, hbacked⟩ := Site.inLine_of_run hbefore
    exact (ih hsucceed.of_append hkeepsOut.of_append).moved hreliable
      (Site.asksLeases_of_run hbefore) (Site.standing_of_run hbefore) hline hbacked
      (kept_of_run hreliable hbefore hsucceed.of_append) hmove hkeepsOut

/-! ## The key stays attached -/

/-- A move by which another client changes what stands under a key, or ends a lease. -/
def Move.Disturbs (key : String) (lease : LeaseId) : Move → Prop
  | .request asked => asked.Changes key ∨ asked.Ends lease
  | .closeStore => True
  | _ => False

theorem Move.not_disturbs_of_not_isForeign {key : String} {lease : LeaseId} {move : Move}
    (h : move.isForeign = false) : ¬ move.Disturbs key lease := by
  cases move with
  | step | call => exact id
  | _ => cases h

/-- The store has the key of an instance with its descriptor, attached to a live lease. -/
def Store.Carries (store : Store) (key : EndpointKey) (lease : LeaseId) : Prop :=
  store.content.get? key.text = some ⟨key.descriptor, some lease⟩ ∧ store.isLive lease = true

theorem Store.Carries.same {before after : Store} {key : EndpointKey} {lease : LeaseId}
    (h : before.Carries key lease) (hsame : before.SameHoldings after) : after.Carries key lease := by
  constructor
  · rw [hsame.content]
    exact h.1
  · rw [hsame.isLive]
    exact h.2

theorem Store.Carries.moved {before after : Store} {move : Move} {key : EndpointKey}
    {lease : LeaseId} (h : before.Carries key lease) (hstore : Site.StoreMoved before move after)
    (hundisturbed : ¬ move.Disturbs key.text lease) : after.Carries key lease := by
  cases hstore with
  | same hsame => exact h.same hsame
  | served hserved =>
    obtain ⟨hkey, hlease⟩ := not_or.1 hundisturbed
    exact ⟨hserved.get?_kept hkey hlease h.1, hserved.isLive_kept hlease h.2⟩
  | closed => exact (hundisturbed trivial).elim

namespace Site

/-- A registration has attached its key to its lease. -/
def Attaches (site : Site) (who : Nat) (key : EndpointKey) (lease : LeaseId) : Prop :=
  ∃ flight mid, site.registry.activities[who]? =
      some ⟨.registering key (.attaching lease flight), false⟩ ∧
    site.receive flight = (.ok (), mid)

/-- The registration is live, or complete but for the renewal of its lease. -/
def Upholds (site : Site) (key : EndpointKey) (lease : LeaseId) : Prop :=
  site.registry.registrar.status = .registered key lease ∨
    ∃ who flight, site.progress? who = some (.registering key (.opening lease flight))

/-- The key was attached in the past, and is attached unless another client has disturbed this. -/
def Rooted (past : List (Site × Move)) (site : Site) (key : EndpointKey) (lease : LeaseId) : Prop :=
  ∃ before early who after, past = before ++ (early, .step who) :: after ∧
    early.Attaches who key lease ∧
    ((∀ entry ∈ after, ¬ entry.2.Disturbs key.text lease) → site.store.Carries key lease)

theorem Rooted.append {past : List (Site × Move)} {site later : Site} {key : EndpointKey}
    {lease : LeaseId} (h : Rooted past site key lease) (last : Site × Move)
    (hcarries : ¬ last.2.Disturbs key.text lease → site.store.Carries key lease →
      later.store.Carries key lease) : Rooted (past ++ [last]) later key lease := by
  obtain ⟨before, early, who, after, rfl, hattaches, hholds⟩ := h
  refine ⟨before, early, who, after ++ [last], by simp, hattaches, fun hcalm => ?_⟩
  exact hcarries (hcalm last (by simp))
    (hholds fun entry hmem => hcalm entry (List.mem_append_left _ hmem))

section
variable {past : List (Site × Move)} {site mid after : Site} {move : Move} {who : Nat}
  {former next : Progress} {key : EndpointKey} {lease : LeaseId}

/-- Nobody is at the registrar while the registry is about to close the store. -/
theorem Ending.vacant (h : site.Ending) (hsealing : site.progress? who = some .sealing) :
    site.Vacant := by
  cases h with
  | going _ hnobody => exact absurd ⟨_, hsealing, rfl⟩ (hnobody who)
  | departing _ hcloser honly =>
    obtain ⟨progress, hprogress, hdeparting⟩ := hcloser
    obtain rfl := honly who ⟨_, hsealing, rfl⟩
    rw [hsealing] at hprogress
    cases hprogress
    cases hdeparting
  | leaving _ _ _ hvacant => exact hvacant
  | ended hover => exact absurd ⟨_, hsealing, rfl⟩ (hover.nobody who)

/-- While the registry is about to close the store, nothing is registered. -/
theorem Ending.not_upholds (h : site.Ending) (hline : site.InLine) (hstanding : site.Standing)
    (hsealing : site.progress? who = some .sealing) : ¬ site.Upholds key lease := by
  obtain ⟨hidle, hnone⟩ := (h.vacant hsealing).unregistered hline hstanding
  rintro (hstatus | ⟨other, flight, hopening⟩)
  · rw [hnone] at hstatus
    cases hstatus
  · cases hidle other _ hopening

/-- What is attached for a registration that stands is attached by its own last request, or the deed lets
content and leases be. -/
theorem Deed.same_of_upholds (hdeed : site.Deed who former next mid)
    (hprogress : site.progress? who = some former) (hstanding : site.Standing) (hline : site.InLine)
    (hending : site.Ending) (h : site.Upholds key lease) : site.store.SameHoldings mid.store := by
  rcases hdeed.store_cases with ⟨-, hsame⟩ |
    ⟨m, flight, answer, received, hflight, hreceive, hsame⟩ | ⟨rfl, -⟩
  · exact hsame
  · have hpending := Progress.isPending_of_flight? hflight
    rcases h with hstatus | ⟨other, opened, hopening⟩
    · exact absurd hstatus ((hstanding.fits who former hprogress).status_ne_registered hpending _ _)
    · -- the activity that is handled waits for the renewals of its lease
      obtain ⟨rfl, rfl⟩ := hline.handled_unique hprogress
        (Progress.isHandled_of_isPending hpending) hopening rfl
      cases hflight
      exact (spares_of_receive hreceive rfl).store.trans hsame
  · exact absurd h (hending.not_upholds hline hstanding hprogress)

/-- A registration that stands after a deed stood before, or the deed has attached its key. -/
theorem Deed.upholds (hdeed : site.Deed who former next mid)
    (hactivity : site.registry.activities[who]? = some ⟨former, false⟩) (hframe : site.Frame mid)
    (h : (mid.settle who next).Upholds key lease) :
    site.Upholds key lease ∨ site.Attaches who key lease ∧
      ∃ flight received, former = .registering key (.attaching lease flight) ∧
        site.receive flight = (.ok (), received) ∧ received.store.SameHoldings mid.store := by
  have hprogress : site.progress? who = some former := progress?_of_activity hactivity
  rcases h with hstatus | ⟨other, flight, hopening⟩
  · change mid.registry.registrar.status = _ at hstatus
    rcases hdeed.status_cases with hsame | hnone | ⟨opened, granted, flight, rfl, hregistered⟩ |
      ⟨renewed, held, renewals, -, hlost⟩
    · exact .inl (.inl (hsame ▸ hstatus))
    · rw [hstatus] at hnone
      cases hnone
    · rw [hregistered] at hstatus
      cases hstatus
      exact .inl (.inr ⟨who, flight, hprogress⟩)
    · rw [hlost] at hstatus
      cases hstatus
  · rcases progress?_turned hframe hopening with ⟨rfl, rfl⟩ | ⟨-, hbefore | hbegins⟩
    · cases hdeed with
      | aside hformer hnext => cases hnext
      | attach hreceive hsend =>
        exact .inr ⟨⟨_, _, hactivity, hreceive⟩, _, _, rfl, hreceive, (of_sent hsend).1.store⟩
    · exact .inl (.inr ⟨other, flight, hbefore⟩)
    · cases hbegins

variable {faults : Faults}

/-- The key that has just been attached is attached. -/
theorem AsksLeases.carries (h : site.AsksLeases faults) (hput : faults.Genuine .put)
    {flight : Flight .put} {received : Site}
    (hprogress : site.progress? who = some (.registering key (.attaching lease flight)))
    (hreceive : site.receive flight = (.ok (), received)) : received.store.Carries key lease := by
  have hgenuine := (h.meets who _ _ flight hprogress rfl).genuine hput
  have hserve := serve_of_receive hgenuine hreceive
  rw [h.attaching who key lease flight hprogress] at hserve
  cases Store.served_of_serve hserve with
  | read hreads => cases hreads
  | put hlive hcontent hleases =>
    constructor
    · rw [hcontent, if_pos rfl]
    · rw [Store.isLive, Store.ttl?, hleases]
      exact hlive lease rfl

theorem rooted_moved (h : ∀ key lease, site.Upholds key lease → Rooted past site key lease)
    (hput : faults.Genuine .put) (hasks : site.AsksLeases faults) (hstanding : site.Standing)
    (hline : site.InLine) (hbacked : site.Backed) (hending : site.Ending)
    (hmove : site.after move = some after) (hupholds : after.Upholds key lease) :
    Rooted (past ++ [(site, move)]) after key lease := by
  cases hline.course hbacked hmove with
  | @deed who former next mid hactivity hready hdeed hframe =>
    have hprogress : site.progress? who = some former := progress?_of_activity hactivity
    rcases hdeed.upholds hactivity hframe hupholds with hbefore |
      ⟨hattaches, flight, received, rfl, hreceive, hsame⟩
    · have hsame := hdeed.same_of_upholds hprogress hstanding hline hending hbefore
      exact (h key lease hbefore).append (site, .step who) fun _ hcarries => hcarries.same hsame
    · have hcarries := hasks.carries hput hprogress hreceive
      exact ⟨past, site, who, [], rfl, hattaches, fun _ => hcarries.same hsame⟩
  | calm hcalm =>
    refine (h key lease ?_).append (site, move) fun hundisturbed hcarries =>
      hcarries.moved hcalm.store hundisturbed
    rcases hupholds with hstatus | ⟨who, flight, hopening⟩
    · exact .inl (hcalm.registrar ▸ hstatus)
    · exact .inr ⟨who, flight, (hcalm.engaged who _ rfl).1 hopening⟩

end

end Site

/-- The key of a live registration was attached to its lease by the registration, and it still is, and the
lease is live, unless another client has disturbed this since then. -/
theorem rooted_of_run {store : Store} {config : Config} {dialer : Dialer} {faults : Faults}
    {moves : List Move} {final : Site} (hput : faults.Genuine .put)
    (hrun : (Site.start store config dialer faults).run moves = some final) {key : EndpointKey}
    {lease : LeaseId} (hupholds : final.Upholds key lease) :
    Site.Rooted ((Site.start store config dialer faults).history moves) final key lease := by
  refine Site.history_induction (P := fun past site => ∀ key lease, site.Upholds key lease →
    Site.Rooted past site key lease) ?_ ?_ hrun key lease hupholds
  · rintro key lease (hstatus | ⟨who, flight, hopening⟩)
    · cases hstatus
    · cases (Site.progress?_start hopening).2
  · intro before site move after hbefore ih hmove key lease hupholds
    obtain ⟨hline, hbacked⟩ := Site.inLine_of_run hbefore
    exact Site.rooted_moved ih hput (Site.asksLeases_of_run hbefore) (Site.standing_of_run hbefore)
      hline hbacked (Site.ending_of_run hbefore) hmove hupholds

end ServiceRegistry
