import ServiceRegistry.Proofs.Registry.Asking
import ServiceRegistry.Proofs.Registry.Standing

/-!
# Leases of a registry

A lease that was granted to a registry is either that of its active registration or in the hands of the
one activity that is handled at the registrar, and it gets out of these hands only when the store has
been told to revoke it. So as long as every revocation is carried out, or finds nothing to revoke, no
other lease of the registry is live and no key is attached to another one, whatever becomes of the other
requests.
-/
namespace ServiceRegistry

namespace Progress

/-- The request about a registration that an activity waits for. -/
def flight? : Progress → Option (Σ m, Flight m)
  | .registering _ (.replacing flight) => some ⟨_, flight⟩
  | .registering _ (.granting flight) => some ⟨_, flight⟩
  | .registering _ (.attaching _ flight) => some ⟨_, flight⟩
  | .registering _ (.opening _ flight) => some ⟨_, flight⟩
  | .registering _ (.abandoning _ flight) => some ⟨_, flight⟩
  | .unregistering _ (.deleting _ flight) => some ⟨_, flight⟩
  | .unregistering _ (.revoking _ flight) => some ⟨_, flight⟩
  | _ => none

/-- The lease that an activity has in its hands. -/
def lease? : Progress → Option LeaseId
  | .registering _ (.replacing flight) => some flight.request.revoked
  | .registering _ (.attaching lease _) => some lease
  | .registering _ (.opening lease _) => some lease
  | .registering _ (.abandoning _ flight) => some flight.request.revoked
  | .unregistering _ (.deleting lease _) => some lease
  | .unregistering _ (.revoking _ flight) => some flight.request.revoked
  | _ => none

/-- Whether the activity ends a registration, as a call of its own or because the registry closes. -/
def isUnregistering : Progress → Bool
  | .unregistering _ _ => true
  | _ => false

theorem isPending_of_lease? {progress : Progress} {lease : LeaseId}
    (h : progress.lease? = some lease) : progress.isPending = true := by
  cases progress with
  | registering key stage =>
    cases stage with
    | queued | granting | leaving => cases h
    | _ => rfl
  | unregistering closing stage =>
    cases stage with
    | queued | leaving => cases h
    | _ => rfl
  | _ => cases h

theorem isPending_of_flight? {progress : Progress} {m : Method} {flight : Flight m}
    (h : progress.flight? = some ⟨m, flight⟩) : progress.isPending = true := by
  cases progress with
  | registering key stage =>
    cases stage with
    | queued | leaving => cases h
    | _ => rfl
  | unregistering closing stage =>
    cases stage with
    | queued | leaving => cases h
    | _ => rfl
  | _ => cases h

theorem Fits.active_eq {progress : Progress} {registrar : Registrar} (h : progress.Fits registrar)
    (hpending : progress.isPending = true) : registrar.active = none := by
  cases progress with
  | registering key stage =>
    cases stage with
    | queued | leaving => cases hpending
    | _ => exact h.1
  | unregistering closing stage =>
    cases stage with
    | queued | leaving => cases hpending
    | _ => exact h.1
  | _ => cases hpending

/-- While something is asked about a registration, the status is not that of a live one, nor that of
none. -/
theorem Fits.status_of_isPending {progress : Progress} {registrar : Registrar}
    (h : progress.Fits registrar) (hpending : progress.isPending = true) :
    registrar.status = .registering ∨ registrar.status = .unregistering ∨
      ∃ key lease, registrar.status = .lost key lease := by
  cases progress with
  | registering key stage =>
    cases stage with
    | queued | leaving => cases hpending
    | replacing flight =>
      obtain ⟨-, lost, hlost⟩ := h
      exact .inr (.inr ⟨lost, _, hlost⟩)
    | granting | attaching | opening | abandoning => exact .inl h.2
  | unregistering closing stage =>
    cases stage with
    | queued | leaving => cases hpending
    | deleting | revoking => exact .inr (.inl h.2)
  | _ => cases hpending

/-- A lease in the hands of an activity is that of a lost registration, or the status names none. -/
theorem Fits.status_cases {progress : Progress} {registrar : Registrar} (h : progress.Fits registrar)
    {lease : LeaseId} (hlease : progress.lease? = some lease) :
    registrar.status = .registering ∨ registrar.status = .unregistering ∨
      ∃ key, registrar.status = .lost key lease := by
  cases progress with
  | registering key stage =>
    cases stage with
    | queued | granting | leaving => cases hlease
    | replacing flight =>
      obtain ⟨-, key, hstatus⟩ := h
      cases hlease
      exact .inr (.inr ⟨key, hstatus⟩)
    | attaching | opening | abandoning => exact .inl h.2
  | unregistering closing stage =>
    cases stage with
    | queued | leaving => cases hlease
    | deleting | revoking => exact .inr (.inl h.2)
  | _ => cases hlease

end Progress

namespace Site

/-- The lease is that of the active registration, or an activity has it in its hands. -/
def Keeps (site : Site) (lease : LeaseId) : Prop :=
  (∃ current, site.registry.registrar.active = some current ∧ current.lease = lease) ∨
    ∃ who progress, site.progress? who = some progress ∧ progress.lease? = some lease

/-- A registration is granted a lease. -/
def Grants (site : Site) (who : Nat) (lease : LeaseId) : Prop :=
  ∃ key flight mid,
    site.registry.activities[who]? = some ⟨.registering key (.granting flight), false⟩ ∧
      site.receive flight = (.ok lease, mid)

/-- A registry keeps at most one lease. -/
theorem Standing.keeps_unique {site : Site} (h : site.Standing) (hline : site.InLine)
    {lease other : LeaseId} (hlease : site.Keeps lease) (hother : site.Keeps other) :
    lease = other := by
  have hmixed : ∀ current who progress id, site.registry.registrar.active = some current →
      site.progress? who = some progress → progress.lease? ≠ some id := by
    intro current who progress id hactive hprogress hid
    have hnone := (h.fits who progress hprogress).active_eq (Progress.isPending_of_lease? hid)
    rw [hactive] at hnone
    cases hnone
  rcases hlease with ⟨current, hactive, rfl⟩ | ⟨who, progress, hprogress, hid⟩
  · rcases hother with ⟨same, hsame, rfl⟩ | ⟨who, progress, hprogress, hid⟩
    · rw [hactive] at hsame
      cases hsame
      rfl
    · exact absurd hid (hmixed current who progress other hactive hprogress)
  · rcases hother with ⟨current, hactive, rfl⟩ | ⟨who', progress', hprogress', hid'⟩
    · exact absurd hid (hmixed current who progress lease hactive hprogress)
    · obtain ⟨rfl, rfl⟩ := hline.handled_unique hprogress
        (Progress.isHandled_of_isPending (Progress.isPending_of_lease? hid)) hprogress'
        (Progress.isHandled_of_isPending (Progress.isPending_of_lease? hid'))
      exact Option.some.inj (hid.symm.trans hid')

/-- While a registration is active, the status is that of its key and its lease. -/
theorem Standing.status_of_active {site : Site} (h : site.Standing) {current : Active}
    (hactive : site.registry.registrar.active = some current) :
    site.registry.registrar.status = .registered current.key current.lease ∨
      site.registry.registrar.status = .lost current.key current.lease := by
  refine (h.rests fun who progress hprogress => ?_).status_cases hactive
  by_contra hpending
  have hnone := (h.fits who progress hprogress).active_eq (by simpa using hpending)
  rw [hactive] at hnone
  cases hnone

/-- A lease is kept under a status that names it, or that names none because a registration or an
unregistration is under way. -/
theorem Standing.status_of_keeps {site : Site} (h : site.Standing) {lease : LeaseId}
    (hkeeps : site.Keeps lease) :
    site.registry.registrar.status = .registering ∨
      site.registry.registrar.status = .unregistering ∨
      site.registry.registrar.status.lease? = some lease := by
  rcases hkeeps with ⟨current, hactive, rfl⟩ | ⟨who, progress, hprogress, hlease⟩
  · rcases h.status_of_active hactive with hstatus | hstatus <;>
      exact .inr (.inr (by rw [hstatus]; rfl))
  · rcases (h.fits who progress hprogress).status_cases hlease with hstatus | hstatus | ⟨key, hstatus⟩
    · exact .inl hstatus
    · exact .inr (.inl hstatus)
    · exact .inr (.inr (by rw [hstatus]; rfl))

/-! ## What becomes of what is kept -/

section
variable {site mid : Site} {who : Nat} {former next : Progress}

/-- A deed leaves the active registration as it is, or takes its lease in hand because it is lost or to be
removed, or makes one active. -/
theorem Deed.active_cases (h : site.Deed who former next mid) :
    mid.registry.registrar.active = site.registry.registrar.active ∨
      (∃ current, site.registry.registrar.active = some current ∧
        next.lease? = some current.lease ∧
        (site.registry.registrar.status.isLost = true ∨ former.isUnregistering = true)) ∨
      ∃ key lease flight, former = .registering key (.opening lease flight) ∧
        next = .registering key (.leaving (.ok ())) ∧
        mid.registry.registrar.active = some ⟨key, lease, site.registry.activities.length⟩ := by
  cases h with
  | aside hformer hnext hspares => exact .inl (congrArg Registrar.active hspares.registrar)
  | stop => exact .inl (active_lose _ _ _)
  | replace hactive hlost hsend =>
    refine .inr (.inl ⟨_, hactive, ?_, .inl hlost⟩)
    show some (Request.revoked _) = _
    rw [(of_sent hsend).2.1]
    rfl
  | remove hactive hsend => exact .inr (.inl ⟨_, hactive, rfl, .inr rfl⟩)
  | register hreceive => exact .inr (.inr ⟨_, _, _, rfl, rfl, rfl⟩)
  | begin hactive hsend =>
    rw [registry_of_send hsend]
    exact .inl rfl
  | beginAgain hreceive hsend =>
    rw [registry_of_send hsend, registry_publish_of_receive hreceive]
    exact .inl rfl
  | grant hreceive hsend | attach hreceive hsend | detach hreceive hsend | abandon hreceive hsend
  | delete hreceive hsend =>
    rw [registry_of_send hsend, registry_of_receive hreceive]
    exact .inl rfl
  | refuse hreceive | giveUp hreceive | revoke hreceive =>
    rw [registry_publish_of_receive hreceive]
    exact .inl rfl
  | _ => exact .inl rfl

/-- A lease gets out of the hands of an activity when it is active, or when the answer to its revocation
is there. -/
theorem Deed.lease_cases (h : site.Deed who former next mid) {lease : LeaseId}
    (hlease : former.lease? = some lease) :
    next.lease? = some lease ∨
      (∃ current, mid.registry.registrar.active = some current ∧ current.lease = lease) ∨
      ∃ flight : Flight .revoke, former.flight? = some ⟨_, flight⟩ ∧
        flight.request.revoked = lease := by
  cases h with
  | attach => exact .inl hlease
  | detach hreceive hsend =>
    left
    show some (Request.revoked _) = _
    rw [(of_sent hsend).2.1]
    exact hlease
  | abandon hreceive hsend =>
    left
    show some (Request.revoked _) = _
    rw [(of_sent hsend).2.1]
    exact hlease
  | delete hreceive hsend =>
    left
    show some (Request.revoked _) = _
    rw [(of_sent hsend).2.1]
    exact hlease
  | register hreceive =>
    cases hlease
    exact .inr (.inl ⟨_, rfl, rfl⟩)
  | beginAgain => exact .inr (.inr ⟨_, rfl, Option.some.inj hlease⟩)
  | giveUp => exact .inr (.inr ⟨_, rfl, Option.some.inj hlease⟩)
  | revoke => exact .inr (.inr ⟨_, rfl, Option.some.inj hlease⟩)
  | aside haside =>
    cases former with
    | registering | unregistering => cases haside
    | _ => cases hlease
  | _ => cases hlease

/-- A deed takes the answer that the activity has waited for, or leaves content and leases alone, or
closes the store. -/
theorem Deed.store_cases (h : site.Deed who former next mid) :
    former.flight? = none ∧ site.store.SameHoldings mid.store ∨
      (∃ m, ∃ (flight : Flight m) (answer : Except Error (Answer m)) (received : Site),
        former.flight? = some ⟨m, flight⟩ ∧ site.receive flight = (answer, received) ∧
          received.store.SameHoldings mid.store) ∨
      former = .sealing ∧ mid.store = site.store.close := by
  cases h with
  | aside hformer hnext hspares =>
    refine .inl ⟨?_, hspares.store⟩
    cases former with
    | registering | unregistering => cases hformer
    | _ => rfl
  | begin hactive hsend | replace hactive hlost hsend | remove hactive hsend =>
    exact .inl ⟨rfl, (of_sent hsend).1.store⟩
  | beginAgain hreceive hsend | grant hreceive hsend | attach hreceive hsend | detach hreceive hsend
  | abandon hreceive hsend | delete hreceive hsend =>
    exact .inr (.inl ⟨_, _, _, _, rfl, hreceive, (of_sent hsend).1.store⟩)
  | refuse hreceive | register hreceive | giveUp hreceive | revoke hreceive =>
    exact .inr (.inl ⟨_, _, _, _, rfl, hreceive, .refl _⟩)
  | shut => exact .inr (.inr ⟨rfl, rfl⟩)
  | _ => exact .inl ⟨rfl, .refl _⟩

/-- What a deed does to the store is no more than a request that is carried out, or its closing. -/
theorem Deed.served (h : site.Deed who former next mid) :
    ∃ received : Store, received.SameHoldings mid.store ∧
      (received = site.store ∨ received = site.store.close ∨
        ∃ m, ∃ (flight : Flight m) (answer : Answer m), former.flight? = some ⟨m, flight⟩ ∧
          site.store.Served flight.request answer received) := by
  rcases h.store_cases with ⟨-, hsame⟩ | ⟨m, flight, answer, received, hflight, hreceive, hsame⟩ |
    ⟨-, hclose⟩
  · exact ⟨site.store, hsame, .inl rfl⟩
  · refine ⟨received.store, hsame, ?_⟩
    rcases served_of_receive hreceive with hstore | ⟨given, hserved⟩
    · exact .inl hstore
    · exact .inr (.inr ⟨m, flight, given, hflight, hserved⟩)
  · exact ⟨site.store.close, hclose ▸ .refl _, .inr (.inl rfl)⟩

end

/-! ## What is asked about leases -/

/-- What an activity at the registrar waits for was sent under the faults of the client, and a key is
attached to the lease that was granted for it. -/
structure AsksLeases (faults : Faults) (site : Site) : Prop where
  meets : ∀ who progress m (flight : Flight m), site.progress? who = some progress →
    progress.flight? = some ⟨m, flight⟩ → flight.Meets faults
  attaching : ∀ who key lease flight,
    site.progress? who = some (.registering key (.attaching lease flight)) →
      flight.request = .put key.text key.descriptor (some lease)

/-- What an activity waits for after a deed was sent by the deed. -/
theorem Deed.meets {site mid : Site} {who : Nat} {former next : Progress}
    (h : site.Deed who former next mid) {m : Method} {flight : Flight m}
    (hflight : next.flight? = some ⟨m, flight⟩) : flight.Meets site.client.faults := by
  cases h with
  | aside hformer hnext =>
    cases next with
    | registering | unregistering => cases hnext
    | _ => cases hflight
  | begin hactive hsend | replace hactive hlost hsend | remove hactive hsend =>
    cases hflight
    exact (of_sent hsend).2.2
  | beginAgain hreceive hsend | grant hreceive hsend | attach hreceive hsend | detach hreceive hsend
  | abandon hreceive hsend | delete hreceive hsend =>
    cases hflight
    exact client_of_receive hreceive ▸ (of_sent hsend).2.2
  | _ => cases hflight

theorem AsksLeases.moved {faults : Faults} {site after : Site} {move : Move}
    (h : site.AsksLeases faults) (hfaults : faults.Leaves site.client.faults) (hline : site.InLine)
    (hbacked : site.Backed) (hmove : site.after move = some after) : after.AsksLeases faults := by
  constructor
  · intro who progress m flight hprogress hflight
    have hat := Progress.isAtRegistrar_of_isHandled
      (Progress.isHandled_of_isPending (Progress.isPending_of_flight? hflight))
    rcases hline.met hbacked hmove hprogress hat with hbefore | ⟨former, mid, -, hdeed⟩
    · exact h.meets who progress m flight hbefore hflight
    · exact (hdeed.meets hflight).of_leaves hfaults
  · intro who key lease flight hprogress
    rcases hline.met hbacked hmove hprogress rfl with hbefore | ⟨former, mid, -, hdeed⟩
    · exact h.attaching who key lease flight hbefore
    · cases hdeed with
      | aside hformer hnext => cases hnext
      | grant hreceive hsend => exact (of_sent hsend).2.1

theorem asksLeases_of_run {store : Store} {config : Config} {dialer : Dialer} {faults : Faults}
    {moves : List Move} {site : Site} (hrun : (start store config dialer faults).run moves = some site) :
    site.AsksLeases faults := by
  have hinduction : site.AsksLeases faults ∧ faults.Leaves site.client.faults := by
    refine history_induction (P := fun _ site => site.AsksLeases faults ∧
      faults.Leaves site.client.faults) ⟨⟨?_, ?_⟩, .refl _⟩ ?_ hrun
    · intro who progress m flight hprogress hflight
      cases (progress?_start hprogress).2
      cases hflight
    · intro who key lease flight hprogress
      cases (progress?_start hprogress).2
    · rintro before mid move after hbefore ⟨h, hfaults⟩ hmove
      obtain ⟨hline, hbacked⟩ := inLine_of_run hbefore
      exact ⟨h.moved hfaults hline hbacked hmove, hfaults.trans (precedes_of_after hmove).faults⟩
  exact hinduction.1

end Site

/-- What is relied on in the store and in the faults in front of it: nothing answers in the store's place
when it is asked to grant or to revoke a lease, or says in its place that a lease is not there. -/
structure Reliable (store : Store) (faults : Faults) : Prop where
  sound : store.Sound
  grants : faults.Genuine .grant
  revokes : faults.Genuine .revoke
  candid : ∀ fault ∈ faults .revoke, ∀ number, fault.treatment ≠ .refused (.leaseNotFound number)

/-- An empty store with no faults in front of it can be relied on. -/
theorem reliable_empty : Reliable .empty .none :=
  ⟨Store.sound_empty, Faults.genuine_none _, Faults.genuine_none _, nofun⟩

/-- The lease was granted to a registration of the registry. -/
def Granted (past : List (Site × Move)) (lease : LeaseId) : Prop :=
  ∃ site who, (site, .step who) ∈ past ∧ site.Grants who lease

/-- Whether the move takes the answer that a revocation has failed, and not because the lease was not
there. -/
def Site.failsToRevoke (site : Site) : Move → Bool
  | .step who =>
    match site.registry.activities[who]? with
    | some ⟨progress, false⟩ =>
      match progress.flight? with
      | some ⟨.revoke, flight⟩ =>
        match (site.receive flight).1 with
        | .ok _ | .error (.leaseNotFound _) => false
        | .error _ => true
      | _ => false
    | _ => false
  | _ => false

/-- All revocations were carried out, or found that the lease was not there. -/
def RevocationsSucceed (past : List (Site × Move)) : Prop :=
  ∀ entry ∈ past, entry.1.failsToRevoke entry.2 = false

instance (past : List (Site × Move)) : Decidable (RevocationsSucceed past) :=
  inferInstanceAs (Decidable (∀ entry ∈ past, entry.1.failsToRevoke entry.2 = false))

theorem RevocationsSucceed.answer {past : List (Site × Move)} (h : RevocationsSucceed past)
    {site : Site} {who : Nat} {progress : Progress} {flight : Flight .revoke}
    (hmem : (site, .step who) ∈ past)
    (hactivity : site.registry.activities[who]? = some ⟨progress, false⟩)
    (hflight : progress.flight? = some ⟨.revoke, flight⟩) :
    (site.receive flight).1 = .ok () ∨
      ∃ number, (site.receive flight).1 = .error (.leaseNotFound number) := by
  have hanswer := h _ hmem
  simp only [Site.failsToRevoke, hactivity, hflight] at hanswer
  split at hanswer
  · rename_i heq
    exact .inl heq
  · rename_i number heq
    exact .inr ⟨number, heq⟩
  · cases hanswer

theorem Granted.mono {past later : List (Site × Move)} {lease : LeaseId} (h : Granted past lease)
    (hsub : past ⊆ later) : Granted later lease := by
  obtain ⟨site, who, hmem, hgrants⟩ := h
  exact ⟨site, who, hsub hmem, hgrants⟩

theorem Granted.of_append {past : List (Site × Move)} {site : Site} {move : Move} {lease : LeaseId}
    (h : Granted (past ++ [(site, move)]) lease) :
    Granted past lease ∨ ∃ who, move = .step who ∧ site.Grants who lease := by
  obtain ⟨early, who, hmem, hgrants⟩ := h
  rcases List.mem_append.1 hmem with hbefore | hlast
  · exact .inl ⟨early, who, hbefore, hgrants⟩
  · cases List.mem_singleton.1 hlast
    exact .inr ⟨who, rfl, hgrants⟩

namespace Site

section
variable {store : Store} {faults : Faults} {site : Site} (hreliable : Reliable store faults)
include hreliable

/-- A lease whose revocation has succeeded is gone. -/
theorem not_involves_of_revoked {flight : Flight .revoke} (hmeets : flight.Meets faults)
    (hsound : site.store.Sound)
    (hanswer : (site.receive flight).1 = .ok () ∨
      ∃ number, (site.receive flight).1 = .error (.leaseNotFound number)) :
    ¬ (site.receive flight).2.store.Involves flight.request.revoked := by
  have hrequest : flight.request = .revoke flight.request.revoked := by
    cases flight.request
    rfl
  rcases site.toLink.receive_cases flight with ⟨answer, after, hserve, hafter⟩ | ⟨hsame, hfailed⟩
  · show ¬ (site.toLink.receive flight).2.store.Involves _
    rw [hafter]
    exact Store.not_involves_of_revoke (hrequest ▸ hserve)
  · have herror : ∀ e, (site.receive flight).1 = .error e → ∃ number, e = .leaseNotFound number := by
      intro e he
      rw [he] at hanswer
      rcases hanswer with hdone | ⟨number, hnumber⟩
      · cases hdone
      · exact ⟨number, Except.error.inj hnumber⟩
    show ¬ (site.toLink.receive flight).2.store.Involves _
    rw [hsame]
    rcases hfailed with ⟨e, hserve, he⟩ | ⟨e, hrefused, he⟩ | ⟨answer, hcanned⟩
    · obtain ⟨number, rfl⟩ := herror e he
      exact hsound.not_involves_of_leaseNotFound (hrequest ▸ hserve)
    · obtain ⟨number, rfl⟩ := herror e he
      rcases hmeets with hplain | ⟨fault, hfault, htreatment⟩
      · rw [hplain] at hrefused
        cases hrefused
      · exact absurd (htreatment.trans hrefused) (hreliable.candid fault hfault number)
    · exact absurd hcanned (hmeets.genuine hreliable.revokes answer)

end

section
variable {site mid : Site} {who : Nat} {former next : Progress} (hdeed : site.Deed who former next mid)
include hdeed

theorem Deed.sound (h : site.store.Sound) : mid.store.Sound := by
  obtain ⟨received, hsame, rfl | rfl | ⟨m, flight, answer, -, hserved⟩⟩ := hdeed.served
  · exact h.same hsame
  · exact h.close.same hsame
  · exact (h.served hserved).same hsame

theorem Deed.granted_le : site.store.granted ≤ mid.store.granted := by
  obtain ⟨received, hsame, rfl | rfl | ⟨m, flight, answer, -, hserved⟩⟩ := hdeed.served
  · exact hsame.granted.ge
  · exact hsame.granted.ge
  · exact hserved.granted_le.trans hsame.granted.ge

/-- Nothing but a grant brings a lease up. -/
theorem Deed.involves_cases {lease : LeaseId} (h : mid.store.Involves lease) :
    site.store.Involves lease ∨ lease = ⟨site.store.granted + 1⟩ := by
  obtain ⟨received, hsame, rfl | rfl | ⟨m, flight, answer, -, hserved⟩⟩ := hdeed.served
  · exact .inl (hsame.involves h)
  · exact .inl (Store.involves_of_close (hsame.involves h))
  · exact (hserved.involves_cases (hsame.involves h)).imp_right And.left

/-- What is kept is kept, or its revocation is answered. -/
theorem Deed.keeps (hstanding : site.Standing)
    (hactivity : site.registry.activities[who]? = some ⟨former, false⟩) (hframe : site.Frame mid)
    {lease : LeaseId} (h : site.Keeps lease) :
    (mid.settle who next).Keeps lease ∨
      ∃ flight : Flight .revoke, former.flight? = some ⟨_, flight⟩ ∧
        flight.request.revoked = lease := by
  have hprogress : site.progress? who = some former := progress?_of_activity hactivity
  have hown : ∀ id, next.lease? = some id → (mid.settle who next).Keeps id :=
    fun id hid => .inr ⟨who, next, progress?_settle_self hframe _ hprogress, hid⟩
  rcases h with ⟨current, hactive, rfl⟩ | ⟨other, progress, hmet, hlease⟩
  · left
    rcases hdeed.active_cases with hsame | ⟨same, hsame, hnext, -⟩ | ⟨key, lease, flight, rfl, -⟩
    · exact .inl ⟨current, hsame.trans hactive, rfl⟩
    · rw [hactive] at hsame
      cases hsame
      exact hown _ hnext
    · have hnone := (hstanding.fits who _ hprogress).active_eq rfl
      rw [hactive] at hnone
      cases hnone
  · by_cases hwho : other = who
    · subst hwho
      rw [hprogress] at hmet
      cases hmet
      rcases hdeed.lease_cases hlease with hnext | hactive | hrevoked
      · exact .inl (hown lease hnext)
      · exact .inl (.inl hactive)
      · exact .inr hrevoked
    · exact .inl (.inr ⟨other, progress, progress?_settle_other hframe hwho hmet, hlease⟩)

/-- A lease that is granted is in the hands of the registration from then on. -/
theorem Deed.granted {lease : LeaseId}
    (hactivity : site.registry.activities[who]? = some ⟨former, false⟩)
    (hgrants : site.Grants who lease) :
    next.lease? = some lease ∧ ∃ flight received, former.flight? = some ⟨.grant, flight⟩ ∧
      site.receive flight = (.ok lease, received) ∧ received.store.SameHoldings mid.store := by
  obtain ⟨key, flight, received, hgranting, hreceive⟩ := hgrants
  rw [hactivity] at hgranting
  cases hgranting
  cases hdeed with
  | aside hformer => cases hformer
  | grant hanswer hsend =>
    rw [hreceive] at hanswer
    cases hanswer
    exact ⟨rfl, flight, received, rfl, hreceive, (of_sent hsend).1.store⟩
  | refuse hanswer =>
    rw [hreceive] at hanswer
    cases hanswer

end

section
variable {store after : Store} {move : Move} (h : StoreMoved store move after)
include h

theorem StoreMoved.sound (hsound : store.Sound) : after.Sound := by
  cases h with
  | same hsame hstays => exact hstays hsound
  | served hserved => exact hsound.served hserved
  | closed => exact hsound.close

theorem StoreMoved.granted_le : store.granted ≤ after.granted := by
  cases h with
  | same hsame => exact hsame.granted.ge
  | served hserved => exact hserved.granted_le
  | closed => exact le_rfl

theorem StoreMoved.involves_cases {lease : LeaseId} (hknown : after.Involves lease) :
    store.Involves lease ∨ lease = ⟨store.granted + 1⟩ := by
  cases h with
  | same hsame => exact .inl (hsame.involves hknown)
  | served hserved => exact (hserved.involves_cases hknown).imp_right And.left
  | closed => exact .inl (Store.involves_of_close hknown)

end

section
variable {site after : Site} {move : Move} (hline : site.InLine) (hbacked : site.Backed)
  (hmove : site.after move = some after)
include hline hbacked hmove

/-- The number of granted leases only grows. -/
theorem granted_le_of_after : site.store.granted ≤ after.store.granted := by
  cases hline.course hbacked hmove with
  | deed hactivity hready hdeed hframe => exact hdeed.granted_le
  | calm hcalm => exact hcalm.store.granted_le

/-- A lease that was granted and is gone does not come back. -/
theorem not_involves_of_after {lease : LeaseId} (hnumber : lease.number ≤ site.store.granted)
    (hgone : ¬ site.store.Involves lease) : ¬ after.store.Involves lease := by
  intro hinvolves
  have hnew : lease = ⟨site.store.granted + 1⟩ := by
    cases hline.course hbacked hmove with
    | deed hactivity hready hdeed hframe => exact (hdeed.involves_cases hinvolves).resolve_left hgone
    | calm hcalm => exact (hcalm.store.involves_cases hinvolves).resolve_left hgone
  rw [hnew] at hnumber
  simp only at hnumber
  omega

end

theorem Calm.not_grants {site after : Site} {move : Move} (h : site.Calm move after) {who : Nat}
    {lease : LeaseId} (hmove : move = .step who) : ¬ site.Grants who lease := by
  rintro ⟨key, flight, mid, hactivity, -⟩
  exact h.passes who _ hmove hactivity

/-- What a registry has been granted and the store still knows of is kept by the registry. -/
structure Kept (past : List (Site × Move)) (site : Site) : Prop where
  sound : site.store.Sound
  numbered : ∀ lease, Granted past lease → lease.number ≤ site.store.granted
  kept : ∀ lease, Granted past lease → site.store.Involves lease → site.Keeps lease

theorem Kept.start {store : Store} {config : Config} {dialer : Dialer} {faults : Faults}
    (hsound : store.Sound) : Kept [] (start store config dialer faults) := by
  refine ⟨hsound, ?_, ?_⟩
  · rintro lease ⟨site, who, hmem, -⟩
    cases hmem
  · rintro lease ⟨site, who, hmem, -⟩
    cases hmem

section
variable {store : Store} {faults : Faults} {past : List (Site × Move)} {site after : Site} {move : Move}

/-- A granted lease is the next one. -/
theorem grants_eq (hgrants : faults.Genuine .grant) (hasks : site.AsksLeases faults) {who : Nat}
    {progress : Progress} {flight : Flight .grant} {lease : LeaseId} {received : Site}
    (hprogress : site.progress? who = some progress) (hflight : progress.flight? = some ⟨_, flight⟩)
    (hreceive : site.receive flight = (.ok lease, received)) :
    lease = ⟨site.store.granted + 1⟩ ∧ received.store.granted = site.store.granted + 1 := by
  have hgenuine := (hasks.meets who progress _ flight hprogress hflight).genuine hgrants
  have hserve := serve_of_receive hgenuine hreceive
  cases hrequest : flight.request with
  | grant ttl =>
    rw [hrequest] at hserve
    obtain ⟨hlease, hstore⟩ := Store.of_grant hserve
    exact ⟨hlease, by rw [hstore]⟩

/-- A lease that is not the next one was granted before. -/
theorem Kept.ne_next (h : Kept past site) {lease : LeaseId} (hgranted : Granted past lease) :
    lease ≠ ⟨site.store.granted + 1⟩ := by
  rintro rfl
  have hle := h.numbered _ hgranted
  simp only at hle
  omega

/-- A lease that was granted to the registry has a number that has been given out. -/
theorem Deed.numbered (hreliable : Reliable store faults) (hasks : site.AsksLeases faults) {who : Nat}
    {former next : Progress} {mid : Site}
    (hactivity : site.registry.activities[who]? = some ⟨former, false⟩)
    (hdeed : site.Deed who former next mid)
    (h : ∀ lease, Granted past lease → lease.number ≤ site.store.granted) {lease : LeaseId}
    (hgranted : Granted (past ++ [(site, .step who)]) lease) : lease.number ≤ mid.store.granted := by
  rcases hgranted.of_append with hbefore | ⟨other, hmove, hgrants⟩
  · exact (h lease hbefore).trans (Int.ofNat_le.2 hdeed.granted_le)
  · cases hmove
    obtain ⟨-, flight, received, hflight, hreceive, hsame⟩ := hdeed.granted hactivity hgrants
    obtain ⟨rfl, hnext⟩ := grants_eq hreliable.grants hasks (progress?_of_activity hactivity) hflight hreceive
    rw [hsame.granted, hnext]
    exact le_of_eq (by simp)

/-- Others grant nothing to the registry. -/
theorem Calm.granted_before (hcalm : site.Calm move after) {lease : LeaseId}
    (hlater : Granted (past ++ [(site, move)]) lease) : Granted past lease := by
  rcases hlater.of_append with hbefore | ⟨who, hmove, hgrants⟩
  · exact hbefore
  · exact absurd hgrants (hcalm.not_grants hmove)

theorem Kept.deed (h : Kept past site) (hreliable : Reliable store faults)
    (hasks : site.AsksLeases faults) (hstanding : site.Standing) {who : Nat}
    {former next : Progress} {mid : Site}
    (hactivity : site.registry.activities[who]? = some ⟨former, false⟩)
    (hdeed : site.Deed who former next mid) (hframe : site.Frame mid)
    (hrevoked : RevocationsSucceed (past ++ [(site, .step who)])) :
    Kept (past ++ [(site, .step who)]) (mid.settle who next) := by
  have hprogress : site.progress? who = some former := progress?_of_activity hactivity
  refine ⟨hdeed.sound h.sound,
    fun lease => Deed.numbered hreliable hasks hactivity hdeed h.numbered, ?_⟩
  intro lease hgranted hinvolves
  rcases hgranted.of_append with hbefore | ⟨other, hmove, hgrants⟩
  · have hknown : site.store.Involves lease :=
      (hdeed.involves_cases hinvolves).resolve_right (h.ne_next hbefore)
    rcases hdeed.keeps hstanding hactivity hframe (h.kept lease hbefore hknown) with
      hkeeps | ⟨flight, hflight, rfl⟩
    · exact hkeeps
    · -- the revocation has just been answered, and the store does not know of the lease any more
      have hanswer := hrevoked.answer (by simp) hactivity hflight
      have hgone := not_involves_of_revoked hreliable
        (hasks.meets who former _ flight hprogress hflight) h.sound hanswer
      rcases hdeed.store_cases with ⟨hnone, -⟩ |
        ⟨m, other, answer, received, hother, hreceive, hsame⟩ | ⟨hsealing, -⟩
      · rw [hflight] at hnone
        cases hnone
      · rw [hflight] at hother
        cases hother
        rw [hreceive] at hgone
        exact absurd (hsame.involves hinvolves) hgone
      · rw [hsealing] at hflight
        cases hflight
  · cases hmove
    exact .inr ⟨who, next, progress?_settle_self hframe _ hprogress,
      (hdeed.granted hactivity hgrants).1⟩

/-- What is kept is not affected by what others do. -/
theorem Kept.calm (h : Kept past site) (hcalm : site.Calm move after) :
    Kept (past ++ [(site, move)]) after := by
  refine ⟨hcalm.store.sound h.sound, fun lease hlater => ?_, fun lease hlater hknown => ?_⟩
  · exact (h.numbered lease (hcalm.granted_before hlater)).trans
      (Int.ofNat_le.2 hcalm.store.granted_le)
  · have hgranted := hcalm.granted_before hlater
    rcases h.kept lease hgranted ((hcalm.store.involves_cases hknown).resolve_right
      (h.ne_next hgranted)) with ⟨current, hactive, hlease⟩ | ⟨who, progress, hprogress, hlease⟩
    · exact .inl ⟨current, by rw [hcalm.registrar]; exact hactive, hlease⟩
    · have hat := Progress.isAtRegistrar_of_isHandled
        (Progress.isHandled_of_isPending (Progress.isPending_of_lease? hlease))
      exact .inr ⟨who, progress, (hcalm.engaged who progress
        (Progress.isEngaged_of_isAtRegistrar hat)).2 hprogress, hlease⟩

theorem Kept.moved (h : Kept past site) (hreliable : Reliable store faults)
    (hasks : site.AsksLeases faults) (hstanding : site.Standing) (hline : site.InLine)
    (hbacked : site.Backed) (hmove : site.after move = some after)
    (hrevoked : RevocationsSucceed (past ++ [(site, move)])) : Kept (past ++ [(site, move)]) after := by
  cases hline.course hbacked hmove with
  | deed hactivity hready hdeed hframe =>
    exact h.deed hreliable hasks hstanding hactivity hdeed hframe hrevoked
  | calm hcalm => exact h.calm hcalm

end

end Site

/-- The leases that were granted to a registry have numbers that have been given out. -/
theorem numbered_of_run {store : Store} {config : Config} {dialer : Dialer} {faults : Faults}
    {moves : List Move} {final : Site} (hreliable : Reliable store faults)
    (hrun : (Site.start store config dialer faults).run moves = some final) {lease : LeaseId}
    (hgranted : Granted ((Site.start store config dialer faults).history moves) lease) :
    lease.number ≤ final.store.granted := by
  refine Site.history_induction (P := fun past site => ∀ lease, Granted past lease →
    lease.number ≤ site.store.granted) ?_ ?_ hrun lease hgranted
  · rintro lease ⟨site, who, hmem, -⟩
    cases hmem
  · intro before site move after hbefore ih hmove lease hlater
    obtain ⟨hline, hbacked⟩ := Site.inLine_of_run hbefore
    cases hline.course hbacked hmove with
    | deed hactivity hready hdeed hframe =>
      exact Site.Deed.numbered hreliable (Site.asksLeases_of_run hbefore) hactivity hdeed ih hlater
    | calm hcalm =>
      exact (ih lease (hcalm.granted_before hlater)).trans (Int.ofNat_le.2 hcalm.store.granted_le)

theorem RevocationsSucceed.of_append {past later : List (Site × Move)}
    (h : RevocationsSucceed (past ++ later)) : RevocationsSucceed past :=
  fun entry hmem => h entry (List.mem_append_left _ hmem)

/-- As long as every revocation is carried out, or finds nothing to revoke, the store knows of no lease
that was granted to the registry but of the one that the registry keeps. -/
theorem kept_of_run {store : Store} {config : Config} {dialer : Dialer} {faults : Faults}
    {moves : List Move} {final : Site} (hreliable : Reliable store faults)
    (hrun : (Site.start store config dialer faults).run moves = some final)
    (hrevoked : RevocationsSucceed ((Site.start store config dialer faults).history moves)) :
    Site.Kept ((Site.start store config dialer faults).history moves) final := by
  refine Site.history_induction (P := fun past site => RevocationsSucceed past → Site.Kept past site)
    (fun _ => .start hreliable.sound) ?_ hrun hrevoked
  intro before site move after hbefore ih hmove hsucceed
  obtain ⟨hline, hbacked⟩ := Site.inLine_of_run hbefore
  exact (ih hsucceed.of_append).moved hreliable (Site.asksLeases_of_run hbefore)
    (Site.standing_of_run hbefore) hline hbacked hmove hsucceed

end ServiceRegistry
