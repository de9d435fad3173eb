import ServiceRegistry.Proofs.Registry.Fleet
import ServiceRegistry.Proofs.Registry.Removal

/-!
# What an unregistration takes away

An unregistration asks the store for two things. The revocation is about the lease of the registration
that was taken from the registrar, so it takes away what is attached to this lease and nothing else. The
deletion is about the key, whoever has it by then: another registry of the fleet may have registered the
same instance since, and its key is attached to a lease of its own. So the members of a fleet spare each
other just as long as no deletion finds a key that is not attached to the lease of who deletes it.
-/
namespace ServiceRegistry

/-- What is deleted is gone, if the store carries the deletion out. -/
theorem Link.get?_of_deletes {link : Link} {flight : Flight .delete} {key : String}
    (hrequest : flight.request = .delete key) (hcarries : link.carriesOut flight = true) :
    (link.receive flight).2.store.content.get? key = none := by
  obtain ⟨given, after, hserve, hafter⟩ := receive_of_carriesOut hcarries
  have hserved := Store.served_of_serve hserve
  rw [hrequest] at hserved
  rw [hafter]
  cases hserved with
  | read hreads => cases hreads
  | delete hcontent => exact (hcontent key).trans (if_pos rfl)

namespace Site

/-- What an unregistration has in its hands was taken from the registrar, and the lease was granted to a
registration of the registry. -/
theorem taken_of_run {store : Store} {config : Config} {dialer : Dialer} {faults : Faults}
    {moves : List Move} {site : Site} (hrun : (start store config dialer faults).run moves = some site)
    {who : Nat} {closing : Bool} {stage : Unregistering} {lease : LeaseId}
    (hprogress : site.progress? who = some (.unregistering closing stage))
    (hlease : (Progress.unregistering closing stage).lease? = some lease) :
    ∃ early current, (early, .step who) ∈ (start store config dialer faults).history moves ∧
      early.Takes closing who current ∧ stage.Ends current ∧ current.lease = lease ∧
      Granted ((start store config dialer faults).history moves) lease := by
  refine history_induction (P := fun past site => ∀ who closing stage lease,
    site.progress? who = some (.unregistering closing stage) →
      (Progress.unregistering closing stage).lease? = some lease →
        ∃ early current, (early, .step who) ∈ past ∧ early.Takes closing who current ∧
          stage.Ends current ∧ current.lease = lease ∧ Granted past lease)
    ?_ ?_ hrun who closing stage lease hprogress hlease
  · intro who closing stage lease hprogress
    cases (progress?_start hprogress).2
  · intro before site move after hbefore ih hmove who closing stage lease hprogress hlease
    obtain ⟨hline, hbacked⟩ := inLine_of_run hbefore
    have hearlier : ∀ {early : Site} {other : Nat},
        (early, .step other) ∈ (start store config dialer faults).history before →
          (early, .step other) ∈ (start store config dialer faults).history before ++ [(site, move)] :=
      fun hmem => List.mem_append_left _ hmem
    rcases hline.met hbacked hmove hprogress rfl with hkept | ⟨former, mid, hactivity, hdeed⟩
    · obtain ⟨early, current, hmem, htakes, hends, hsame, hgranted⟩ :=
        ih who closing stage lease hkept hlease
      exact ⟨early, current, hearlier hmem, htakes, hends, hsame,
        hgranted.mono (List.subset_append_left _ _)⟩
    · have hmove : move = .step who := by
        by_contra hother
        have hkept := progress?_of_other hmove hother (progress?_of_activity hactivity)
        rw [hprogress] at hkept
        cases hkept
        cases hdeed with
        | aside hformer => cases hformer
      cases hdeed with
      | aside hformer hnext => cases hnext
      | comeToUnregister | close | lack | revoke => cases hlease
      | remove hactive hsend =>
        cases hlease
        have hconcerns := (standing_of_run hbefore).concerns_of_active hactive
        exact ⟨site, _, by simp [hmove], ⟨hactivity, hactive⟩, ⟨rfl, (of_sent hsend).2.1⟩, rfl,
          (granted_of_concerns hbefore hconcerns).mono (List.subset_append_left _ _)⟩
      | @delete _ taken former flight answer received after hreceive hsend =>
        obtain ⟨early, current, hmem, htakes, ⟨hsame, -⟩, -, hgranted⟩ :=
          ih who closing _ taken (progress?_of_activity hactivity) rfl
        have hrequest : flight.request = .revoke current.lease := by
          rw [(of_sent hsend).2.1, hsame]
        have hhand : current.lease = lease := by
          have hrevoked : flight.request.revoked = lease := Option.some.inj hlease
          rw [← hrevoked, hrequest]
          rfl
        refine ⟨early, current, hearlier hmem, htakes, hrequest, hhand, ?_⟩
        rw [← hhand, ← hsame]
        exact hgranted.mono (List.subset_append_left _ _)

section
variable {site mid : Site} {who : Nat} {closing : Bool} {next : Progress}

/-- An unregistration changes no key but the one that it deletes and those that go with the lease that it
revokes. -/
theorem Deed.removes {stage : Unregistering}
    (h : site.Deed who (.unregistering closing stage) next mid) (key : String) :
    mid.store.content.get? key = site.store.content.get? key ∨
      mid.store.content.get? key = none ∧
        ((∃ lease flight, stage = .deleting lease flight ∧ flight.request = .delete key ∧
            site.toLink.carriesOut flight = true) ∨
          ∃ deleted flight, stage = .revoking deleted flight ∧
            site.store.leaseOf key = some flight.request.revoked) := by
  cases h with
  | aside hformer => cases hformer
  | lack | leaveUnregistered | leaveClosing => exact .inl rfl
  | remove hactive hsend => exact .inl (by rw [(of_sent hsend).1.store.content]; rfl)
  | @delete _ lease former flight answer received mid hreceive hsend =>
    have hreceived : (site.toLink.receive former).2.store = received.store :=
      congrArg (fun result => result.2.store) hreceive
    rw [(of_sent hsend).1.store.content, ← hreceived]
    cases hcarries : site.toLink.carriesOut former with
    | false => exact .inl (by rw [Link.receive_of_not_carriesOut hcarries])
    | true =>
      by_cases hkey : former.request = .delete key
      · exact .inr ⟨Link.get?_of_deletes hkey hcarries, .inl ⟨_, _, rfl, hkey, hcarries⟩⟩
      · obtain ⟨given, after, hserve, hafter⟩ := Link.receive_of_carriesOut hcarries
        rw [hafter]
        rcases (Store.served_of_serve hserve).get?_cases key with hkept | hchanges | ⟨-, lease, hends, -⟩
        · exact .inl hkept
        · exact absurd (Request.eq_of_changes hchanges) hkey
        · cases hrequest : former.request
          rw [hrequest] at hends
          cases hends
  | @revoke _ former deleted answer received hreceive =>
    show received.store.content.get? key = _ ∨ received.store.content.get? key = none ∧ _
    rcases served_of_receive hreceive with hsame | ⟨given, hserved⟩
    · exact .inl (by rw [hsame])
    · rcases hserved.get?_cases key with hkept | hchanges | ⟨hgone, lease, hends, hheld⟩
      · exact .inl hkept
      · cases hrequest : former.request
        rw [hrequest] at hchanges
        cases hchanges
      · exact .inr ⟨hgone, .inr ⟨_, _, rfl, by rw [hheld, Request.revoked_of_ends hends]⟩⟩

end

end Site

namespace Fleet

/-- An activity of a member has taken a registration from the registrar, in order to end it. -/
def Took (first : Fleet) (moves : List Move) (number who : Nat) (current : Active) : Prop :=
  ∃ past later site closing, first.Made moves past (.member number (.step who)) later ∧
    past.site? number = some site ∧ site.Takes closing who current

/-- The lease was granted to a registration of the member. -/
def Grants (first : Fleet) (moves : List Move) (number : Nat) (lease : LeaseId) : Prop :=
  ∃ past later site who, first.Made moves past (.member number (.step who)) later ∧
    past.site? number = some site ∧ site.Grants who lease

end Fleet

/-- A step of an unregistration has nothing in its hands but a registration that was taken from its own
registrar, with a lease that was granted to its own registry. It takes away what is attached to this
lease, whoever else there is, and nothing else unless it is the step that finds its deletion carried out:
then what stood under the key is gone. So the keys that are not attached to the lease are spared just if
there is none under the key that is deleted. -/
theorem unregister_spares_others_iff {store : Store} {moves : List Fleet.Move} {fleet next : Fleet}
    (hrun : (Fleet.start store).run moves = some fleet) {number who : Nat} {site : Site}
    {closing : Bool} {stage : Unregistering} (hsite : fleet.site? number = some site)
    (hprogress : site.progress? who = some (.unregistering closing stage))
    (hmove : fleet.after (.member number (.step who)) = some next) :
    (∀ lease, (Progress.unregistering closing stage).lease? = some lease → ∃ current,
      (Fleet.start store).Took moves number who current ∧ stage.Ends current ∧
        current.lease = lease ∧ (Fleet.start store).Grants moves number lease) ∧
    (∀ key, next.store.content.get? key = fleet.store.content.get? key ∨
      next.store.content.get? key = none ∧
        ((∃ lease flight, stage = .deleting lease flight ∧ flight.request = .delete key) ∨
          ∃ lease, (Progress.unregistering closing stage).lease? = some lease ∧
            fleet.store.leaseOf key = some lease)) ∧
    ((∀ key record, fleet.store.content.get? key = some record →
        next.store.content.get? key = some record ∨
          ∃ lease, (Progress.unregistering closing stage).lease? = some lease ∧
            record.lease = some lease) ↔
      ∀ lease flight key record, stage = .deleting lease flight → flight.request = .delete key →
        site.toLink.carriesOut flight = true → fleet.store.content.get? key = some record →
          record.lease = some lease) := by
  obtain ⟨config, dialer, faults, own, -, hown, hfollows⟩ := Fleet.site_of_run hrun hsite
  obtain ⟨acting, moved, hacting, hstep, rfl⟩ := Fleet.of_after_member hmove
  obtain rfl : acting = site := Option.some.inj (hacting.symm.trans hsite)
  have hactivity := (Site.inLine_of_run hown).2.activity_of_progress? hprogress rfl
  obtain ⟨progress, mid, rfl, hdeed, -⟩ := Site.deed_of_after hactivity hstep
  have hstore := Fleet.store_of_site? hsite
  have hremoves : ∀ key, mid.store.content.get? key = fleet.store.content.get? key ∨
      mid.store.content.get? key = none ∧
        ((∃ lease flight, stage = .deleting lease flight ∧ flight.request = .delete key) ∨
          ∃ lease, (Progress.unregistering closing stage).lease? = some lease ∧
            fleet.store.leaseOf key = some lease) := by
    intro key
    rw [← hstore]
    refine (hdeed.removes key).imp_right fun ⟨hgone, hhow⟩ => ⟨hgone, hhow.imp ?_ ?_⟩
    · rintro ⟨lease, flight, hstage, hrequest, -⟩
      exact ⟨lease, flight, hstage, hrequest⟩
    · rintro ⟨deleted, flight, rfl, hattached⟩
      exact ⟨_, rfl, hattached⟩
  refine ⟨fun lease hlease => ?_, hremoves, fun hspares => ?_, fun hfinds => ?_⟩
  · obtain ⟨early, current, hmem, htakes, hends, hsame, granting, other, hgranting, hgrants⟩ :=
      Site.taken_of_run hown hprogress hlease
    obtain ⟨past, later, hmade, hearly⟩ := hfollows early who hmem
    obtain ⟨before, rest, hmadeBefore, hbefore⟩ := hfollows granting other hgranting
    exact ⟨current, ⟨past, later, early, closing, hmade, hearly, htakes⟩, hends, hsame,
      before, rest, granting, other, hmadeBefore, hbefore, hgrants⟩
  · rintro lease flight key record rfl hrequest hcarries hrecord
    have hgone : mid.store.content.get? key = none := by
      cases hdeed with
      | aside hformer => cases hformer
      | delete hreceive hsend =>
        rw [(Site.of_sent hsend).1.store.content,
          ← congrArg (fun result => result.2.store) hreceive]
        exact Link.get?_of_deletes hrequest hcarries
    rcases hspares key record hrecord with hkept | ⟨held, hheld, hattached⟩
    · exact absurd (hgone.symm.trans hkept) nofun
    · cases hheld
      exact hattached
  · intro key record hrecord
    rcases hdeed.removes key with hsame | ⟨-, hdeleted | hrevoked⟩
    · exact .inl (hsame.trans (hstore ▸ hrecord))
    · obtain ⟨lease, flight, rfl, hrequest, hcarries⟩ := hdeleted
      exact .inr ⟨lease, rfl, hfinds lease flight key record rfl hrequest hcarries hrecord⟩
    · obtain ⟨deleted, flight, rfl, hattached⟩ := hrevoked
      rw [hstore, Store.leaseOf, hrecord] at hattached
      exact .inr ⟨_, rfl, hattached⟩

/-- Both register the same instance, one after the other, and the first one is about to delete it. -/
def beforeDeletion : List Fleet.Move :=
  pair ++ registersAt 0 ++ registersAt 1 ++
    [.member 0 (.call .unregister), .member 0 (.step 3), .member 0 (.step 3)]

/-- The fleet of which the first member is about to delete what the second one has registered. -/
def overtaken : Fleet := ((Fleet.start .empty).run beforeDeletion).get rfl

/-- The key is attached to the lease of the second member, and the first one has its own in its hands. -/
theorem unregister_spares_others_overtaken :
    ∃ site next, (Fleet.start .empty).run beforeDeletion = some overtaken ∧
      overtaken.site? 0 = some site ∧
      site.progress? 3 = some (.unregistering false
        (.deleting ⟨1⟩ ⟨.delete "svc/chat/10.0.0.1:9000", .plain, 0⟩)) ∧
      overtaken.after (.member 0 (.step 3)) = some next ∧
      (Fleet.start .empty).Grants beforeDeletion 0 ⟨1⟩ ∧
      ¬ ∀ key record, overtaken.store.content.get? key = some record →
        next.store.content.get? key = some record ∨
          ∃ lease, (Progress.unregistering false (.deleting ⟨1⟩
            ⟨.delete "svc/chat/10.0.0.1:9000", .plain, 0⟩)).lease? = some lease ∧
              record.lease = some lease := by
  obtain ⟨site, hsite⟩ : ∃ site, overtaken.site? 0 = some site := Option.isSome_iff_exists.1 rfl
  obtain ⟨next, hnext⟩ : ∃ next, overtaken.after (.member 0 (.step 3)) = some next :=
    Option.isSome_iff_exists.1 rfl
  have hprogress : (overtaken.site? 0).bind (fun site => site.progress? 3) =
      some (.unregistering false
        (.deleting ⟨1⟩ ⟨.delete "svc/chat/10.0.0.1:9000", .plain, 0⟩)) := rfl
  have hcarries : (overtaken.site? 0).map (fun site => site.toLink.carriesOut
      (⟨.delete "svc/chat/10.0.0.1:9000", .plain, 0⟩ : Flight .delete)) = some true := rfl
  have hrun : (Fleet.start .empty).run beforeDeletion = some overtaken := (Option.some_get _).symm
  rw [hsite] at hprogress hcarries
  obtain ⟨hown, -, hiff⟩ := unregister_spares_others_iff hrun hsite hprogress hnext
  obtain ⟨current, -, -, -, hgrants⟩ := hown ⟨1⟩ rfl
  refine ⟨site, next, hrun, hsite, hprogress, hnext, hgrants, fun hspares => ?_⟩
  have hattached := hiff.1 hspares ⟨1⟩ _ "svc/chat/10.0.0.1:9000" _ rfl rfl (Option.some.inj hcarries) rfl
  cases hattached

/-- What is left of the unregistration: the answers to both requests, and the return of the call. -/
def untilReturn : List Fleet.Move := List.replicate 3 (.member 0 (.step 3))

/-- The first member has unregistered, and the second one, which is registered and whose lease is live, has
lost its key. -/
theorem unregister_deletes_key_of_another :
    ∃ fleet other, (overtaken.site? 0).bind (fun site => (site.progress? 3).bind Progress.lease?) =
        some ⟨1⟩ ∧
      overtaken.run untilReturn = some fleet ∧ fleet.site? 1 = some other ∧
      overtaken.store.leaseOf "svc/chat/10.0.0.1:9000" = some ⟨2⟩ ∧
      fleet.store.content.get? "svc/chat/10.0.0.1:9000" = none ∧
      fleet.store.isLive ⟨2⟩ = true ∧
      other.registry.registrar.status =
        .registered ⟨⟨"svc", "chat", by decide, by decide⟩, "10.0.0.1:9000"⟩ ⟨2⟩ := by
  obtain ⟨fleet, hfleet⟩ : ∃ fleet, overtaken.run untilReturn = some fleet :=
    Option.isSome_iff_exists.1 rfl
  have hkey : (overtaken.run untilReturn).map (fun fleet =>
      fleet.store.content.get? "svc/chat/10.0.0.1:9000") = some none := rfl
  have hlive : (overtaken.run untilReturn).map (fun fleet => fleet.store.isLive ⟨2⟩) = some true := rfl
  have hstatus : ((overtaken.run untilReturn).bind fun fleet => fleet.site? 1).map
      (fun site => site.registry.registrar.status) = some
        (.registered ⟨⟨"svc", "chat", by decide, by decide⟩, "10.0.0.1:9000"⟩ ⟨2⟩) := rfl
  rw [hfleet] at hkey hlive hstatus
  obtain ⟨other, hother, hregistered⟩ := Option.map_eq_some_iff.1 hstatus
  exact ⟨fleet, other, rfl, hfleet, hother, rfl, Option.some.inj hkey, Option.some.inj hlive, hregistered⟩

end ServiceRegistry
