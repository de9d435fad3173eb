import ServiceRegistry.Proofs.Probe.Turn

/-!
# The root key and the probe that creates it

A probe that has found no root key asks for a lease and writes the key, and looks no more in between. Others
may have put the key meanwhile, and then the probe puts its empty value in the place of theirs and ties the
key to its own short lease. `probe_spares_root_iff` says exactly when this happens.
-/
namespace ServiceRegistry

namespace Store

/-- The lease was granted, with the time-to-live if it is live. -/
def Issued (store : Store) (lease : LeaseId) (ttl : Int) : Prop :=
  lease.number ≤ store.granted ∧ ∀ found, store.ttl? lease = some found → found = ttl

theorem Issued.served {store after : Store} {lease : LeaseId} {ttl : Int} (h : store.Issued lease ttl)
    {m : Method} {request : Request m} {answer : Answer m}
    (hserved : store.Served request answer after) : after.Issued lease ttl := by
  refine ⟨h.1.trans (Int.ofNat_le.2 hserved.granted_le), fun found hfound => ?_⟩
  rcases hserved.ttl?_cases hfound with hbefore | hnew
  · exact h.2 found hbefore
  · have hle := h.1
    rw [hnew] at hle
    simp only at hle
    omega

theorem issued_of_grant {store after : Store} {clock : Nat} {lease : LeaseId} {ttl : Int}
    (h : store.serve clock (.grant ttl) = .ok (lease, after)) : after.Issued lease ttl := by
  obtain ⟨rfl, rfl⟩ := of_grant h
  refine ⟨le_of_eq (by simp), fun found hfound => ?_⟩
  simpa [ttl?, eq_comm] using hfound

/-- A key that is read as none is not there. -/
theorem get?_of_serve_get {store after : Store} {clock : Nat} {key : String}
    (h : store.serve clock (.get key) = .ok (none, after)) :
    store.content.get? key = none ∧ after = store := by
  obtain ⟨row, hget, hrow⟩ := of_map_ok h
  cases hrow
  obtain ⟨-, -, hrow⟩ := of_check_bind hget
  exact ⟨Option.map_eq_none_iff.1 (Except.ok.inj hrow), rfl⟩

/-- Readings and grants leave the content as it is. -/
theorem Served.content_eq {store after : Store} {m : Method} {request : Request m} {answer : Answer m}
    (h : store.Served request answer after) (hspares : m.isReading = true ∨ m = .grant) :
    after.content = store.content := by
  cases h with
  | read hreads hsame => exact hsame.content
  | grant => rfl
  | put | delete | revoke => rcases hspares with hreads | hgrants <;> contradiction

end Store

theorem Link.content_of_receive {link after : Link} {m : Method} {flight : Flight m}
    {answer : Except Error (Answer m)} (h : link.receive flight = (answer, after))
    (hspares : m.isReading = true ∨ m = .grant) : after.store.content = link.store.content := by
  obtain rfl : (link.receive flight).2 = after := congrArg Prod.snd h
  rcases link.served_of_receive flight with hsame | ⟨given, hserved⟩
  · rw [hsame]
  · exact hserved.content_eq hspares

namespace Probe

/-- Whether the probe has found no root key and is about to create it. -/
def isCreating (probe : Probe) : Bool :=
  match probe.stage with
  | .granting _ | .writing _ => true
  | _ => false

/-- A probe that does not wait for its write leaves the content as it is. -/
theorem Turn.content {probe : Probe} {link after : Link} {stage : Stage}
    (h : probe.Turn link stage after) (hwriting : ∀ flight, probe.stage ≠ .writing flight) :
    after.store.content = link.store.content := by
  cases h with
  | begin => rw [Link.store_send]
  | found hstage hreceive | miss hstage hreceive | unread hstage hreceive =>
    exact Link.content_of_receive hreceive (.inl rfl)
  | create hstage hreceive =>
    rw [Link.store_send]
    exact Link.content_of_receive hreceive (.inl rfl)
  | grant hstage hreceive =>
    rw [Link.store_send]
    exact Link.content_of_receive hreceive (.inr rfl)
  | ungranted hstage hreceive => exact Link.content_of_receive hreceive (.inr rfl)
  | write hstage => exact absurd hstage (hwriting _)
  | expire => rfl

end Probe

namespace Probing

variable {link : Link} {root : String} {create : Bool} {limit : Duration} {moves : List Move}
  {probing next : Probing} {move : Move} {faults : Faults}

/-! ## What a step does to the content -/

/-- A step that finds the root key written has put the empty value there, under the lease. -/
theorem Asks.written (h : probing.Asks root create faults) (hmove : probing.after .step = some next)
    {lease : LeaseId} (hwrites : probing.writes? = some lease) :
    probing.store.Served (.put root "" (some lease)) () next.store := by
  obtain ⟨flight, hstage, hrequest, hdue, hcarries⟩ := h.writes?_eq_some.1 hwrites
  cases moved_of_after hmove with
  | @turn stage link hready hturn =>
    rcases hturn.of_writing hstage with ⟨-, answer, -, hreceive⟩ | ⟨hlate, -⟩
    · obtain ⟨given, store, hserve, hstore⟩ := Link.receive_of_carriesOut hcarries
      rw [hreceive] at hstore
      rw [hrequest, ← hstore] at hserve
      exact Store.served_of_serve hserve
    · exact absurd hdue (not_le.2 hlate)

/-- Every other step leaves the content as it is. -/
theorem Asks.unwritten (h : probing.Asks root create faults) (hmove : probing.after .step = some next)
    (hwrites : probing.writes? = none) : next.store.content = probing.store.content := by
  cases moved_of_after hmove with
  | @turn stage link hready hturn =>
    by_cases hwriting : ∃ flight, probing.probe.stage = .writing flight
    · obtain ⟨flight, hstage⟩ := hwriting
      obtain ⟨⟨lease, hrequest⟩, -⟩ := h.writing flight hstage
      rcases hturn.of_writing hstage with ⟨hdue, answer, -, hreceive⟩ | ⟨-, -, rfl⟩
      · have hnot : probing.carriesOut flight = false := by
          by_contra hcarries
          have hsome := h.writes?_eq_some.2 ⟨flight, hstage, hrequest, hdue, by simpa using hcarries⟩
          rw [hwrites] at hsome
          cases hsome
        have hstore := Link.receive_of_not_carriesOut hnot
        rw [hreceive] at hstore
        exact congrArg Store.content hstore
      · rfl
    · exact hturn.content fun flight hstage => hwriting ⟨flight, hstage⟩

/-! ## The lease of the probe and those who put the root key -/

/-- The probe writes with a lease that it was granted, with the time-to-live that it has asked for. -/
theorem issued_of_run (hgenuine : link.client.faults.Genuine .grant)
    (hrun : (start link root create limit).run moves = some probing) {flight : Flight .put}
    {lease : LeaseId} (hstage : probing.probe.stage = .writing flight)
    (hrequest : flight.request = .put root "" (some lease)) :
    probing.store.Issued lease Probe.rootTtlSecs := by
  refine run_induction (P := fun _ probing => ∀ flight lease, probing.probe.stage = .writing flight →
    flight.request = .put root "" (some lease) → probing.store.Issued lease Probe.rootTtlSecs)
    ?_ ?_ hrun flight lease hstage hrequest
  · intro flight lease hstage
    cases hstage
  · intro before mid move next hmid hissued hmove flight lease hstage hrequest
    have hasks := asks_of_run hmid
    cases moved_of_after hmove with
    | turn hready hturn =>
      cases hturn with
      | @grant granting given received hgranting hreceive =>
        obtain ⟨hasked, hmeets⟩ := hasks.granting granting hgranting
        have hserve := Link.serve_of_receive (hmeets.genuine hgenuine) hreceive
        rw [hasked] at hserve
        cases hstage
        rw [Link.request_send] at hrequest
        cases hrequest
        rw [Link.store_send]
        exact Store.issued_of_grant hserve
      | _ => cases hstage
    | served hserve => exact (hissued flight lease hstage hrequest).served (Store.served_of_serve hserve)
    | failed | outage | wait => exact hissued flight lease hstage hrequest
    | closed => exact ⟨(hissued flight lease hstage hrequest).1, nofun⟩

/-- Another client has put the record under the root key after the probe had found none there. -/
def PutSince (first : Probing) (moves : List Move) (root : String) (record : Record) : Prop :=
  ∃ before later mid, moves = before ++ .request (.put root record.value record.lease) :: later ∧
    first.run before = some mid ∧ mid.probe.isCreating = true ∧
    (mid.store.serve mid.clock (.put root record.value record.lease)).isOk = true

theorem PutSince.append {first : Probing} {record : Record} (h : first.PutSince moves root record)
    (move : Move) : first.PutSince (moves ++ [move]) root record := by
  obtain ⟨before, later, mid, rfl, hrest⟩ := h
  exact ⟨before, later ++ [move], mid, by simp, hrest⟩

/-- While a probe is about to create the root key, what stands there was put by others meanwhile. -/
theorem putSince_of_run (hgenuine : link.client.faults.Genuine .get)
    (hrun : (start link root create limit).run moves = some probing)
    (hcreating : probing.probe.isCreating = true) {record : Record}
    (hrecord : probing.store.content.get? root = some record) :
    (start link root create limit).PutSince moves root record := by
  refine run_induction (P := fun past probing => probing.probe.isCreating = true →
    ∀ record, probing.store.content.get? root = some record →
      (start link root create limit).PutSince past root record) ?_ ?_ hrun hcreating record hrecord
  · intro hcreating
    cases hcreating
  · intro before mid move next hmid hput hmove hcreating record hrecord
    have hasks := asks_of_run hmid
    cases moved_of_after hmove with
    | @turn stage after hready hturn =>
      cases hturn with
      | @create flight received hreading hreceive =>
        -- the key is not there
        obtain ⟨hasked, hmeets⟩ := hasks.reading flight hreading
        have hserve := Link.serve_of_receive (hmeets.genuine hgenuine) hreceive
        rw [hasked] at hserve
        obtain ⟨hnone, hsame⟩ := Store.get?_of_serve_get hserve
        rw [Link.store_send, hsame, hnone] at hrecord
        cases hrecord
      | @grant flight lease received hgranting hreceive =>
        have hcontent := (Probe.Turn.grant hgranting hreceive).content fun writing hwriting => by
          rw [hgranting] at hwriting
          cases hwriting
        rw [hcontent] at hrecord
        exact (hput (by rw [Probe.isCreating, hgranting]) record hrecord).append _
      | _ => cases hcreating
    | @served m request answer store hserve =>
      have hbefore : mid.store.content.get? root = some record →
          (start link root create limit).PutSince (before ++ [.request request]) root record :=
        fun hbefore => (hput hcreating record hbefore).append _
      cases Store.served_of_serve hserve with
      | read hreads hsame => exact hbefore (hsame.content ▸ hrecord)
      | @put key value lease _ hlive hcontent =>
        rw [hcontent] at hrecord
        by_cases hkey : root = key
        · subst hkey
          rw [if_pos rfl] at hrecord
          cases hrecord
          exact ⟨before, [], mid, rfl, hmid, hcreating, by rw [hserve]; rfl⟩
        · exact hbefore (by rwa [if_neg hkey] at hrecord)
      | delete hcontent =>
        rw [hcontent] at hrecord
        split at hrecord
        · cases hrecord
        · exact hbefore hrecord
      | grant => exact hbefore hrecord
      | revoke hcontent =>
        rw [hcontent] at hrecord
        exact hbefore (Option.filter_eq_some_iff.1 hrecord).1
    | failed | outage | closed | wait => exact (hput hcreating record hrecord).append _

end Probing

/-- A step of a probe leaves what stands under the root key as it is just if it does not find its write
carried out over a record other than the one that it writes. Only the step that finds its write carried out
changes the content, and nothing but the root key: there the empty value stands from then on, tied to a
lease that the probe was granted for ten seconds. Whatever stood there before was put by another client
after the probe had found no root key. -/
theorem probe_spares_root_iff {link : Link} {root : String} {create : Bool} {limit : Duration}
    {moves : List Probing.Move} {probing next : Probing}
    (hrun : (Probing.start link root create limit).run moves = some probing)
    (hstep : probing.after .step = some next) :
    ((∀ record, probing.store.content.get? root = some record →
        next.store.content.get? root = some record) ↔
      ∀ lease record, probing.writes? = some lease →
        probing.store.content.get? root = some record → record = ⟨"", some lease⟩) ∧
    (probing.writes? = none → next.store.content = probing.store.content) ∧
    ∀ lease, probing.writes? = some lease →
      (∀ key, next.store.content.get? key =
        if key = root then some ⟨"", some lease⟩ else probing.store.content.get? key) ∧
      (link.client.faults.Genuine .grant → next.store.ttl? lease = some 10) ∧
      (link.client.faults.Genuine .get → ∀ record, probing.store.content.get? root = some record →
        (Probing.start link root create limit).PutSince moves root record) := by
  have hasks := Probing.asks_of_run hrun
  have hwritten : ∀ lease, probing.writes? = some lease → ∀ key, next.store.content.get? key =
      if key = root then some ⟨"", some lease⟩ else probing.store.content.get? key := by
    intro lease hwrites
    cases hasks.written hstep hwrites with
    | read hreads => cases hreads
    | put hlive hcontent => exact hcontent
  refine ⟨⟨fun hspares lease record hwrites hrecord => ?_, fun hown record hrecord => ?_⟩,
    hasks.unwritten hstep, fun lease hwrites => ⟨hwritten lease hwrites, fun hgenuine => ?_,
      fun hgenuine record hrecord => ?_⟩⟩
  · have hkept := hspares record hrecord
    rw [hwritten lease hwrites, if_pos rfl] at hkept
    exact (Option.some.inj hkept).symm
  · cases hwrites : probing.writes? with
    | none => rwa [hasks.unwritten hstep hwrites]
    | some lease => rw [hwritten lease hwrites, if_pos rfl, hown lease record hwrites hrecord]
  · obtain ⟨flight, hstage, hrequest, -⟩ := hasks.writes?_eq_some.1 hwrites
    have hissued := Probing.issued_of_run hgenuine hrun hstage hrequest
    cases hasks.written hstep hwrites with
    | read hreads => cases hreads
    | put hlive hcontent hleases =>
      obtain ⟨ttl, httl⟩ := Option.isSome_iff_exists.1 (hlive lease rfl)
      rw [Store.ttl?, hleases]
      rw [hissued.2 ttl httl] at httl
      exact httl
  · obtain ⟨flight, hstage, -⟩ := hasks.writes?_eq_some.1 hwrites
    exact Probing.putSince_of_run hgenuine hrun (by rw [Probe.isCreating, hstage]) hrecord

/-- A client that has just begun at an empty store. -/
def freshLink : Link := ⟨0, .empty, .fresh⟩

/-- A probe finds no root key and has a lease granted, and another client puts the key. -/
def overtakenProbe : List Probing.Move :=
  [.step, .step, .step, .request (.put "svc" "mine" none)]

/-- The probe puts its empty value in the place of that of the other client, and reports no error. When its
lease ends, the root key goes. -/
theorem probe_replaces_root :
    ∃ probing next last,
      (Probing.start freshLink "svc" true (Duration.ofSecs 10)).run overtakenProbe = some probing ∧
      probing.store.content.get? "svc" = some ⟨"mine", none⟩ ∧
      probing.after .step = some next ∧ next.probe.result? = some (.ok ()) ∧
      next.store.content.get? "svc" = some ⟨"", some ⟨1⟩⟩ ∧ next.store.ttl? ⟨1⟩ = some 10 ∧
      next.after (.request (.revoke ⟨1⟩)) = some last ∧ last.store.content.get? "svc" = none := by
  refine ⟨((Probing.start freshLink "svc" true (Duration.ofSecs 10)).run overtakenProbe).get rfl,
    _, _, (Option.some_get _).symm, rfl, rfl, rfl, rfl, rfl, rfl, rfl⟩

/-- What the probe replaces was put after it had found no root key, and the step does not spare it. -/
theorem probe_spares_root_overtaken :
    ∃ probing next,
      (Probing.start freshLink "svc" true (Duration.ofSecs 10)).run overtakenProbe = some probing ∧
      probing.after .step = some next ∧
      (Probing.start freshLink "svc" true (Duration.ofSecs 10)).PutSince overtakenProbe "svc"
        ⟨"mine", none⟩ ∧
      ¬ ∀ record, probing.store.content.get? "svc" = some record →
        next.store.content.get? "svc" = some record := by
  have hrun : (Probing.start freshLink "svc" true (Duration.ofSecs 10)).run overtakenProbe = some
      (((Probing.start freshLink "svc" true (Duration.ofSecs 10)).run overtakenProbe).get rfl) :=
    (Option.some_get _).symm
  obtain ⟨hspares, -, hwrites⟩ := probe_spares_root_iff hrun rfl
  refine ⟨_, _, hrun, rfl, (hwrites ⟨1⟩ rfl).2.2 (Faults.genuine_none _) _ rfl, fun hkept => ?_⟩
  exact absurd (hspares.1 hkept ⟨1⟩ ⟨"mine", none⟩ rfl rfl) (by decide)

end ServiceRegistry
