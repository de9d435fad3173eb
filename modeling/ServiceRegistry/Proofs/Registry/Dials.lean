import ServiceRegistry.Proofs.Registry.Deed

/-!
# What is dialed

A registry dials the instances that a scan of the store has found, all of them at once, and nothing else:
a connection over all instances of a service connects on first use, and no other step concerns an
endpoint. So what a client has dialed is told by the answers that the readings of its registry have got.
-/
namespace ServiceRegistry

/-- The endpoint that is dialed, if the event is a dial. -/
def EndpointEvent.dialed? : EndpointEvent → Option Endpoint
  | .dial endpoint => some endpoint
  | .option _ _ => none

def ClientEvent.dialed? : ClientEvent → Option Endpoint
  | .endpoint event => event.dialed?
  | .request _ | .close => none

/-- The endpoints that a client has dialed, in the order of the dials. -/
def Client.dials (client : Client) : List Endpoint :=
  client.log.reverse.filterMap ClientEvent.dialed?

/-! ## Trails -/

theorem Client.dials_record (client : Client) (event : ClientEvent) :
    (client.record event).dials = client.dials ++ event.dialed?.toList := by
  rw [dials, record, List.reverse_cons, List.filterMap_append, List.filterMap_cons]
  cases event.dialed? <;> rfl

/-- What is recorded of endpoints is dialed so far as it consists of dials. -/
theorem Client.dials_recordAll (client : Client) (trail : List EndpointEvent) :
    (client.recordAll (trail.map .endpoint)).dials =
      client.dials ++ trail.filterMap EndpointEvent.dialed? := by
  unfold recordAll
  induction trail generalizing client with
  | nil => simp
  | cons event trail ih =>
    rw [List.map_cons, List.foldl_cons, ih, dials_record, List.append_assoc]
    cases event <;> rfl

theorem Endpoint.dialed?_of_mem_optionTrail {options : List DialOption} {endpoint : Endpoint}
    {event : EndpointEvent} (h : event ∈ optionTrail options endpoint) : event.dialed? = none := by
  induction options generalizing endpoint with
  | nil => cases h
  | cons option options ih =>
    rcases List.mem_cons.1 h with rfl | hmem
    · rfl
    · exact ih hmem

namespace Dialing

variable (dialing : Dialing)

/-- Nothing is dialed while an endpoint is built. -/
theorem dials_buildTrail (key : EndpointKey) :
    (dialing.buildTrail key).filterMap EndpointEvent.dialed? = [] := by
  refine List.filterMap_eq_nil_iff.2 fun event hmem => ?_
  unfold buildTrail Endpoint.buildTrail at hmem
  split at hmem
  · exact Endpoint.dialed?_of_mem_optionTrail hmem
  · cases hmem

/-- An instance is dialed once if an endpoint can be built for it. -/
theorem dials_dialTrail (key : EndpointKey) :
    (dialing.dialTrail key).filterMap EndpointEvent.dialed? = (dialing.endpoint? key).toList := by
  rw [dialTrail, List.filterMap_append, dials_buildTrail, List.nil_append]
  cases dialing.endpoint? key <;> rfl

theorem dials_flatMap_dialTrail (keys : List EndpointKey) :
    (keys.flatMap dialing.dialTrail).filterMap EndpointEvent.dialed? =
      keys.filterMap dialing.endpoint? := by
  induction keys with
  | nil => rfl
  | cons key keys ih =>
    rw [List.flatMap_cons, List.filterMap_append, ih, dials_dialTrail, List.filterMap_cons]
    cases dialing.endpoint? key <;> rfl

theorem dials_flatMap_buildTrail (keys : List EndpointKey) :
    (keys.flatMap dialing.buildTrail).filterMap EndpointEvent.dialed? = [] := by
  refine List.filterMap_eq_nil_iff.2 fun event hmem => ?_
  obtain ⟨key, -, hevent⟩ := List.mem_flatMap.1 hmem
  exact List.filterMap_eq_nil_iff.1 (dialing.dials_buildTrail key) event hevent

end Dialing

/-! ## Steps -/

namespace Site

/-- What an activity that stands at a point dials in its next step: the instances that its scan finds. -/
def dialsFrom (site : Site) : Progress → List Endpoint
  | .building errand (.scanning stamp flight) =>
    match (site.receive flight).1 with
    | .ok rows => (errand.instances (EndpointKey.ofRows site.registry.config.root rows)).filterMap
        (site.registry.dialing stamp.options site.clock).endpoint?
    | .error _ => []
  | _ => []

theorem dials_of_send {site after : Site} {m : Method} {request : Request m} {flight : Flight m}
    (h : site.send request = (flight, after)) : after.client.dials = site.client.dials := by
  simp [Client.dials, log_of_send h, ClientEvent.dialed?]

theorem dials_of_receive {site mid : Site} {m : Method} {flight : Flight m}
    {answer : Except Error (Answer m)} (h : site.receive flight = (answer, mid)) :
    mid.client.dials = site.client.dials :=
  congrArg Client.dials (client_of_receive h)

/-- What concerns the registration does not concern endpoints. -/
theorem Deed.dials {site mid : Site} {who : Nat} {former next : Progress}
    (h : site.Deed who former next mid) (hformer : former.isAside = false) :
    mid.client.dials = site.client.dials := by
  cases h with
  | aside haside =>
    rw [hformer] at haside
    cases haside
  | begin hactive hsend | replace hactive hlost hsend | remove hactive hsend =>
    exact (dials_of_send hsend :)
  | beginAgain hreceive hsend | grant hreceive hsend | attach hreceive hsend | detach hreceive hsend
  | abandon hreceive hsend | delete hreceive hsend =>
    exact (dials_of_send hsend).trans (dials_of_receive hreceive :)
  | refuse hreceive | register hreceive | giveUp hreceive | revoke hreceive =>
    exact (dials_of_receive hreceive :)
  | shut => exact (Client.dials_record _ _).trans (List.append_nil _)
  | _ => rfl

theorem client_conclude (site : Site) (who : Nat) (errand : Errand) (result : Except Error Listing) :
    (site.conclude who errand result).2.client = site.client := by
  unfold conclude
  split
  · rfl
  · simp only [refreshNext]
    split <;> rfl
  · rfl
  · simp only [listenAfter]
    split <;> rfl
  · simp only [listenAfter]
    split <;> rfl

variable (site : Site) (who : Nat)

theorem dials_stepBuild (errand : Errand) (build : Build) :
    (site.stepBuild who errand build).2.client.dials =
      site.client.dials ++ site.dialsFrom (.building errand build) := by
  cases build with
  | queued =>
    refine Eq.trans ?_ (List.append_nil _).symm
    cases errand with
    | resolve key =>
      simp only [stepBuild]
      split
      · rfl
      · rw [client_conclude]
      · rw [client_conclude]
    | refresh | rebuild => rfl
  | stamping =>
    refine Eq.trans ?_ (List.append_nil _).symm
    simp only [stepBuild]
    split
    · exact dials_of_send rfl
    · rw [client_conclude]
  | scanning stamp flight =>
    simp only [stepBuild, dialsFrom]
    split
    · rename_i rows mid hreceive
      rw [hreceive, registry_of_receive hreceive, ← dials_of_receive hreceive]
      refine (Client.dials_recordAll _ _).trans (congrArg (mid.client.dials ++ ·) ?_)
      exact Dialing.dials_flatMap_dialTrail _ _
    · rename_i e mid hreceive
      rw [hreceive, client_conclude, dials_of_receive hreceive, List.append_nil]
  | dialing stamp reading keys due =>
    refine Eq.trans ?_ (List.append_nil _).symm
    simp only [stepBuild]
    split
    · rename_i hinstall
      obtain ⟨cache, rfl, -⟩ := of_install hinstall
      rw [client_conclude]
      rfl
    · rw [client_conclude]

theorem dials_stepCalling (call : Call) :
    (site.stepCalling who call).2.client.dials = site.client.dials := by
  cases call with
  | register | getConnections =>
    simp only [stepCalling]
    split <;> rfl
  | unregister =>
    simp only [stepCalling]
    split <;> rfl
  | getConnection service options =>
    simp only [stepCalling]
    split
    · rfl
    · rfl
    · exact dials_of_send rfl
  | addOptions | invalidate => rfl
  | close =>
    simp only [stepCalling]
    split <;> rfl

theorem dials_stepLocating (key : ServiceKey) (options : List DialOption)
    (flight : Flight .getPrefix) :
    (site.stepLocating key options flight).2.client.dials = site.client.dials := by
  simp only [stepLocating]
  split
  · rename_i rows mid hreceive
    refine (Client.dials_recordAll _ _).trans ?_
    rw [Dialing.dials_flatMap_buildTrail, List.append_nil]
    exact dials_of_receive hreceive
  · rename_i hreceive
    exact dials_of_receive hreceive

theorem dials_stepFrom (progress : Progress) :
    (site.stepFrom who progress).2.client.dials = site.client.dials ++ site.dialsFrom progress := by
  cases progress with
  | building errand build => exact site.dials_stepBuild who errand build
  | registering | unregistering | renewing | sealing =>
    exact ((site.deed_of_stepFrom who _).dials rfl).trans (List.append_nil _).symm
  | calling call => exact (site.dials_stepCalling who call).trans (List.append_nil _).symm
  | locating key options flight =>
    exact (site.dials_stepLocating key options flight).trans (List.append_nil _).symm
  | looking key =>
    refine Eq.trans ?_ (List.append_nil _).symm
    simp only [stepFrom, stepLooking]
    split <;> rfl
  | starting => exact (dials_of_send rfl).trans (List.append_nil _).symm
  | subscribing flight =>
    refine Eq.trans ?_ (List.append_nil _).symm
    simp only [stepFrom]
    split
    · rename_i hreceive
      exact dials_of_receive hreceive
    · rename_i hreceive
      exact dials_of_receive hreceive
  | listening changes =>
    refine Eq.trans ?_ (List.append_nil _).symm
    simp only [stepFrom, stepListening]
    split <;> rfl
  | discarding changes concern =>
    refine Eq.trans ?_ (List.append_nil _).symm
    simp only [stepFrom, stepDiscarding]
    split
    · rfl
    · split
      · simp only [refreshNext]
        split <;> rfl
      · rfl
  | finished outcome => exact (List.append_nil _).symm

/-- What an activity dials in its next step. -/
def dialsOf (site : Site) (who : Nat) : List Endpoint :=
  match site.registry.activities[who]? with
  | some ⟨progress, false⟩ => site.dialsFrom progress
  | _ => []

/-- A step dials what the activity has found by a scan. -/
theorem dials_step :
    (site.step who).client.dials = site.client.dials ++ site.dialsOf who := by
  unfold step dialsOf
  split
  · rename_i hnone
    rw [hnone, List.append_nil]
  · rename_i activity hactivity
    rw [hactivity]
    obtain ⟨progress, asked⟩ := activity
    cases asked with
    | false =>
      have hgoing : Activity.isDropped ⟨progress, false⟩ = false := rfl
      simp only [hgoing, Bool.false_eq_true, if_false]
      exact site.dials_stepFrom who progress
    | true =>
      refine Eq.trans ?_ (List.append_nil _).symm
      split
      · rfl
      · rename_i hended
        cases progress with
        | finished outcome => rfl
        | _ => exact absurd rfl hended

end Site

end ServiceRegistry
