import ServiceRegistry.Proofs.Registry.Dials
import ServiceRegistry.Proofs.Registry.History

/-!
# What a registry asks of its store

Requests come from a few places only, and what each of them asks follows from the configuration: which
directory is read and followed, for how long a lease is granted, what is stored under the key of an
instance and how often its lease is renewed. `Config.Asks` has one rule for each kind of request, and
`asks_of_run` says that the log of a registry holds no other one, whatever its store answers.
-/
namespace ServiceRegistry

/-- A call can name the instance to a registry with the configuration. -/
def Config.Names (config : Config) (key : EndpointKey) : Prop :=
  ∃ service host port, EndpointKey.make config.root service host port = .ok key

/-- What a registry with a configuration asks of its store. -/
inductive Config.Asks (config : Config) : {m : Method} → Request m → Prop
  | readRoot : config.Asks (.getPrefix config.directory)
  | readService (key : ServiceKey) : config.Asks (.getPrefix key.directory)
  | follow : config.Asks (.watch config.directory)
  | grant : config.Asks (.grant config.leaseTtlSecs)
  | attach {key : EndpointKey} (lease : LeaseId) (hnamed : config.Names key) :
      config.Asks (.put key.text key.descriptor (some lease))
  | renew (lease : LeaseId) :
      config.Asks (.keepAlive lease (Config.renewalInterval config.leaseTtlSecs))
  | detach (key : EndpointKey) : config.Asks (.delete key.text)
  | revoke (lease : LeaseId) : config.Asks (.revoke lease)

/-- A request that a registry with the configuration makes, or anything else that a client does. -/
def ClientEvent.Suits (config : Config) : ClientEvent → Prop
  | .request asked => config.Asks asked
  | .close | .endpoint _ => True

namespace Site

/-- Whatever the client has done from the first site to the second suits the configuration. -/
def DoesWithin (config : Config) (before after : Site) : Prop :=
  ∀ event ∈ after.client.log, event ∈ before.client.log ∨ event.Suits config

section
variable {config : Config} {site mid after : Site} {m : Method}

namespace DoesWithin

theorem of_client (h : after.client = site.client) : DoesWithin config site after :=
  fun _ hmem => .inl (h ▸ hmem)

theorem trans (h : DoesWithin config site mid) (h' : DoesWithin config mid after) :
    DoesWithin config site after :=
  fun event hmem => (h' event hmem).elim (h event) .inr

/-- One request is sent. -/
theorem of_send {request : Request m} {flight : Flight m} (h : mid.send request = (flight, after))
    (hclient : mid.client = site.client) (hasks : config.Asks request) :
    DoesWithin config site after := by
  intro event hmem
  rw [log_of_send h, hclient] at hmem
  rcases List.mem_cons.1 hmem with rfl | hbefore
  · exact .inr hasks
  · exact .inl hbefore

theorem of_receive {flight : Flight m} {answer : Except Error (Answer m)}
    (h : site.receive flight = (answer, after)) : DoesWithin config site after :=
  of_client (client_of_receive h)

theorem recordTrail (trail : List EndpointEvent) : DoesWithin config site (site.recordTrail trail) := by
  suffices hlog : ∀ (client : Client) (trail : List EndpointEvent),
      ∀ event ∈ (client.recordAll (trail.map .endpoint)).log,
        event ∈ client.log ∨ event.Suits config from hlog site.client trail
  intro client trail
  induction trail generalizing client with
  | nil => exact fun _ hmem => .inl hmem
  | cons first rest ih =>
    intro event hmem
    rcases ih (client.record (.endpoint first)) event hmem with hbefore | hsuits
    · rcases List.mem_cons.1 hbefore with rfl | hbefore
      · exact .inr trivial
      · exact .inl hbefore
    · exact .inr hsuits

end DoesWithin

end

/-! ## Steps -/

variable (site : Site) (who : Nat)

theorem doesWithin_stepBuild (errand : Errand) (build : Build) :
    DoesWithin site.registry.config site (site.stepBuild who errand build).2 := by
  cases build with
  | queued =>
    cases errand with
    | resolve key =>
      simp only [stepBuild]
      split
      · exact .of_client rfl
      · exact .of_client (client_conclude _ _ _ _)
      · exact .of_client (client_conclude _ _ _ _)
    | refresh | rebuild => exact .of_client rfl
  | stamping =>
    simp only [stepBuild]
    split
    · refine .of_send rfl rfl ?_
      cases errand with
      | refresh key => exact .readService key
      | resolve | rebuild => exact .readRoot
    · exact .of_client (client_conclude _ _ _ _)
  | scanning stamp flight =>
    simp only [stepBuild]
    split
    · rename_i rows mid hreceive
      exact (DoesWithin.of_receive hreceive).trans (.recordTrail _)
    · rename_i e mid hreceive
      exact (DoesWithin.of_receive hreceive).trans (.of_client (client_conclude _ _ _ _))
  | dialing stamp reading keys due =>
    simp only [stepBuild]
    split
    · rename_i hinstall
      obtain ⟨cache, rfl, -⟩ := of_install hinstall
      exact .of_client (client_conclude _ _ _ _)
    · exact .of_client (client_conclude _ _ _ _)

theorem doesWithin_startGranting (key : EndpointKey) :
    DoesWithin site.registry.config site (site.startGranting key).2 :=
  DoesWithin.of_send rfl rfl .grant

theorem doesWithin_stepRegistering {key : EndpointKey}
    (hnamed : site.registry.config.Names key) (stage : Registering) :
    DoesWithin site.registry.config site (site.stepRegistering key stage).2 := by
  cases stage with
  | queued =>
    simp only [stepRegistering]
    split
    · exact site.doesWithin_startGranting key
    · split
      · exact DoesWithin.of_send rfl rfl (.revoke _)
      · exact .of_client rfl
  | replacing flight =>
    exact (DoesWithin.of_receive rfl).trans (doesWithin_startGranting _ key)
  | granting flight =>
    simp only [stepRegistering]
    split
    · rename_i lease mid hreceive
      exact (DoesWithin.of_receive hreceive).trans (.of_send rfl rfl (.attach lease hnamed))
    · rename_i hreceive
      exact (DoesWithin.of_receive hreceive).trans (.of_client rfl)
  | attaching lease flight =>
    simp only [stepRegistering]
    split
    · rename_i mid hreceive
      refine (DoesWithin.of_receive hreceive).trans (.of_send rfl rfl ?_)
      rw [registry_of_receive hreceive]
      exact .renew lease
    · rename_i hreceive
      exact (DoesWithin.of_receive hreceive).trans (.of_send rfl rfl (.revoke lease))
  | opening lease flight =>
    simp only [stepRegistering]
    split
    · rename_i hreceive
      exact (DoesWithin.of_receive hreceive).trans (.of_client rfl)
    · rename_i hreceive
      exact (DoesWithin.of_receive hreceive).trans (.of_send rfl rfl (.revoke lease))
  | abandoning cause flight => exact (DoesWithin.of_receive rfl).trans (.of_client rfl)
  | leaving outcome => exact .of_client rfl

theorem doesWithin_stepUnregistering (closing : Bool) (stage : Unregistering) :
    DoesWithin site.registry.config site (site.stepUnregistering closing stage).2 := by
  cases stage with
  | queued =>
    simp only [stepUnregistering]
    split
    · exact .of_client rfl
    · exact DoesWithin.of_send rfl rfl (.detach _)
  | deleting lease flight =>
    exact (DoesWithin.of_receive rfl).trans (.of_send rfl rfl (.revoke lease))
  | revoking deleted flight => exact (DoesWithin.of_receive rfl).trans (.of_client rfl)
  | leaving outcome => exact .of_client rfl

theorem doesWithin_stepCalling (call : Call) :
    DoesWithin site.registry.config site (site.stepCalling who call).2 := by
  cases call with
  | register | getConnections =>
    simp only [stepCalling]
    split <;> exact .of_client rfl
  | unregister =>
    simp only [stepCalling]
    split <;> exact .of_client rfl
  | getConnection service options =>
    simp only [stepCalling]
    split
    · exact .of_client rfl
    · exact .of_client rfl
    · exact .of_send rfl rfl (.readService _)
  | addOptions | invalidate => exact .of_client rfl
  | close =>
    simp only [stepCalling]
    split <;> exact .of_client rfl

theorem doesWithin_stepFrom {progress : Progress}
    (hnamed : ∀ key stage, progress = .registering key stage → site.registry.config.Names key) :
    DoesWithin site.registry.config site (site.stepFrom who progress).2 := by
  cases progress with
  | calling call => exact site.doesWithin_stepCalling who call
  | looking key =>
    simp only [stepFrom, stepLooking]
    split <;> exact .of_client rfl
  | building errand build => exact site.doesWithin_stepBuild who errand build
  | locating key options flight =>
    simp only [stepFrom, stepLocating]
    split
    · rename_i hreceive
      exact (DoesWithin.of_receive hreceive).trans (.recordTrail _)
    · rename_i hreceive
      exact .of_receive hreceive
  | registering key stage => exact site.doesWithin_stepRegistering (hnamed key stage rfl) stage
  | unregistering closing stage => exact site.doesWithin_stepUnregistering closing stage
  | sealing =>
    intro event hmem
    rcases List.mem_cons.1 hmem with rfl | hbefore
    · exact .inr trivial
    · exact .inl hbefore
  | starting => exact .of_send rfl rfl .follow
  | subscribing flight =>
    simp only [stepFrom]
    split
    · rename_i hreceive
      exact .of_receive hreceive
    · rename_i hreceive
      exact .of_receive hreceive
  | listening changes =>
    simp only [stepFrom, stepListening]
    split <;> exact .of_client rfl
  | discarding changes concern =>
    simp only [stepFrom, stepDiscarding]
    split
    · exact .of_client rfl
    · split
      · simp only [refreshNext]
        split <;> exact .of_client rfl
      · exact .of_client rfl
  | renewing key lease renewals =>
    simp only [stepFrom, stepRenewing]
    split
    · exact .of_client rfl
    · exact .of_client rfl
    · split <;> exact .of_client rfl
    · exact .of_client rfl
    · exact .of_client rfl
  | finished outcome => exact .of_client rfl

/-! ## Runs -/

theorem names_of_stepCalling {call : Call} {key : EndpointKey} {stage : Registering}
    (h : (site.stepCalling who call).1 = .registering key stage) : site.registry.config.Names key := by
  cases call with
  | register service host port =>
    simp only [stepCalling] at h
    split at h
    · cases h
    · cases h
    · rename_i hmake
      cases h
      exact ⟨service, host, port, hmake⟩
  | unregister | getConnections | getConnection | close =>
    simp only [stepCalling] at h
    split at h <;> cases h
  | addOptions | invalidate => cases h

/-- A registration is of an instance that its call has named. -/
theorem registering_of_stepFrom {progress : Progress} {key : EndpointKey} {stage : Registering}
    (h : (site.stepFrom who progress).1 = .registering key stage) :
    site.registry.config.Names key ∨ ∃ former, progress = .registering key former := by
  have hdeed := site.deed_of_stepFrom who progress
  rw [h] at hdeed
  generalize (site.stepFrom who progress).2 = mid at hdeed
  cases hdeed with
  | aside hformer hnext => cases hnext
  | comeToRegister hopen => exact .inl (site.names_of_stepCalling who h)
  | _ => exact .inr ⟨_, rfl⟩

/-- Whatever the registry has asked its store suits its configuration, and so does whatever its
registrations are about. -/
structure AsksWithin (site : Site) (config : Config) : Prop where
  config_eq : site.registry.config = config
  named : ∀ who key stage, site.progress? who = some (.registering key stage) → config.Names key
  suits : ∀ event ∈ site.client.log, event.Suits config

variable {site}

namespace AsksWithin

variable {config : Config} {who}

/-- An activity has been moved on, and what was done in between suits the configuration. -/
theorem turned {mid : Site} {next : Progress} (h : site.AsksWithin config) (hframe : site.Frame mid)
    (hdone : DoesWithin config site mid)
    (hnext : ∀ key stage, next = .registering key stage → config.Names key) :
    (mid.settle who next).AsksWithin config where
  config_eq := hframe.config.trans h.config_eq
  named other key stage hprogress := by
    rcases progress?_turned hframe hprogress with ⟨-, hsame⟩ | ⟨-, hbefore | hbegins⟩
    · exact hnext key stage hsame.symm
    · exact h.named other key stage hbefore
    · cases hbegins
  suits event hmem := (hdone event hmem).elim (h.suits event) id

theorem stepped {progress : Progress} (h : site.AsksWithin config)
    (hactivity : site.registry.activities[who]? = some ⟨progress, false⟩) :
    (site.step who).AsksWithin config := by
  have hprogress : site.progress? who = some progress := progress?_of_activity hactivity
  rw [step_of_activity hactivity]
  have hnamed : ∀ key stage, progress = .registering key stage → config.Names key := by
    rintro key stage rfl
    exact h.named who key stage hprogress
  refine h.turned (site.frame_stepFrom who progress) ?_ ?_
  · rw [← h.config_eq]
    exact site.doesWithin_stepFrom who (h.config_eq ▸ hnamed)
  · intro key stage hnext
    rcases site.registering_of_stepFrom who hnext with hnames | ⟨former, rfl⟩
    · exact h.config_eq ▸ hnames
    · exact hnamed key former rfl

/-- Another client, a new call or the passing of time has the registry ask nothing. -/
theorem calm {move : Move} {after : Site} (h : site.AsksWithin config) (hmove : ∀ who, move ≠ .step who)
    (hafter : site.after move = some after) : after.AsksWithin config where
  config_eq := (precedes_of_after hafter).config.trans h.config_eq
  named who key stage hprogress := by
    rcases (moved_of_after hafter).progress_cases hprogress with
      ⟨-, hbefore | hbegins⟩ | ⟨activity, mid, hstep, -⟩
    · exact h.named who key stage hbefore
    · cases hbegins
    · exact absurd hstep (hmove who)
  suits := by
    have hclient : after.client = site.client := by
      cases acted_of_after hafter with
      | deed => exact absurd rfl (hmove _)
      | drop => exact absurd rfl (hmove _)
      | call | request | closeStore => rfl
      | outside _ _ _ hclient => exact hclient
    rw [hclient]
    exact h.suits

theorem moved {move : Move} {after : Site} (h : site.AsksWithin config)
    (hafter : site.after move = some after) : after.AsksWithin config := by
  cases move with
  | step who =>
    obtain ⟨hready, rfl⟩ := of_after_step hafter
    obtain ⟨⟨progress, asked⟩, hactivity, hgoing⟩ := of_canStep hready
    cases asked with
    | false => exact h.stepped hactivity
    | true =>
      rw [step_of_dropped hready hactivity, drop_eq]
      exact h.turned (site.frame_leaveLocks who) (.of_client rfl) fun _ _ hnext => by cases hnext
  | call | request | outage | closeStore | wait => exact h.calm (fun _ hstep => by cases hstep) hafter

end AsksWithin

theorem asksWithin_start (store : Store) (config : Config) (dialer : Dialer) (faults : Faults) :
    (start store config dialer faults).AsksWithin config where
  config_eq := rfl
  named who key stage hprogress := by
    rcases who with _ | who <;> cases hprogress
  suits event hmem := by cases hmem

/-- The log of a registry holds only what its configuration asks for, whatever the store answers. -/
theorem asks_of_run {store : Store} {config : Config} {dialer : Dialer} {faults : Faults}
    {moves : List Move} {final : Site}
    (hrun : (start store config dialer faults).run moves = some final) {m : Method}
    {request : Request m} (hmem : .request request ∈ final.client.log) : config.Asks request :=
  (run_induction (P := fun site => site.AsksWithin config) (asksWithin_start store config dialer faults)
    (fun _ _ _ h hafter => h.moved hafter) hrun).suits _ hmem

end Site

end ServiceRegistry
