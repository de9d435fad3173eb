import ServiceRegistry.Proofs.Registry.Agreement
import ServiceRegistry.Proofs.Registry.Guard

/-!
# Live and cached resolution agree

A caller who wants one connection over all instances of a service reads the directory of the service and
builds the endpoints itself; one who wants a connection to each instance is served from a reading of the
root. `Locates` follows the first of them to the answer of the store. If no dial is refused and both have
the same options, the endpoints of the one connection are those of the others, in their order. All that the
call has from the cache are its options, and it leaves the cache alone.
-/
namespace ServiceRegistry

/-! ## Endpoints of dialed instances -/

namespace Dialing

variable {dialing : Dialing}

/-- A dialer that never refuses connects to every instance whose endpoint can be built. -/
theorem connect?_of_accepts
    (haccepts : ∀ endpoint, dialing.dialer.accepts dialing.time endpoint = true) (key : EndpointKey) :
    dialing.connect? key =
      (dialing.endpoint? key).map fun endpoint => ⟨key.address, [endpoint]⟩ := by
  unfold connect?
  cases dialing.endpoint? key with
  | none => rfl
  | some endpoint => simp [haccepts]

theorem flatMap_endpoints
    (haccepts : ∀ endpoint, dialing.dialer.accepts dialing.time endpoint = true)
    (keys : List EndpointKey) :
    (keys.filterMap dialing.connect?).flatMap (·.endpoints) = keys.filterMap dialing.endpoint? := by
  induction keys with
  | nil => rfl
  | cons key keys ih =>
    cases hkey : dialing.endpoint? key with
    | none => simp [connect?_of_accepts haccepts, hkey, ← ih]
    | some endpoint => simp [connect?_of_accepts haccepts, hkey, ← ih]

/-- A connection over all instances has the endpoints of the connections to each of them. -/
theorem balanced_eq (dialing other : Dialing)
    (haccepts : ∀ endpoint, other.dialer.accepts other.time endpoint = true)
    (htimeout : other.connectTimeout = dialing.connectTimeout) (hoptions : other.options = dialing.options)
    (keys : List EndpointKey) (service : ServiceKey) :
    dialing.balanced keys service =
      if other.connections keys service = [] then .error (.noEndpoints service.text)
      else .ok ⟨Connection.balancedTarget service,
        (other.connections keys service).flatMap (·.endpoints)⟩ := by
  have hsame : dialing.endpoint? = other.endpoint? := by
    funext key
    rw [endpoint?, endpoint?, htimeout, hoptions]
  rw [balanced, hsame, ← flatMap_endpoints haccepts, ← connections]
  cases hconnections : other.connections keys service with
  | nil => rfl
  | cons connection rest =>
    have hone : ∃ endpoint, connection.endpoints = [endpoint] := by
      have hmem : connection ∈ other.connections keys service := by simp [hconnections]
      obtain ⟨key, -, hdial⟩ := List.mem_filterMap.1 hmem
      obtain ⟨endpoint, -, -, rfl⟩ := connect?_eq_some_iff.1 hdial
      exact ⟨endpoint, rfl⟩
    obtain ⟨endpoint, hendpoint⟩ := hone
    simp [hendpoint]

end Dialing

namespace Site

/-! ## A call from its beginning to the answer of the store -/

/-- A call for one connection, made of an open registry, from its first step to the site at which the store
answers it. -/
structure Locates (who : Nat) (service : String) (extra : List DialOption) (key : ServiceKey)
    (first scan : Site) : Prop where
  begins : first.registry.activities[who]? = some ⟨.calling (.getConnection service extra), false⟩
  opened : first.registry.closed = false
  valid : ServiceKey.make first.registry.config.root service = .ok key
  asks : (first.send (.getPrefix key.directory)).1.treatment = .plain
  waits : first.StepsTo who scan
  answers : scan.store.check = .ok ()
  ready : scan.canStep who = true

namespace Locates

variable {who : Nat} {service : String} {extra : List DialOption} {key : ServiceKey}
  {first scan : Site}

theorem stepFrom_calling (h : Locates who service extra key first scan) :
    first.stepFrom who (.calling (.getConnection service extra)) =
      (.locating key (first.registry.cache.options ++ extra) (first.send (.getPrefix key.directory)).1,
        (first.send (.getPrefix key.directory)).2) := by
  have hensure : first.registry.ensureOpen = .ok () := by
    simp only [Registry.ensureOpen, h.opened, Bool.false_eq_true, if_false]
  simp only [stepFrom, stepCalling, hensure, h.valid]

/-- Where the store answers, its answer is awaited, with the options of the beginning. -/
theorem locating (h : Locates who service extra key first scan) : ∃ flight,
    scan.registry.activities[who]? =
      some ⟨.locating key (first.registry.cache.options ++ extra) flight, false⟩ ∧
    flight.treatment = .plain ∧ flight.request = .getPrefix key.directory := by
  have hactivity := h.waits.activity h.begins
  rw [h.stepFrom_calling] at hactivity
  exact ⟨_, hactivity, h.asks, Link.request_send _ _⟩

/-- The call comes to a connection over all instances that stood in the store. -/
theorem answered (h : Locates who service extra key first scan) :
    (scan.step who).progress? who = some (.finished
      (((first.registry.dialing (first.registry.cache.options ++ extra) scan.clock).balanced
        (scan.store.instances first.registry.config.root key) key).map .connection)) := by
  obtain ⟨flight, hactivity, hplain, hrequest⟩ := h.locating
  obtain ⟨mid, hreceive, hregistry⟩ := receive_rows hplain hrequest h.answers
  have hconfig := h.waits.precedes.config
  have hkeys : key.instances (EndpointKey.ofRows first.registry.config.root
      (scan.store.rows key.directory)) = scan.store.instances first.registry.config.root key :=
    Store.instances_rows _ fun text found hparse hservice =>
      hservice ▸ EndpointKey.startsWith_directory_of_parse hparse
  have hclock : mid.clock = scan.clock := by
    have hsame : (scan.receive flight).2.clock = scan.clock := scan.toLink.clock_receive flight
    rwa [hreceive] at hsame
  have hdialing : scan.registry.dialing (first.registry.cache.options ++ extra) mid.clock =
      first.registry.dialing (first.registry.cache.options ++ extra) scan.clock := by
    rw [hclock, Registry.dialing, Registry.dialing, hconfig, h.waits.precedes.dialer]
  rw [progress?_step hactivity]
  simp only [stepFrom, stepLocating, hreceive, hregistry, hdialing]
  rw [hconfig, hkeys]
  rfl

/-- The beginning of the call reads the options of the cache and nothing else of it. -/
theorem step_withCache_calling (h : Locates who service extra key first scan) {cache : Cache}
    (hoptions : cache.options = first.registry.cache.options) :
    (first.withCache cache).step who = (first.step who).withCache cache := by
  have h' : (first.withCache cache).stepFrom who (.calling (.getConnection service extra)) =
      ((first.stepFrom who (.calling (.getConnection service extra))).1,
        (first.stepFrom who (.calling (.getConnection service extra))).2.withCache cache) := by
    have hensure : first.registry.ensureOpen = .ok () := by
      simp only [Registry.ensureOpen, h.opened, Bool.false_eq_true, if_false]
    have hopen : (first.withCache cache).registry.ensureOpen = first.registry.ensureOpen := rfl
    have hconfig : (first.withCache cache).registry.config = first.registry.config := rfl
    have hcache : (first.withCache cache).registry.cache.options = first.registry.cache.options :=
      hoptions
    simp only [stepFrom, stepCalling, hopen, hensure, hconfig, h.valid, hcache]
    rfl
  have hactivity : (first.withCache cache).registry.activities[who]? =
      some ⟨.calling (.getConnection service extra), false⟩ := h.begins
  rw [step_of_activity hactivity, step_of_activity h.begins, h']
  rfl

/-- The end of the call reads nothing of the cache. -/
theorem step_withCache_locating (h : Locates who service extra key first scan) (cache : Cache) :
    (scan.withCache cache).step who = (scan.step who).withCache cache := by
  obtain ⟨flight, hactivity, -⟩ := h.locating
  refine step_withCache ?_ cache
  simp only [access?, hactivity]
  rfl

end Locates

/-- A call for one connection and a call through the cache agree on the instances of a service. If the first
has been given the options that the second has from the cache, behind those that both have, and no dial of
the second is refused, the first fails for want of endpoints just if the second is handed no connection, and
otherwise comes to one connection with all endpoints of the others in their order, to each of which the limit
of the configuration, the common options and its own ones were applied. Neither of its steps depends on
anything but the options of the cache or changes anything of it. -/
theorem live_agrees_with_cached {who caller : Nat} {service : String} {extra : List DialOption}
    {key : ServiceKey} {first scan first' scan' last' : Site}
    (hlive : Locates who service extra key first scan)
    (hcached : Fetch caller (.resolve key) first' scan' last')
    (hroot : first'.registry.config.root = first.registry.config.root)
    (htimeout : first'.registry.config.connectTimeout = first.registry.config.connectTimeout)
    (hoptions : first'.registry.cache.options = first.registry.cache.options ++ extra)
    (haccepts : ∀ endpoint, first'.registry.dialer.accepts scan'.clock endpoint = true)
    (hkeys : ∀ text found, EndpointKey.parse first.registry.config.root text = .ok found →
      found.service = key → (text ∈ scan'.store.keys ↔ text ∈ scan.store.keys)) :
    ∃ reading connections,
      (last'.step caller).progress? caller =
        some (.finished (.ok (.connections ⟨reading, connections⟩))) ∧
      ((scan.step who).progress? who = some (.finished (.error (.noEndpoints
          (first.registry.config.root ++ "/" ++ service)))) ↔ connections = []) ∧
      (connections ≠ [] → (scan.step who).progress? who = some (.finished (.ok (.connection
        ⟨"etcd:///" ++ (first.registry.config.root ++ "/" ++ service),
          connections.flatMap (·.endpoints)⟩)))) ∧
      (∀ connection ∈ connections, ∃ uri, Uri.ofAddress connection.target = .ok uri ∧
        connection.endpoints = [extra.foldl (fun endpoint option => option.apply endpoint)
          (first.registry.cache.options.foldl (fun endpoint option => option.apply endpoint)
            ⟨uri, first.registry.config.connectTimeout, []⟩)]) ∧
      (∀ cache, cache.options = first.registry.cache.options →
        (first.withCache cache).step who = (first.step who).withCache cache) ∧
      (∀ cache, (scan.withCache cache).step who = (scan.step who).withCache cache) ∧
      (first.step who).registry.cache = first.registry.cache ∧
      (scan.step who).registry.cache = scan.registry.cache := by
  have hinstances : scan'.store.instances first.registry.config.root key =
      scan.store.instances first.registry.config.root key := Store.instances_eq hkeys
  have htext : key.text = first.registry.config.root ++ "/" ++ service := by
    obtain ⟨hkeyRoot, hname⟩ := ServiceKey.make_eq_ok_iff.1 hlive.valid
    rw [ServiceKey.text, hkeyRoot, hname]
  have hlisted : first'.connectionsOf scan'.store scan'.clock key =
      (first'.registry.dialing first'.registry.cache.options scan'.clock).connections
        (scan.store.instances first.registry.config.root key) key := by
    rw [connectionsOf, Dialing.connections, hroot, hinstances, Store.instances,
      ServiceKey.instances_instances]
  -- The answer of the call for one connection, in terms of the connections to each instance.
  have hanswered := hlive.answered
  rw [Dialing.balanced_eq (first.registry.dialing (first.registry.cache.options ++ extra) scan.clock)
    (first'.registry.dialing first'.registry.cache.options scan'.clock) haccepts htimeout hoptions,
    ← hlisted, Connection.balancedTarget, htext] at hanswered
  refine ⟨_, _, hcached.handed, ⟨fun hfails => ?_, fun hnone => ?_⟩, fun hsome => ?_,
    fun connection hmem => ?_, fun cache => hlive.step_withCache_calling, hlive.step_withCache_locating,
    ?_, ?_⟩
  · by_contra hsome
    rw [hanswered, if_neg hsome] at hfails
    cases hfails
  · rw [hanswered, if_pos hnone]
    rfl
  · rw [hanswered, if_neg hsome]
    rfl
  · obtain ⟨found, -, hdial⟩ := List.mem_filterMap.1 hmem
    obtain ⟨endpoint, hbuild, -, rfl⟩ := Dialing.connect?_eq_some_iff.1 hdial
    obtain ⟨uri, huri, rfl⟩ := Endpoint.build_eq_ok_iff.1 hbuild
    refine ⟨uri, huri, congrArg (fun endpoint => [endpoint]) ?_⟩
    rw [← htimeout]
    exact (congrArg (Endpoint.applyAll · _) hoptions).trans (Endpoint.applyAll_append _ _ _)
  · exact congrArg (fun site => site.registry.cache) (hlive.step_withCache_calling rfl)
  · exact congrArg (fun site => site.registry.cache) (hlive.step_withCache_locating scan.registry.cache)

/-- Options that both calls have. -/
def common : List DialOption := [.limiting "limit" (.ofSecs 1), .setting "keep" "keep-alive" "on"]

/-- Options that the call for one connection brings along. One of them undoes a common one. -/
def own : List DialOption := [.setting "drop" "keep-alive" "off", .setting "calls" "timeout" "5s"]

/-- An endpoint with all of these options. The limit is that of the option and not of the configuration. -/
def tuned (authority : String) : Endpoint :=
  ⟨⟨authority, "", none⟩, some (.ofSecs 1), [("timeout", "5s"), ("keep-alive", "off")]⟩

/-- A registry that allows three seconds for connecting, at a crowded store. -/
def hasty : Site :=
  start crowd ((Config.make "svc" []).withConnectTimeout (.ofSecs 3)) .onFirstUse .none

/-- Somebody is about to call for one connection, in a registry with the common options. -/
def aboutToLocate : Site :=
  (hasty.run [.call (.addOptions common), .step 1, .call (.getConnection "chat" own)]).get rfl

/-- Somebody is about to read the root, in a registry with all options. -/
def aboutToFill : Site :=
  (hasty.run [.call (.addOptions (common ++ own)), .step 1, .call (.getConnections "chat"), .step 2,
    .step 2, .step 2]).get rfl

theorem live_agrees_with_cached_in_crowd :
    let chat : ServiceKey := ⟨"svc", "chat", by decide, by decide⟩
    ∃ reading connections,
      Locates 2 "chat" own chat aboutToLocate (aboutToLocate.step 2) ∧
      Fetch 2 (.resolve chat) aboutToFill (aboutToFill.step 2) ((aboutToFill.step 2).step 2) ∧
      (((aboutToFill.step 2).step 2).step 2).progress? 2 =
        some (.finished (.ok (.connections ⟨reading, connections⟩))) ∧
      connections = [⟨"a:1", [tuned "a:1"]⟩, ⟨"d:4", [tuned "d:4"]⟩] ∧
      ((aboutToLocate.step 2).step 2).progress? 2 = some (.finished (.ok (.connection
        ⟨"etcd:///" ++ ("svc" ++ "/" ++ "chat"), [tuned "a:1", tuned "d:4"]⟩))) := by
  intro chat
  have hlive : Locates 2 "chat" own chat aboutToLocate (aboutToLocate.step 2) :=
    ⟨rfl, rfl, rfl, rfl, .at_once rfl rfl, rfl, rfl⟩
  have hcached : Fetch 2 (.resolve chat) aboutToFill (aboutToFill.step 2)
      ((aboutToFill.step 2).step 2) :=
    ⟨rfl, rfl, rfl, .at_once rfl rfl, rfl, .at_once rfl rfl, rfl, rfl⟩
  have hkeys : (aboutToFill.step 2).store.keys = (aboutToLocate.step 2).store.keys := rfl
  obtain ⟨reading, connections, hhanded, -, hconnection, -⟩ := live_agrees_with_cached hlive hcached rfl rfl
    rfl (fun _ => rfl) fun text found hparse hservice => by rw [hkeys]
  have hfound : ((((aboutToFill.step 2).step 2).step 2).progress? 2).bind (fun progress =>
      progress.listing?.map (·.connections)) =
        some [⟨"a:1", [tuned "a:1"]⟩, ⟨"d:4", [tuned "d:4"]⟩] := rfl
  rw [hhanded] at hfound
  obtain rfl : connections = _ := Option.some.inj hfound
  exact ⟨reading, _, hlive, hcached, hhanded, rfl, hconnection (List.cons_ne_nil _ _)⟩

end Site

end ServiceRegistry
