import ServiceRegistry.Proofs.Registry.Closing
import ServiceRegistry.Proofs.Registry.Handling

/-!
# Readers of a closed cache

Whoever reads the store into the cache stands in the line in front of the gate until it is done. A closed
cache turns every reader away: who stands at the gate when it closes is let through, gets no further than
to the end of its own reading, and makes room for the next one. So the line empties, and every caller in
it is told of an error.
-/
namespace ServiceRegistry

/-- How many steps a reader has left at most that has come to the head of the line and finds the cache
closed. -/
def Build.left : Build → Nat
  | .queued | .scanning _ _ => 2
  | .stamping | .dialing _ _ _ _ => 1

namespace Site

/-! ## The line in front of the gate -/

/-- A turn leaves the gate as it is and who wants to read where it was, or comes to the gate, or leaves it,
or leaves it and comes to it again for the next service. -/
theorem Turn.gate_cases {site mid : Site} {who : Nat} {activity : Activity} {next : Progress}
    (h : site.Turn who activity next mid) :
    mid.registry.gate = site.registry.gate ∧ next.isBuilding = activity.progress.isBuilding ∨
      mid.registry.gate = site.registry.gate.enter who ∧ activity.progress.isBuilding = false ∧
        next.isBuilding = true ∨
      (mid.registry.gate = site.registry.gate.release ∧ next.isBuilding = false ∨
          mid.registry.gate = site.registry.gate.release.enter who ∧ next.isBuilding = true) ∧
        (∃ errand build, activity = ⟨.building errand build, false⟩) ∨
      mid.registry.gate = site.registry.gate.leave who ∧ next.isBuilding = false := by
  have hinstalled : ∀ {errand stamp reading keys listing after},
      site.install errand stamp reading keys = .ok (listing, after) →
        after.releaseGate.registry.gate = site.registry.gate.release := by
    intro errand stamp reading keys listing after hinstall
    obtain ⟨cache, rfl, -⟩ := of_install hinstall
    rfl
  cases h with
  | quiet hnext hlisting hcache hgate =>
    have hapart : next.isBuilding = false := by
      cases next with
      | building => cases hnext
      | _ => rfl
    rcases hgate with ⟨hgate, hformer⟩ | ⟨hbuilding, hgate⟩ | hgate
    · exact .inl ⟨hgate, hapart.trans hformer.symm⟩
    · exact .inr (.inr (.inl ⟨.inl ⟨hgate, hapart⟩, hbuilding⟩))
    · exact .inr (.inr (.inr ⟨hgate, hapart⟩))
  | close hcache hgate => exact .inl ⟨hgate, rfl⟩
  | miss => exact .inr (.inl ⟨rfl, rfl, rfl⟩)
  | found => exact .inr (.inr (.inl ⟨.inl ⟨rfl, rfl⟩, _, _, rfl⟩))
  | advance hadvance => exact .inl ⟨congrArg Registry.gate hadvance.registry, rfl⟩
  | fail hreceive =>
    have hgate := congrArg Lock.release (sameCache_receive hreceive).2
    exact .inr (.inr (.inl ⟨.inl ⟨hgate, rfl⟩, _, _, rfl⟩))
  | resolve hinstall | rebuild hinstall =>
    exact .inr (.inr (.inl ⟨.inl ⟨hinstalled hinstall, rfl⟩, _, _, rfl⟩))
  | refresh hinstall hnext =>
    cases hnext with
    | listen => exact .inr (.inr (.inl ⟨.inl ⟨hinstalled hinstall, rfl⟩, _, _, rfl⟩))
    | refresh =>
      have hgate := congrArg (Lock.enter · who) (hinstalled hinstall)
      exact .inr (.inr (.inl ⟨.inr ⟨hgate, rfl⟩, _, _, rfl⟩))
  | start hsend => exact .inl ⟨congrArg Registry.gate (registry_of_send hsend), rfl⟩
  | subscribe hreceive => exact .inl ⟨congrArg Registry.gate (registry_of_receive hreceive), rfl⟩
  | relay hfilled hnext =>
    cases hnext with
    | listen => exact .inl ⟨rfl, rfl⟩
    | refresh => exact .inr (.inl ⟨rfl, rfl, rfl⟩)
  | relayAll => exact .inr (.inl ⟨rfl, rfl, rfl⟩)
  | invalidate | addOptions | hit | pass | take | discard => exact .inl ⟨rfl, rfl⟩

theorem not_isBuilding_of_isBeginning {progress : Progress} (h : progress.isBeginning = true) :
    progress.isBuilding = false := by
  cases progress with
  | calling | renewing => rfl
  | _ => cases h

/-- Those who stand in line in front of the gate are just those who want to read. -/
theorem queues_moved {site after : Site} {move : Move}
    (h : site.registry.gate.Queues (site.Stands Progress.isBuilding)) (horderly : site.Orderly)
    (hmove : site.after move = some after) :
    after.registry.gate.Queues (after.Stands Progress.isBuilding) := by
  cases moved_of_after hmove with
  | @turn who activity next mid hactivity hready hturn hframe =>
    have hprogress := progress?_of_activity hactivity
    have hwas := stands_iff Progress.isBuilding hprogress
    have hown := stands_iff Progress.isBuilding
      (progress?_settle_self hframe next hprogress)
    have hothers : ∀ other, other ≠ who → ((mid.settle who next).Stands Progress.isBuilding other ↔
        site.Stands Progress.isBuilding other) :=
      fun other => stands_settle_other hframe fun _ => not_isBuilding_of_isBeginning
    rw [gate_settle]
    rcases hturn.gate_cases with ⟨hgate, hstays⟩ | ⟨hgate, hnot, hcomes⟩ |
      ⟨hleaves, errand, build, rfl⟩ | ⟨hgate, hleaves⟩
    · rw [hgate]
      exact h.congr (stands_settle hframe (fun _ => not_isBuilding_of_isBeginning) hprogress hstays)
    · rw [hgate]
      refine h.enter hothers ?_ (hown.2 hcomes)
      rw [hwas, hnot]
      exact Bool.false_ne_true
    · have hrelease := Lock.leave_of_holder? (horderly.holder? hready hactivity)
      rcases hleaves with ⟨hgate, hleaves⟩ | ⟨hgate, hcomes⟩
      · rw [hgate, ← hrelease]
        refine h.leave hothers ?_
        rw [hown, hleaves]
        exact Bool.false_ne_true
      · rw [hgate, ← hrelease]
        have hleft : (site.registry.gate.leave who).Queues fun other =>
            other ≠ who ∧ site.Stands Progress.isBuilding other :=
          h.leave (fun other hne => ⟨And.right, fun hstands => ⟨hne, hstands⟩⟩)
            fun hself => hself.1 rfl
        exact hleft.enter (fun other hne => (hothers other hne).trans
          ⟨fun hstands => ⟨hne, hstands⟩, And.right⟩) (fun hself => hself.1 rfl) (hown.2 hcomes)
    · rw [hgate]
      refine h.leave hothers ?_
      rw [hown, hleaves]
      exact Bool.false_ne_true
  | calm hother hcache hgate hframe =>
    rw [hgate]
    refine h.congr fun who => ⟨?_, ?_⟩
    · rintro ⟨progress, hprogress, hbuilding⟩
      rcases hframe.begun who progress hprogress with hbefore | ⟨-, hbegins⟩
      · exact ⟨progress, hbefore, hbuilding⟩
      · rw [not_isBuilding_of_isBeginning hbegins] at hbuilding
        cases hbuilding
    · rintro ⟨progress, hprogress, hbuilding⟩
      exact ⟨progress, progress?_of_other hmove (hother who) hprogress, hbuilding⟩

theorem queues_of_run {store : Store} {config : Config} {dialer : Dialer} {faults : Faults}
    {moves : List Move} {site : Site}
    (hrun : (start store config dialer faults).run moves = some site) :
    site.registry.gate.Queues (site.Stands Progress.isBuilding) := by
  refine history_induction
    (P := fun _ site => site.registry.gate.Queues (site.Stands Progress.isBuilding)) ?_ ?_ hrun
  · refine ⟨.nil, fun who => ⟨nofun, ?_⟩⟩
    rintro ⟨progress, hprogress, hbuilding⟩
    cases (progress?_start hprogress).2
    cases hbuilding
  · exact fun before mid move after hbefore ih hmove =>
      queues_moved ih (orderly_of_run hbefore) hmove

/-! ## What a closed cache does to readers -/

/-- A site with a closed cache, from which the readers go one by one. -/
structure Draining (site : Site) : Prop where
  emptied : site.registry.cache.Sealed
  queues : site.registry.gate.Queues (site.Stands Progress.isBuilding)
  orderly : site.Orderly
  backed : site.Backed

theorem Draining.moved {site after : Site} {move : Move} (h : site.Draining)
    (hmove : site.after move = some after) : after.Draining :=
  ⟨(moved_of_after hmove).isSealed h.emptied, queues_moved h.queues h.orderly hmove,
    h.orderly.moved (moved_of_after hmove), h.backed.moved hmove⟩

theorem Draining.run {site later : Site} {moves : List Move} (h : site.Draining)
    (hrun : site.run moves = some later) : later.Draining :=
  run_induction h (fun _ _ _ hsite hmove => hsite.moved hmove) hrun

/-- A reading that fails leaves the gate, and its caller is told of the failure. -/
theorem conclude_error (site : Site) (who : Nat) (errand : Errand) (e : Error) :
    (site.conclude who errand (.error e)).2 = site.releaseGate ∧
      (site.conclude who errand (.error e)).1.isBuilding = false ∧
      ∀ key, errand = .resolve key →
        (site.conclude who errand (.error e)).1 = .finished (.error e) := by
  cases errand with
  | resolve key => exact ⟨rfl, rfl, fun _ _ => rfl⟩
  | refresh | rebuild =>
    simp only [conclude, listenAfter]
    split <;> exact ⟨rfl, rfl, fun key herrand => by cases herrand⟩

theorem install_of_closed {site : Site} (h : site.registry.cache.closed = true) (errand : Errand)
    (stamp : Stamp) (reading : Reading) (keys : List EndpointKey) :
    site.install errand stamp reading keys = .error .closed := by
  cases errand with
  | resolve key | rebuild changes =>
    simp only [install, Cache.install, h, if_true]
    rfl
  | refresh key rest changes =>
    simp only [install, Cache.replace, h, if_true]
    rfl

/-- What a reader of a closed cache comes to, and the site then: it goes on and has less left to do, or it
leaves the gate, and its caller is told of an error. -/
structure TurnedAway (site : Site) (errand : Errand) (build : Build) (result : Progress × Site) :
    Prop where
  goes : result.1.isBuilding = true → ∃ later, result.1 = .building errand later ∧
    later.left < build.left ∧ result.2.registry = site.registry
  leaves : result.1.isBuilding = false → result.2.registry.gate = site.registry.gate.release
  told : ∀ key, errand = .resolve key → result.1.isBuilding = false →
    ∃ e, result.1 = .finished (.error e)

theorem TurnedAway.of_going {site after : Site} {errand : Errand} {build later : Build}
    (hless : later.left < build.left) (hregistry : after.registry = site.registry) :
    site.TurnedAway errand build (.building errand later, after) :=
  ⟨fun _ => ⟨later, rfl, hless, hregistry⟩, nofun, nofun⟩

theorem TurnedAway.of_conclude {site mid : Site} {who : Nat} {errand : Errand} {build : Build}
    {e : Error} (hregistry : mid.registry = site.registry) :
    site.TurnedAway errand build (mid.conclude who errand (.error e)) := by
  obtain ⟨hsite, hnot, htold⟩ := mid.conclude_error who errand e
  refine ⟨fun hbuilding => ?_, fun _ => ?_, fun key hkey _ => ⟨e, htold key hkey⟩⟩
  · rw [hnot] at hbuilding
    cases hbuilding
  · rw [hsite, releaseGate, mapRegistry, hregistry]

theorem turnedAway_stepBuild {site : Site} (h : site.registry.cache.closed = true) (who : Nat)
    (errand : Errand) (build : Build) :
    site.TurnedAway errand build (site.stepBuild who errand build) := by
  cases build with
  | queued =>
    cases errand with
    | resolve key =>
      simp only [stepBuild, Cache.lookup, h, if_true]
      exact .of_conclude rfl
    | refresh | rebuild => exact .of_going (Nat.lt_succ_self _) rfl
  | stamping =>
    simp only [stepBuild, Cache.stamp, h, if_true]
    exact .of_conclude rfl
  | scanning stamp flight =>
    simp only [stepBuild]
    split
    · rename_i hreceive
      have hregistry := registry_of_receive hreceive
      exact .of_going (Nat.lt_succ_self _) hregistry
    · rename_i hreceive
      exact .of_conclude (registry_of_receive hreceive)
  | dialing stamp reading keys due =>
    simp only [stepBuild, install_of_closed h]
    exact .of_conclude rfl

/-- Who is at the head of the line in front of the gate waits for nothing but an answer or a dial. -/
theorem dueFrom_of_gate_head {site : Site} {who : Nat} (errand : Errand) (build : Build)
    (hholder : site.registry.gate.holder? = some who) :
    (∃ time, site.dueFrom who (.building errand build) = some time) ∧
      ∀ clock, Site.dueFrom { site with clock := clock } who (.building errand build) =
        site.dueFrom who (.building errand build) := by
  cases build with
  | queued => exact ⟨⟨0, if_pos hholder⟩, fun _ => rfl⟩
  | stamping | scanning | dialing => exact ⟨⟨_, rfl⟩, fun _ => rfl⟩

/-- The head of the line takes its next step after the answer or the dials that it waits for. -/
theorem head_steps {site : Site} {who : Nat} {errand : Errand} {build : Build}
    (hholder : site.registry.gate.holder? = some who)
    (hactivity : site.registry.activities[who]? = some ⟨.building errand build, false⟩) :
    ∃ time result, Site.stepBuild { site with clock := site.clock + time } who errand build = result ∧
      site.run [.wait time, .step who] = some (result.2.settle who result.1) ∧
      (result.2.settle who result.1).progress? who = some result.1 := by
  obtain ⟨⟨time, hdue⟩, hlater⟩ := dueFrom_of_gate_head errand build hholder
  let there : Site := { site with clock := site.clock + time }
  have hframe : there.Frame (there.stepBuild who errand build).2 :=
    there.frame_stepFrom who (.building errand build)
  exact ⟨time, there.stepBuild who errand build, rfl, run_wait_step hactivity hdue hlater,
    progress?_settle_self hframe _ (progress?_of_activity hactivity)⟩

/-- The head of the line leaves the gate of a closed cache if it is given the time, and its caller is
told of an error. -/
theorem Draining.head_leaves {site : Site} (h : site.Draining) {who : Nat} {errand : Errand}
    {build : Build} (hholder : site.registry.gate.holder? = some who)
    (hactivity : site.registry.activities[who]? = some ⟨.building errand build, false⟩) :
    ∃ moves later, site.run moves = some later ∧ (∀ other, other ≠ who → Move.step other ∉ moves) ∧
      later.registry.gate = site.registry.gate.release ∧
      ∀ key, errand = .resolve key → ∃ e, later.progress? who = some (.finished (.error e)) := by
  induction hleft : build.left using Nat.strong_induction_on generalizing site build with
  | _ left ih =>
    subst hleft
    obtain ⟨time, result, hresult, hrun, hown⟩ := head_steps hholder hactivity
    have haway : site.TurnedAway errand build result := by
      let there : Site := { site with clock := site.clock + time }
      have hclosed : there.registry.cache.closed = true := h.emptied.closed
      obtain ⟨hgoes, hleaves, htold⟩ := hresult ▸ turnedAway_stepBuild hclosed who errand build
      exact ⟨hgoes, hleaves, htold⟩
    have hothers : ∀ other, other ≠ who → Move.step other ∉ [.wait time, .step who] :=
      fun other => not_mem_wait_step
    cases hbuilding : result.1.isBuilding with
    | false =>
      refine ⟨_, _, hrun, hothers, haway.leaves hbuilding, fun key hkey => ?_⟩
      obtain ⟨e, he⟩ := haway.told key hkey hbuilding
      exact ⟨e, hown.trans (congrArg some he)⟩
    | true =>
      obtain ⟨further, hfurther, hless, hregistry⟩ := haway.goes hbuilding
      have hgate : (result.2.settle who result.1).registry.gate = site.registry.gate := by
        rw [gate_settle, hregistry]
      have hthere : (result.2.settle who result.1).registry.activities[who]? =
          some ⟨.building errand further, false⟩ := by
        simp [settle, mapRegistry, Registry.move, hregistry, hactivity, hfurther]
      obtain ⟨moves, later, hrest, hmoves, hleaves, htold⟩ :=
        ih further.left hless (h.run hrun) (hgate ▸ hholder) hthere rfl
      refine ⟨[.wait time, .step who] ++ moves, later, ?_, fun other hne hmem => ?_, ?_, htold⟩
      · rw [run_append, hrun, Option.bind_some, hrest]
      · exact (List.mem_append.1 hmem).elim (hothers other hne) (hmoves other hne)
      · rw [hleaves, hgate]

/-- Who was asked to end leaves the gate at once. -/
theorem asked_leaves {site : Site} {who : Nat} {errand : Errand} {build : Build}
    (hholder : site.registry.gate.holder? = some who)
    (hactivity : site.registry.activities[who]? = some ⟨.building errand build, true⟩) :
    site.canStep who = true ∧ (site.step who).registry.gate = site.registry.gate.release := by
  obtain ⟨hready, hstep⟩ := step_of_asked hactivity nofun
  exact ⟨hready, hstep ▸ Lock.leave_of_holder? hholder⟩

/-- Every caller in the line in front of the gate of a closed cache can be told of an error. -/
theorem Draining.reader_told {site : Site} (h : site.Draining) {who : Nat} {key : ServiceKey}
    {build : Build} (hprogress : site.progress? who = some (.building (.resolve key) build)) :
    ∃ moves later e, site.run moves = some later ∧
      later.progress? who = some (.finished (.error e)) := by
  have hleaves : ∀ (there : Site) (head : Nat) (met : Progress), there.Draining →
      there.registry.gate.holder? = some head → there.progress? head = some met →
      met.isBuilding = true → ∃ moves later, there.run moves = some later ∧ later.Draining ∧
        (∀ other, other ≠ head → Move.step other ∉ moves) ∧
        later.registry.gate = there.registry.gate.release := by
    intro there head progress hthere hhead hmet hbuilding
    obtain ⟨⟨met, asked⟩, hactivity, rfl⟩ := Option.map_eq_some_iff.1 hmet
    cases met with
    | building errand found =>
      cases asked with
      | false =>
        obtain ⟨moves, later, hrun, hmoves, hrelease, -⟩ := hthere.head_leaves hhead hactivity
        exact ⟨moves, later, hrun, hthere.run hrun, hmoves, hrelease⟩
      | true =>
        obtain ⟨hready, hrelease⟩ := asked_leaves hhead hactivity
        refine ⟨[.step head], _, run_step hready, hthere.run (run_step hready),
          fun other hother hmem => ?_, hrelease⟩
        cases List.mem_singleton.1 hmem
        exact hother rfl
    | _ => cases hbuilding
  obtain ⟨moves, later, hrun, hlater, hholder, hstays⟩ := comes_to_head
    (fun site => site.registry.gate) Progress.isBuilding Draining
    (fun _ hsite => hsite.queues) hleaves h hprogress rfl
  obtain ⟨further, last, hrest, -, -, htold⟩ :=
    hlater.head_leaves hholder (hlater.backed.activity_of_progress? hstays rfl)
  obtain ⟨e, he⟩ := htold key rfl
  exact ⟨moves ++ further, last, e, by rw [run_append, hrun]; exact hrest, he⟩

end Site

end ServiceRegistry
