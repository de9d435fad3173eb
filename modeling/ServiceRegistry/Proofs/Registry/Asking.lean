import ServiceRegistry.Proofs.Registry.Provenance

/-!
# What the store is asked

A reading asks the store for the rows of a directory and the watcher asks it for the changes of one.
As long as no fault answers in place of the store, what they get is the store's own answer: the rows
that stand in it at that moment, in a scan that the store counts, and the subscription to what it
publishes from then on.
-/
namespace ServiceRegistry

namespace Site

/-- Readings are answered by the store. -/
structure AsksRows (site : Site) : Prop where
  faults : site.client.faults.Genuine .getPrefix
  scanning : ∀ who errand stamp flight,
    site.progress? who = some (.building errand (.scanning stamp flight)) →
      flight.Genuine ∧ flight.request = .getPrefix (site.directoryOf errand)

/-- The watcher is answered by the store. -/
structure AsksChanges (site : Site) : Prop where
  faults : site.client.faults.Genuine .watch
  subscribing : ∀ who flight, site.progress? who = some (.subscribing flight) →
    flight.Genuine ∧ flight.request = .watch site.registry.config.directory

theorem directoryOf_eq {before after : Site} (h : before.Precedes after) (errand : Errand) :
    after.directoryOf errand = before.directoryOf errand := by
  cases errand <;> simp only [directoryOf, h.config]

theorem of_send {site after : Site} {m : Method} {request : Request m} {flight : Flight m}
    (h : site.send request = (flight, after)) (hgenuine : site.client.faults.Genuine m) :
    flight.Genuine ∧ flight.request = request := by
  have hflight : flight = (site.toLink.send request).1 := (congrArg Prod.fst h).symm
  rw [hflight]
  exact ⟨Link.genuine_send hgenuine request, Link.request_send _ request⟩

theorem AsksRows.moved {site after : Site} {move : Move} (h : site.AsksRows)
    (hmove : site.after move = some after) : after.AsksRows := by
  have hprecedes := precedes_of_after hmove
  refine ⟨hprecedes.genuine _ h.faults, ?_⟩
  intro who errand stamp flight hscanning
  rw [directoryOf_eq hprecedes]
  rcases (moved_of_after hmove).inside_cases hscanning rfl with
    ⟨-, hbefore⟩ | ⟨former, mid, -, -, -, hadvance, -⟩
  · exact h.scanning who errand stamp flight hbefore
  · cases hadvance with
    | stamp htaken hsend => exact of_send hsend h.faults

theorem AsksChanges.moved {site after : Site} {move : Move} (h : site.AsksChanges)
    (hmove : site.after move = some after) : after.AsksChanges := by
  have hprecedes := precedes_of_after hmove
  refine ⟨hprecedes.genuine _ h.faults, ?_⟩
  intro who flight hsubscribing
  rw [hprecedes.config]
  rcases (moved_of_after hmove).progress_cases hsubscribing with
    ⟨-, hbefore | hbegins⟩ | ⟨activity, mid, -, -, -, hturn, -⟩
  · exact h.subscribing who flight hbefore
  · cases hbegins
  · cases hturn with
    | quiet happart => cases happart
    | start hsend => exact of_send hsend h.faults
    | refresh hinstall hgoes => cases hgoes
    | relay hfilled hgoes => cases hgoes

section
variable {store : Store} {config : Config} {dialer : Dialer} {faults : Faults} {moves : List Move}
  {site : Site}

theorem asksRows_of_run (hgenuine : faults.Genuine .getPrefix)
    (hrun : (start store config dialer faults).run moves = some site) : site.AsksRows := by
  refine run_induction ⟨hgenuine, ?_⟩ (fun _ _ _ h => h.moved) hrun
  intro who errand stamp flight h
  cases (progress?_start h).2

theorem asksChanges_of_run (hgenuine : faults.Genuine .watch)
    (hrun : (start store config dialer faults).run moves = some site) : site.AsksChanges := by
  refine run_induction ⟨hgenuine, ?_⟩ (fun _ _ _ h => h.moved) hrun
  intro who flight h
  cases (progress?_start h).2

end

/-! ## What the store answers -/

/-- A genuine request of a site that is answered was carried out by the store. -/
theorem serve_of_receive {site mid : Site} {m : Method} {flight : Flight m} {answer : Answer m}
    (hgenuine : flight.Genuine) (hreceive : site.receive flight = (.ok answer, mid)) :
    site.store.serve site.clock flight.request = .ok (answer, mid.store) := by
  have hfst := congrArg Prod.fst hreceive
  have hsnd := congrArg (fun result => result.2.toLink) hreceive
  have hlink : site.toLink.receive flight = (.ok answer, mid.toLink) := Prod.ext hfst hsnd
  exact Link.serve_of_receive hgenuine hlink

/-- The store counts the scan that it has answered. -/
theorem AsksRows.scans {site mid : Site} (h : site.AsksRows) {who : Nat} {errand : Errand}
    {stamp : Stamp} {flight : Flight .getPrefix} {rows : List Row}
    (hscanning : site.progress? who = some (.building errand (.scanning stamp flight)))
    (hreceive : site.receive flight = (.ok rows, mid)) :
    rows = site.store.rows (site.directoryOf errand) ∧
      mid.store = { site.store with scans := site.store.scans + 1 } := by
  obtain ⟨hgenuine, hrequest⟩ := h.scanning who errand stamp flight hscanning
  have hserve := serve_of_receive hgenuine hreceive
  rw [hrequest] at hserve
  exact Store.of_getPrefix hserve

/-- A subscription that is opened delivers what is published from then on. -/
theorem AsksChanges.subscribes {site mid : Site} (h : site.AsksChanges) {who : Nat}
    {flight : Flight .watch} {changes : Changes}
    (hsubscribing : site.progress? who = some (.subscribing flight))
    (hreceive : site.receive flight = (.ok changes, mid)) :
    changes = .live ⟨site.registry.config.directory, site.store.revision⟩ ∧
      mid.store = site.store := by
  obtain ⟨hgenuine, hrequest⟩ := h.subscribing who flight hsubscribing
  have hserve := serve_of_receive hgenuine hreceive
  rw [hrequest] at hserve
  obtain ⟨sub, hwatch, he⟩ := of_map_ok hserve
  obtain ⟨-, -, hsub⟩ := Store.of_check_bind hwatch
  obtain ⟨hchanges, hstore⟩ := Prod.mk.inj he
  refine ⟨?_, hstore.symm⟩
  rw [← hchanges, ← Except.ok.inj hsub]
  rfl

end Site

end ServiceRegistry
