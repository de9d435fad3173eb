import ServiceRegistry.Proofs.Registry.Coherence
import ServiceRegistry.Proofs.Registry.Recency

/-!
# Callers who come at rest

Who calls while the watcher rests is handed a list that was shown then, or one that was scanned later: by
the caller, by another one in front of the gate, or by the watcher. As long as nothing is published, both
hold the instances that stand in the store. This is more than the coherence of what is shown, because the
list of a caller whose generation has passed is handed out without being put into the cache.
-/
namespace ServiceRegistry

namespace Site

/-- What is held here was held at an earlier site or was scanned since, and what newcomers dial was
scanned since. -/
structure Renews (there site : Site) : Prop where
  held : ∀ key reading, site.Holds key reading →
    there.Holds key reading ∨ there.store.revision ≤ reading.revision
  dialed : ∀ who errand stamp reading keys due, there.registry.activities.length ≤ who →
    site.progress? who = some (.building errand (.dialing stamp reading keys due)) →
      there.store.revision ≤ reading.revision

theorem Renews.refl (site : Site) : site.Renews site := by
  refine ⟨fun key reading hholds => .inl hholds, ?_⟩
  intro who errand stamp reading keys due hwho hdialing
  rw [progress?, List.getElem?_eq_none hwho] at hdialing
  cases hdialing

theorem Renews.moved {there site after : Site} {move : Move} (h : there.Renews site)
    (hprecedes : there.Precedes site) (horderly : site.Orderly) (hmove : site.after move = some after) :
    there.Renews after := by
  constructor
  · intro key reading hholds
    rcases horderly.holds_cases hmove hholds with
      hbefore | ⟨who, errand, stamp, flight, rows, mid, -, -, -, -, rfl⟩
    · exact h.held key reading hbefore
    · exact .inr hprecedes.store.revision_le
  · intro who errand stamp reading keys due hwho hdialing
    rcases (moved_of_after hmove).dialing_cases hdialing with hbefore | ⟨-, rows, -, rfl, -⟩
    · exact h.dialed who errand stamp reading keys due hwho hbefore
    · exact hprecedes.store.revision_le

/-- A newcomer is handed what is held, or what it has dialed itself. -/
theorem Renews.handed {there site mid : Site} (h : there.Renews site) {who : Nat}
    {activity : Activity} {listing : Listing} (hwho : there.registry.activities.length ≤ who)
    (hactivity : site.registry.activities[who]? = some activity)
    (hturn : site.Turn who activity (.finished (.ok (.connections listing))) mid) {key : ServiceKey}
    (hsought : activity.progress.sought? = some key) :
    there.Holds key listing.reading ∨ there.store.revision ≤ listing.reading.revision := by
  obtain ⟨other, hother, hshown | ⟨stamp, reading, keys, due, rfl, rfl⟩⟩ := hturn.handed
  · rw [hsought] at hother
    cases hother
    exact h.held key _ (.inl ⟨listing, hshown, rfl⟩)
  · exact .inr (h.dialed who _ stamp reading keys due hwho (progress?_of_activity hactivity))

end Site

section
variable {store : Store} {config : Config} {dialer : Dialer} {faults : Faults}

/-- The list of a caller was held at a site before the call, or was scanned since. -/
theorem Calls.held_or_later {earlier later : List Move} {there final : Site}
    (hearlier : (Site.start store config dialer faults).run earlier = some there)
    (hlater : there.run later = some final) {who : Nat} {service : String} {key : ServiceKey}
    {listing : Listing} (hkey : ServiceKey.make config.root service = .ok key)
    (hcall : Calls (there.history later) who (.getConnections service))
    (hlisting : final.progress? who = some (.finished (.ok (.connections listing)))) :
    there.Holds key listing.reading ∨ there.store.revision ≤ listing.reading.revision := by
  refine (Site.history_induction (P := fun past site => there.Renews site ∧
    (Calls past who (.getConnections service) →
      site.progress? who = some (.finished (.ok (.connections listing))) →
        there.Holds key listing.reading ∨ there.store.revision ≤ listing.reading.revision))
    ?_ ?_ hlater).2 hcall hlisting
  · refine ⟨.refl there, ?_⟩
    rintro ⟨early, hmem, -⟩
    cases hmem
  · rintro before site move after hbefore ⟨hrenews, hhanded⟩ hmove
    have hrun : (Site.start store config dialer faults).run (earlier ++ before) = some site := by
      rw [Site.run_append, hearlier, Option.bind_some, hbefore]
    refine ⟨hrenews.moved (Site.precedes_of_run hbefore) (Site.orderly_of_run hrun) hmove, ?_⟩
    intro hcall hlisting
    have hsub : there.history before ⊆
        (Site.start store config dialer faults).history (earlier ++ before) := by
      rw [Site.history_append hearlier]
      exact List.subset_append_right _ _
    obtain ⟨hmade, hkept | ⟨activity, mid, other, rfl, hactivity, hturn, hsought, hother⟩⟩ :=
      Calls.handed_cases hrun hsub hmove hcall hlisting
    · exact hhanded hmade hkept
    · have hwho : there.registry.activities.length ≤ who := by
        obtain ⟨early, hmem, rfl⟩ := hmade
        exact (Site.precedes_of_mem_history hbefore hmem).1.length_le
      rw [hkey] at hother
      cases hother
      exact hrenews.handed hwho hactivity hturn hsought

/-- What a scan has found of a service leads to the instances that stood in the store. -/
theorem FoundAt.targets {moves : List Move} {final : Site} (hrows : faults.Genuine .getPrefix)
    (hrun : (Site.start store config dialer faults).run moves = some final) {n : Nat} {stamp : Stamp}
    {key : ServiceKey} {listing : Listing}
    (h : FoundAt ((Site.start store config dialer faults).history moves) n stamp key listing) :
    ∃ early who errand rows,
      (early, .step who) ∈ (Site.start store config dialer faults).history moves ∧
        early.Scans who errand stamp rows ∧ listing.reading = early.reading stamp ∧
        listing.connections.map (·.target) = ((early.store.instances config.root key).filter
          (final.registry.dialing stamp.options early.clock).reaches).map (·.address) := by
  obtain ⟨early, who, errand, rows, hn, hscans, hcovers, -, hreading, hconnections⟩ := h
  have hmem := List.mem_of_getElem? hn
  obtain ⟨flight, mid, hactivity, hreceive⟩ := id hscans
  obtain ⟨before, after, -, hearly⟩ := Site.split_of_mem_history hmem
  obtain ⟨rfl, -⟩ := (Site.asksRows_of_run hrows hearly).scans (Site.progress?_of_activity hactivity)
    hreceive
  obtain ⟨-, next, hnext, hfuture⟩ := Site.precedes_of_mem_history hrun hmem
  have hprecedes := (Site.precedes_of_after hnext).trans hfuture
  have hconfig : early.registry.config = config := (Site.precedes_of_run hearly).config
  refine ⟨early, who, errand, _, hmem, hscans, hreading, ?_⟩
  rw [hconnections, ← Dialing.connections_of_covers _ hcovers, Dialing.connections,
    early.instances_of_errand hcovers, Dialing.map_target_connections, hprecedes.dialing_eq, hconfig]

/-! ## At rest -/

/-- The watcher opens one subscription only. -/
theorem Site.Opens.eq_of_mem {site opening other : Site} {before later : List Move}
    (hopens : opening.Opens) (hbefore : site.run before = some opening)
    (hmem : (other, .step Registry.watcher) ∈
      site.history (before ++ .step Registry.watcher :: later))
    (hother : other.Opens) : other = opening := by
  obtain ⟨hstep, -⟩ := hopens.listening
  rw [Site.history_append hbefore, Site.history_cons hstep] at hmem
  rcases List.mem_append.1 hmem with hearly | hlate
  · -- the watcher of an earlier one would have had its subscription here
    obtain ⟨front, back, rfl, hfront⟩ := Site.split_of_mem_history hearly
    rw [Site.run_append, hfront, Option.bind_some, Site.run_cons, hother.listening.1] at hbefore
    exact absurd hopens (hother.not_opens_later hbefore)
  · rcases List.mem_cons.1 hlate with he | hlate
    · exact congrArg Prod.fst he
    · obtain ⟨front, back, -, hfront⟩ := Site.split_of_mem_history hlate
      exact absurd hother (hopens.not_opens_later hfront)

/-- The subscription was opened in time for a service: nothing had been scanned, or the service has
changed since. -/
def OpensInTime (origin : Site) (before : List Move) (opening there : Site) (root : String)
    (key : ServiceKey) : Prop :=
  (∀ early who errand stamp rows, (early, .step who) ∈ origin.history before →
      ¬ early.Scans who errand stamp rows) ∨
    ¬ there.store.Silent root key opening.store.revision there.store.revision

section
variable {moves before later : List Move} {opening there : Site}
  (hrows : faults.Genuine .getPrefix) (hwatch : faults.Genuine .watch)
  (hrun : (Site.start store config dialer faults).run moves = some there)
  (hmoves : moves = before ++ .step Registry.watcher :: later)
  (hbefore : (Site.start store config dialer faults).run before = some opening)
  (hopens : opening.Opens)
include hrows hwatch hrun hmoves hbefore hopens

/-- What is held at rest was read from the same instances that stand in the store now, if the
subscription was opened in time. -/
theorem Site.Rests.instances_eq (hrests : there.Rests)
    (hanswered : ∀ early errand,
      (early, .step Registry.watcher) ∈ (Site.start store config dialer faults).history moves →
        ¬ early.Fails Registry.watcher errand)
    {key : ServiceKey} (hintime : OpensInTime (Site.start store config dialer faults) before opening
      there config.root key)
    {early : Site} {who : Nat} {errand : Errand} {stamp : Stamp} {rows : List Row}
    (hmem : (early, .step who) ∈ (Site.start store config dialer faults).history moves)
    (hscans : early.Scans who errand stamp rows) (hholds : there.Holds key (early.reading stamp)) :
    there.store.instances config.root key = early.store.instances config.root key := by
  have hconfig : there.registry.config = config := (Site.precedes_of_run hrun).config
  have hevolves : early.store.Evolves there.store := by
    obtain ⟨-, next, hnext, hfuture⟩ := Site.precedes_of_mem_history hrun hmem
    exact ((Site.precedes_of_after hnext).trans hfuture).store
  rcases hrests.silent hrows hwatch hrun hholds with ⟨first, hfirst, hsilent⟩ | hgiven
  · rw [hconfig] at hsilent
    rcases hfirst with rfl | ⟨other, hother, hagain, hscan, rfl⟩
    · exact hsilent.instances_eq hevolves
    · -- the reading was made before the opening, so the service has changed since
      subst hmoves
      obtain rfl := hopens.eq_of_mem hbefore hother hagain
      rcases hintime with hunread | hheard
      · obtain ⟨hstep, -⟩ := hopens.listening
        rw [Site.history_append hbefore] at hmem
        rcases List.mem_append.1 hmem with hunwatched | hwatched
        · exact absurd hscans (hunread early who errand stamp rows hunwatched)
        · have hopened : other.run (.step Registry.watcher :: later) = some there := by
            rwa [Site.run_append, hbefore, Option.bind_some] at hrun
          have hle := (Site.precedes_of_mem_history hopened hwatched).1.store.scans_le
          exact absurd (hscan.trans_le hle) (lt_irrefl _)
      · exact absurd hsilent hheard
  · obtain ⟨failing, errand, hfailing, hfails, -⟩ := hgiven
    exact absurd hfails (hanswered failing errand hfailing)

/-- Who calls at rest and is answered before anything is published is handed connections to the
instances that stand in the store, if the subscription was opened in time. -/
theorem Site.Rests.targets (hrests : there.Rests)
    (hanswered : ∀ early errand,
      (early, .step Registry.watcher) ∈ (Site.start store config dialer faults).history moves →
        ¬ early.Fails Registry.watcher errand)
    {service : String} {key : ServiceKey} (hkey : ServiceKey.make config.root service = .ok key)
    (hintime : OpensInTime (Site.start store config dialer faults) before opening there config.root key)
    {further : List Move} {final : Site} (hfurther : there.run further = some final)
    (hrevision : final.store.revision = there.store.revision) {who : Nat} {listing : Listing}
    (hcall : Calls (there.history further) who (.getConnections service))
    (hlisting : final.progress? who = some (.finished (.ok (.connections listing)))) :
    ∃ options time, listing.connections.map (·.target) = ((there.store.instances config.root key).filter
      (there.registry.dialing options time).reaches).map (·.address) := by
  have hall : (Site.start store config dialer faults).run (moves ++ further) = some final := by
    rw [Site.run_append, hrun, Option.bind_some, hfurther]
  have hmade : Calls ((Site.start store config dialer faults).history (moves ++ further)) who
      (.getConnections service) := by
    rw [Site.history_append hrun]
    exact hcall.mono (List.subset_append_right _ _)
  obtain ⟨other, n, stamp, hother, hfound, -⟩ :=
    (Ordered.of_run hall).returned who service listing hmade hlisting
  rw [hkey] at hother
  cases hother
  obtain ⟨early, scanner, errand, rows, hmem, hscans, hreading, htargets⟩ := hfound.targets hrows hall
  -- as long as nothing is published, the instances stay
  have hkept : ∀ {first second : Site}, first.store.Evolves second.store →
      second.store.revision = first.store.revision →
        second.store.instances config.root key = first.store.instances config.root key :=
    fun hevolves heq => (Store.silent_of_le heq.le).instances_eq hevolves
  have hinstances : there.store.instances config.root key = early.store.instances config.root key := by
    rw [Site.history_append hrun] at hmem
    rcases List.mem_append.1 hmem with hold | hnew
    · rcases hcall.held_or_later hrun hfurther hkey hlisting with hheld | hlate
      · rw [hreading] at hheld
        exact Site.Rests.instances_eq hrows hwatch hrun hmoves hbefore hopens hrests hanswered hintime
          hold hscans hheld
      · obtain ⟨-, next, hnext, hfuture⟩ := Site.precedes_of_mem_history hrun hold
        have hevolves := ((Site.precedes_of_after hnext).trans hfuture).store
        rw [hreading] at hlate
        exact hkept hevolves (Nat.le_antisymm hlate hevolves.revision_le)
    · obtain ⟨hsince, next, hnext, hfuture⟩ := Site.precedes_of_mem_history hfurther hnew
      have huntil := ((Site.precedes_of_after hnext).trans hfuture).store
      have hle := huntil.revision_le
      rw [hrevision] at hle
      exact (hkept hsince.store (Nat.le_antisymm hle hsince.store.revision_le)).symm
  refine ⟨stamp.options, early.clock, ?_⟩
  rw [htargets, hinstances, (Site.precedes_of_run hfurther).dialing_eq]

end

end

end ServiceRegistry
