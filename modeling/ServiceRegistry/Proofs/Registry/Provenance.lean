import ServiceRegistry.Proofs.Registry.Gate

/-!
# Where lists come from

Every list that a cache shows, and every list that a caller was handed, was found by a scan of the
store that an activity has made with a stamp of the cache. `Origin` names the two moves of the run,
and `Provenance` says that all lists at a site have one. It is kept by every move, whatever faults
are laid in front of the store.
-/
namespace ServiceRegistry

/-- The service whose connections a caller is after, from its first look into the cache on. -/
def Progress.sought? : Progress → Option ServiceKey
  | .looking key | .building (.resolve key) _ => some key
  | _ => none

namespace Site

/-- An activity takes a stamp from the cache for its reading. -/
def Stamps (site : Site) (who : Nat) (errand : Errand) (stamp : Stamp) : Prop :=
  site.registry.activities[who]? = some ⟨.building errand .stamping, false⟩ ∧
    site.registry.cache.stamp = .ok stamp

/-- An activity that reads with a stamp is answered with rows. -/
def Scans (site : Site) (who : Nat) (errand : Errand) (stamp : Stamp) (rows : List Row) : Prop :=
  ∃ flight mid,
    site.registry.activities[who]? = some ⟨.building errand (.scanning stamp flight), false⟩ ∧
      site.receive flight = (.ok rows, mid)

theorem Scans.progress {site : Site} {who : Nat} {errand : Errand} {stamp : Stamp} {rows : List Row}
    (h : site.Scans who errand stamp rows) :
    ∃ flight, site.progress? who = some (.building errand (.scanning stamp flight)) := by
  obtain ⟨flight, mid, hactivity, -⟩ := h
  exact ⟨flight, progress?_of_activity hactivity⟩

/-- What is noted of a scan that is made here with a stamp. -/
def reading (site : Site) (stamp : Stamp) : Reading :=
  ⟨stamp.generation, site.store.scans, site.store.revision, site.clock⟩

end Site

/-- The moves of a run by which a reading has got its stamp and its instances. -/
structure Reads (past : List (Site × Move)) (errand : Errand) (stamp : Stamp) (reading : Reading)
    (keys : List EndpointKey) : Prop where
  stamped : ∃ site who, (site, .step who) ∈ past ∧ site.Stamps who errand stamp
  scanned : ∃ site who rows, (site, .step who) ∈ past ∧ site.Scans who errand stamp rows ∧
    reading = site.reading stamp ∧
    keys = errand.instances (EndpointKey.ofRows site.registry.config.root rows)

/-- The list of a service is what a reading of the run, made with a stamp, has found and dialed. -/
def Origin (past : List (Site × Move)) (dialer : Dialer) (timeout : Option Duration) (stamp : Stamp)
    (key : ServiceKey) (listing : Listing) : Prop :=
  ∃ errand keys, Reads past errand stamp listing.reading keys ∧ errand.Covers key ∧
    listing.connections =
      (Dialing.mk dialer timeout stamp.options listing.reading.time).connections keys key

/-- What the lists and readings at a site come from. -/
structure Provenance (past : List (Site × Move)) (site : Site) : Prop where
  stamped : ∀ who errand build stamp, site.progress? who = some (.building errand build) →
    build.stamp? = some stamp → ∃ early other, (early, .step other) ∈ past ∧
      early.Stamps other errand stamp
  scanned : ∀ who errand stamp reading keys due,
    site.progress? who = some (.building errand (.dialing stamp reading keys due)) →
      Reads past errand stamp reading keys
  shown : ∀ key listing, site.registry.cache.Shows key listing →
    listing.reading.generation = site.registry.cache.generation ∧
      ∃ stamp, Origin past site.registry.dialer site.registry.config.connectTimeout stamp key listing
  returned : ∀ who listing, site.progress? who = some (.finished (.ok (.connections listing))) →
    ∃ stamp key,
      Origin past site.registry.dialer site.registry.config.connectTimeout stamp key listing

namespace Site

/-- A stamp that is held after a move was held before, or has just been taken from the cache. -/
theorem Moved.stamped_cases {site after : Site} {move : Move} (h : site.Moved move after) {who : Nat}
    {errand : Errand} {build : Build} {stamp : Stamp}
    (hbuild : after.progress? who = some (.building errand build))
    (hstamp : build.stamp? = some stamp) :
    (∃ former, site.progress? who = some (.building errand former) ∧ former.stamp? = some stamp) ∨
      move = .step who ∧ site.Stamps who errand stamp := by
  rcases h.inside_cases hbuild (Build.isInside_of_stamp? hstamp) with
    ⟨-, hbefore⟩ | ⟨former, mid, hmove, -, hactivity, hadvance, -⟩
  · exact .inl ⟨build, hbefore, hstamp⟩
  · cases hadvance with
    | enter => cases hstamp
    | stamp htaken hsend =>
      cases hstamp
      exact .inr ⟨hmove, hactivity, htaken⟩
    | scan hreceive hregistry hstore => exact .inl ⟨_, progress?_of_activity hactivity, hstamp⟩

/-- What is dialed after a move was dialed before, or has just been found by a scan. -/
theorem Moved.dialing_cases {site after : Site} {move : Move} (h : site.Moved move after) {who : Nat}
    {errand : Errand} {stamp : Stamp} {reading : Reading} {keys : List EndpointKey} {due : Nat}
    (hdialing : after.progress? who = some (.building errand (.dialing stamp reading keys due))) :
    site.progress? who = some (.building errand (.dialing stamp reading keys due)) ∨
      move = .step who ∧ ∃ rows, site.Scans who errand stamp rows ∧ reading = site.reading stamp ∧
        keys = errand.instances (EndpointKey.ofRows site.registry.config.root rows) := by
  rcases h.inside_cases hdialing rfl with
    ⟨-, hbefore⟩ | ⟨former, mid, hmove, -, hactivity, hadvance, -⟩
  · exact .inl hbefore
  · cases hadvance with
    | @scan stamp flight rows received after due hreceive hregistry hstore =>
      exact .inr ⟨hmove, rows, ⟨flight, received, hactivity, hreceive⟩, rfl, rfl⟩

/-- What is shown after a move was shown before or has just been put in. -/
theorem Moved.shows_cases {site after : Site} {move : Move} (h : site.Moved move after)
    {key : ServiceKey} {listing : Listing} (hshows : after.registry.cache.Shows key listing) :
    after.registry.cache.generation = site.registry.cache.generation ∧
      (site.registry.cache.Shows key listing ∨
        ∃ (who : Nat) (errand : Errand) (stamp : Stamp) (reading : Reading)
            (keys : List EndpointKey) (due : Nat),
          site.registry.activities[who]? =
              some ⟨.building errand (.dialing stamp reading keys due), false⟩ ∧
            reading.generation = site.registry.cache.generation ∧ errand.Covers key ∧
            listing = ⟨reading,
              (site.registry.dialing stamp.options reading.time).connections keys key⟩) := by
  cases h with
  | @turn who activity next mid hactivity hready hturn hframe =>
    rw [cache_settle] at hshows ⊢
    have heffect := hturn.effect
    generalize mid.registry.cache = cache at heffect hshows
    cases heffect with
    | same => exact ⟨rfl, .inl hshows⟩
    | renewed hgeneration hoptions hfilled =>
      exact absurd hshows (Cache.not_shows_of_filled hfilled)
    | placed hdialing hplaced =>
      refine ⟨hplaced.generation_eq, ?_⟩
      rcases hplaced.shows key listing hshows with ⟨hcovers, hlisting⟩ | ⟨-, hbefore⟩
      · exact .inr ⟨who, _, _, _, _, _, hdialing ▸ hactivity, hplaced.current, hcovers, hlisting⟩
      · exact .inl hbefore
  | calm hmove hcache hgate hframe =>
    rw [hcache] at hshows ⊢
    exact ⟨rfl, .inl hshows⟩

/-- A caller is handed a list that the cache shows or that it has read itself. -/
theorem Turn.handed {site mid : Site} {who : Nat} {activity : Activity} {listing : Listing}
    (h : site.Turn who activity (.finished (.ok (.connections listing))) mid) :
    ∃ key, activity.progress.sought? = some key ∧ (site.registry.cache.Shows key listing ∨
      ∃ stamp reading keys due,
        activity = ⟨.building (.resolve key) (.dialing stamp reading keys due), false⟩ ∧
          listing = ⟨reading,
            (site.registry.dialing stamp.options reading.time).connections keys key⟩) := by
  cases h with
  | quiet happart hlisting => cases hlisting
  | hit hlookup | found hlookup => exact ⟨_, rfl, .inl (Cache.shows_of_lookup hlookup)⟩
  | @resolve key stamp reading keys due _ mid hinstall =>
    obtain ⟨cache, -, rfl, hconnections, -⟩ := of_install hinstall
    exact ⟨key, rfl, .inr ⟨stamp, listing.reading, keys, due, rfl, by rw [← hconnections key rfl]⟩⟩
  | refresh hinstall hgoes => cases hgoes
  | relay hfilled hgoes => cases hgoes

/-- A list in a caller's hands after a move was there before or has just been handed out. -/
theorem Moved.returned_cases {site after : Site} {move : Move} (h : site.Moved move after)
    {who : Nat} {listing : Listing}
    (hlisting : after.progress? who = some (.finished (.ok (.connections listing)))) :
    site.progress? who = some (.finished (.ok (.connections listing))) ∨
      ∃ key, site.registry.cache.Shows key listing ∨
        ∃ stamp reading keys due,
          site.progress? who = some (.building (.resolve key) (.dialing stamp reading keys due)) ∧
            listing = ⟨reading,
              (site.registry.dialing stamp.options reading.time).connections keys key⟩ := by
  rcases h.progress_cases hlisting with
    ⟨-, hbefore | hbegins⟩ | ⟨activity, mid, -, -, hactivity, hturn, -⟩
  · exact .inl hbefore
  · cases hbegins
  · right
    obtain ⟨key, -, hshown | ⟨stamp, reading, keys, due, rfl, hfound⟩⟩ := hturn.handed
    · exact ⟨key, .inl hshown⟩
    · exact ⟨key, .inr ⟨stamp, reading, keys, due, progress?_of_activity hactivity, hfound⟩⟩

end Site

theorem Reads.mono {past later : List (Site × Move)} {errand : Errand} {stamp : Stamp}
    {reading : Reading} {keys : List EndpointKey} (h : Reads past errand stamp reading keys)
    (hsub : past ⊆ later) : Reads later errand stamp reading keys := by
  obtain ⟨⟨early, other, hmem, hstamps⟩, ⟨late, who, rows, hmem', hscans, hreading⟩⟩ := h
  exact ⟨⟨early, other, hsub hmem, hstamps⟩, ⟨late, who, rows, hsub hmem', hscans, hreading⟩⟩

theorem Reads.generation_eq {past : List (Site × Move)} {errand : Errand} {stamp : Stamp}
    {reading : Reading} {keys : List EndpointKey} (h : Reads past errand stamp reading keys) :
    reading.generation = stamp.generation := by
  obtain ⟨site, who, rows, -, -, rfl, -⟩ := h.scanned
  rfl

/-- A move of an activity that is not reading is no part of a reading. -/
theorem Reads.of_cons {past : List (Site × Move)} {site : Site} {who : Nat} {activity : Activity}
    {errand : Errand} {stamp : Stamp} {reading : Reading} {keys : List EndpointKey}
    (h : Reads ((site, .step who) :: past) errand stamp reading keys)
    (hactivity : site.registry.activities[who]? = some activity)
    (happart : activity.progress.isApart = true) : Reads past errand stamp reading keys := by
  obtain ⟨⟨early, other, hmem, hstamps⟩, ⟨late, reader, rows, hmem', hscans, hreading⟩⟩ := h
  refine ⟨⟨early, other, (List.mem_cons.1 hmem).resolve_left ?_, hstamps⟩,
    ⟨late, reader, rows, (List.mem_cons.1 hmem').resolve_left ?_, hscans, hreading⟩⟩
  · intro he
    cases he
    have hstamping := hstamps.1
    rw [hactivity] at hstamping
    cases hstamping
    cases happart
  · intro he
    cases he
    obtain ⟨flight, mid, hscanning, -⟩ := hscans
    rw [hactivity] at hscanning
    cases hscanning
    cases happart

theorem Origin.mono {past later : List (Site × Move)} {dialer : Dialer} {timeout : Option Duration}
    {stamp : Stamp} {key : ServiceKey} {listing : Listing}
    (h : Origin past dialer timeout stamp key listing) (hsub : past ⊆ later) :
    Origin later dialer timeout stamp key listing := by
  obtain ⟨errand, keys, hreads, hrest⟩ := h
  exact ⟨errand, keys, hreads.mono hsub, hrest⟩

namespace Provenance

theorem start {store : Store} {config : Config} {dialer : Dialer} {faults : Faults} :
    Provenance [] (Site.start store config dialer faults) := by
  constructor
  · intro who errand build stamp h
    cases (Site.progress?_start h).2
  · intro who errand stamp reading keys due h
    cases (Site.progress?_start h).2
  · intro key listing h
    exact absurd h (Cache.not_shows_of_filled rfl)
  · intro who listing h
    cases (Site.progress?_start h).2

/-- A reading that has come to the dialing has its origin in the run. -/
theorem origin {past : List (Site × Move)} {site : Site} (h : Provenance past site) {who : Nat}
    {errand : Errand} {stamp : Stamp} {reading : Reading} {keys : List EndpointKey} {due : Nat}
    (hdialing : site.progress? who = some (.building errand (.dialing stamp reading keys due)))
    {key : ServiceKey} (hcovers : errand.Covers key) :
    Origin past site.registry.dialer site.registry.config.connectTimeout stamp key
      ⟨reading, (site.registry.dialing stamp.options reading.time).connections keys key⟩ :=
  ⟨errand, keys, h.scanned who errand stamp reading keys due hdialing, hcovers, rfl⟩

theorem moved {past : List (Site × Move)} {site after : Site} {move : Move}
    (h : Provenance past site) (hmove : site.after move = some after) :
    Provenance (past ++ [(site, move)]) after := by
  have hmoved := Site.moved_of_after hmove
  have hprecedes := Site.precedes_of_after hmove
  have hsub : past ⊆ past ++ [(site, move)] := List.subset_append_left _ _
  have hlast : (site, move) ∈ past ++ [(site, move)] := by simp
  constructor
  · intro who errand build stamp hbuild hstamp
    rcases hmoved.stamped_cases hbuild hstamp with ⟨former, hbefore, hheld⟩ | ⟨rfl, hstamps⟩
    · obtain ⟨early, other, hmem, hstamps⟩ := h.stamped who errand former stamp hbefore hheld
      exact ⟨early, other, hsub hmem, hstamps⟩
    · exact ⟨site, who, hlast, hstamps⟩
  · intro who errand stamp reading keys due hdialing
    rcases hmoved.dialing_cases hdialing with hbefore | ⟨rfl, rows, hscans, hreading⟩
    · exact (h.scanned who errand stamp reading keys due hbefore).mono hsub
    · obtain ⟨flight, hscanning⟩ := hscans.progress
      obtain ⟨early, other, hmem, hstamps⟩ := h.stamped who errand _ stamp hscanning rfl
      exact ⟨⟨early, other, hsub hmem, hstamps⟩, ⟨site, who, rows, hlast, hscans, hreading⟩⟩
  · intro key listing hshows
    rw [hprecedes.config, hprecedes.dialer]
    obtain ⟨hgeneration, hbefore | ⟨who, errand, stamp, reading, keys, due, hactivity, hcurrent,
      hcovers, rfl⟩⟩ := hmoved.shows_cases hshows
    · obtain ⟨hcurrent, stamp, horigin⟩ := h.shown key listing hbefore
      exact ⟨hcurrent.trans hgeneration.symm, stamp, horigin.mono hsub⟩
    · have horigin := h.origin (Site.progress?_of_activity hactivity) hcovers
      exact ⟨hcurrent.trans hgeneration.symm, stamp, horigin.mono hsub⟩
  · intro who listing hlisting
    rw [hprecedes.config, hprecedes.dialer]
    rcases hmoved.returned_cases hlisting with hbefore | ⟨key, hshown | ⟨stamp, reading, keys, due,
      hdialing, rfl⟩⟩
    · obtain ⟨stamp, key, horigin⟩ := h.returned who listing hbefore
      exact ⟨stamp, key, horigin.mono hsub⟩
    · obtain ⟨-, stamp, horigin⟩ := h.shown key listing hshown
      exact ⟨stamp, key, horigin.mono hsub⟩
    · exact ⟨stamp, key, (h.origin hdialing trivial).mono hsub⟩

/-- Every list has its origin after every run. -/
theorem of_run {store : Store} {config : Config} {dialer : Dialer} {faults : Faults}
    {moves : List Move} {site : Site}
    (hrun : (Site.start store config dialer faults).run moves = some site) :
    Provenance ((Site.start store config dialer faults).history moves) site :=
  Site.history_induction start (fun _ _ _ _ _ h => h.moved) hrun

end Provenance

end ServiceRegistry
