import ServiceRegistry.Proofs.Registry.Dials
import ServiceRegistry.Proofs.Registry.Recency
import ServiceRegistry.Proofs.Registry.Renewal

/-!
# One scan for all callers

Callers come to a cache that is to be filled. The first of them reads the root and the others wait at the
gate. If nothing renews the cache and no caller is failed, that reading fills the cache, and everyone in
the line finds its list there: whoever waits came before the watcher could have anything to refresh, so
no list is replaced while anyone waits. The stretch of a run has two parts, `Unfilled` before the cache is
filled and `Filled` after. A move keeps the first (`Unfilled.kept`), leads from it to the second
(`Unfilled.placed`) or keeps the second (`Filled.moved`).
-/
namespace ServiceRegistry

namespace Site

/-! ## What is asked and dialed for callers -/

/-- Whether a caller asks the store for the root in a move. -/
def asksRoot (site : Site) : Move → Bool
  | .step who =>
    match site.registry.activities[who]? with
    | some ⟨.building (.resolve _) .stamping, false⟩ => !site.registry.cache.closed
    | _ => false
  | _ => false

/-- What is dialed in a move by anyone but the watcher. -/
def dialedBy (site : Site) : Move → List Endpoint
  | .step who =>
    if who = Registry.watcher then []
    else (site.step who).client.dials.drop site.client.dials.length
  | _ => []

/-- The watcher reads the store anew in a move. -/
def Rereads (site : Site) (move : Move) : Prop :=
  ∃ who errand stamp rows, move = .step who ∧ errand.changes?.isSome = true ∧
    site.Scans who errand stamp rows

/-- The list of a service that a scan has found. -/
def found (site : Site) (stamp : Stamp) (rows : List Row) (key : ServiceKey) : Listing :=
  ⟨site.reading stamp, (site.registry.dialing stamp.options site.clock).connections
    (EndpointKey.ofRows site.registry.config.root rows) key⟩

/-- The cache is to be filled, and nobody has begun to read the store into it. -/
structure Unread (site : Site) : Prop where
  filled : site.registry.cache.filled = none
  waiting : ∀ who errand build, site.progress? who = some (.building errand build) →
    build = .queued ∧ errand.changes? = none

end Site

/-- How often callers have asked the store for the root. -/
def rootScans (past : List (Site × Move)) : Nat := past.countP fun entry => entry.1.asksRoot entry.2

/-- What was dialed by anyone but the watcher. -/
def dialed (past : List (Site × Move)) : List Endpoint :=
  past.flatMap fun entry => entry.1.dialedBy entry.2

/-- Nothing begins a new generation and no caller is failed by the store. -/
structure Undisturbed (past : List (Site × Move)) : Prop where
  unrenewed : ∀ entry ∈ past, entry.1.renews entry.2 = false
  unfailed : ∀ site who key, (site, .step who) ∈ past → ¬ site.Fails who (.resolve key)

/-- Whether a move begins a new generation, or takes an answer by which the store fails a reading. -/
def disturbs (entry : Site × Move) : Bool :=
  entry.1.renews entry.2 || match entry.2 with
    | .step who => entry.1.isFailed who
    | _ => false

/-- A scan is the only one that callers have made, and all that they have dialed is what it has found. -/
structure Shared (past : List (Site × Move)) (site : Site) (stamp : Stamp) (rows : List Row) : Prop where
  scanned : ∃ reader key, (site, .step reader) ∈ past ∧ site.Scans reader (.resolve key) stamp rows
  once : rootScans past = 1
  dialed : dialed past = (EndpointKey.ofRows site.registry.config.root rows).filterMap
    (site.registry.dialing stamp.options site.clock).endpoint?

/-- A caller was handed the list of a scan, or has come to a cache that was filled and was handed what the
watcher has read since. -/
def Handed (past : List (Site × Move)) (site : Site) (stamp : Stamp) (rows : List Row) (who : Nat)
    (listing : Listing) : Prop :=
  ∃ late progress key, (late, .step who) ∈ past ∧ late.progress? who = some progress ∧
    progress.sought? = some key ∧ (listing = site.found stamp rows key ∨
      progress = .looking key ∧ late.registry.cache.filled.isSome = true ∧
        ∃ entry ∈ past, entry.1.Rereads entry.2)

theorem Handed.mono {past later : List (Site × Move)} {site : Site} {stamp : Stamp} {rows : List Row}
    {who : Nat} {listing : Listing} (h : Handed past site stamp rows who listing)
    (hsub : past ⊆ later) : Handed later site stamp rows who listing := by
  obtain ⟨late, progress, key, hmem, hprogress, hsought, hlisting⟩ := h
  refine ⟨late, progress, key, hsub hmem, hprogress, hsought, hlisting.imp_right ?_⟩
  rintro ⟨hlooking, hfilled, entry, hentry, hrereads⟩
  exact ⟨hlooking, hfilled, entry, hsub hentry, hrereads⟩

theorem Undisturbed.of_append {past later : List (Site × Move)} (h : Undisturbed (past ++ later)) :
    Undisturbed past :=
  ⟨fun entry hmem => h.unrenewed entry (List.mem_append_left _ hmem),
    fun site who key hmem => h.unfailed site who key (List.mem_append_left _ hmem)⟩

theorem undisturbed_of_all {past : List (Site × Move)}
    (h : (past.all fun entry => !disturbs entry) = true) : Undisturbed past := by
  have hquiet : ∀ entry ∈ past, disturbs entry = false := by simpa using h
  refine ⟨fun entry hmem => (Bool.or_eq_false_iff.1 (hquiet entry hmem)).1,
    fun site who key hmem hfails => ?_⟩
  have hnot : site.isFailed who = false := (Bool.or_eq_false_iff.1 (hquiet _ hmem)).2
  rw [hfails.isFailed] at hnot
  cases hnot

section
variable {past : List (Site × Move)} {site : Site} {move : Move}

theorem rootScans_append : rootScans (past ++ [(site, move)]) =
    rootScans past + if site.asksRoot move = true then 1 else 0 := by
  rw [rootScans, List.countP_append, List.countP_singleton]
  rfl

theorem dialed_append : dialed (past ++ [(site, move)]) = dialed past ++ site.dialedBy move := by
  simp [dialed]

/-- A move in which callers neither ask nor dial does not concern the scan that they share. -/
theorem Shared.append {early : Site} {stamp : Stamp} {rows : List Row} (h : Shared past early stamp rows)
    (hasks : site.asksRoot move = false) (hdials : site.dialedBy move = []) :
    Shared (past ++ [(site, move)]) early stamp rows := by
  obtain ⟨⟨reader, key, hmem, hscans⟩, honce, hdialed⟩ := h
  refine ⟨⟨reader, key, List.mem_append_left _ hmem, hscans⟩, ?_, ?_⟩
  · rw [rootScans_append, hasks, honce]
    rfl
  · rw [dialed_append, hdials, hdialed, List.append_nil]

end

namespace Site

variable {site after : Site} {move : Move} {who : Nat}

theorem asksRoot_iff : site.asksRoot move = true ↔
    ∃ who key stamp, move = .step who ∧ site.Stamps who (.resolve key) stamp := by
  constructor
  · intro hasks
    cases move with
    | step who =>
      simp only [asksRoot] at hasks
      split at hasks
      · rename_i key hactivity
        have hopen : site.registry.cache.closed = false := by simpa using hasks
        refine ⟨who, key, ⟨site.registry.cache.generation, site.registry.cache.options⟩, rfl,
          hactivity, ?_⟩
        rw [Cache.stamp, if_neg (by simp [hopen])]
      · cases hasks
    | _ => cases hasks
  · rintro ⟨who, key, stamp, rfl, hactivity, hstamp⟩
    simp [asksRoot, hactivity, (Cache.of_stamp hstamp).1]

theorem dialedBy_step (hne : who ≠ Registry.watcher) : site.dialedBy (.step who) = site.dialsOf who := by
  rw [dialedBy, if_neg hne, dials_step, List.drop_left]

theorem Scans.dialsOf {errand : Errand} {stamp : Stamp} {rows : List Row}
    (h : site.Scans who errand stamp rows) : site.dialsOf who =
      (errand.instances (EndpointKey.ofRows site.registry.config.root rows)).filterMap
        (site.registry.dialing stamp.options site.clock).endpoint? := by
  obtain ⟨flight, mid, hactivity, hreceive⟩ := h
  simp only [Site.dialsOf, hactivity, dialsFrom, hreceive]

/-- Who does not scan dials nothing. -/
theorem dialedBy_eq_nil (h : ∀ who errand stamp rows, move = .step who → who ≠ Registry.watcher →
    ¬ site.Scans who errand stamp rows) : site.dialedBy move = [] := by
  cases move with
  | step who =>
    by_cases hwho : who = Registry.watcher
    · exact if_pos hwho
    · rw [dialedBy_step hwho, Site.dialsOf]
      split
      · rename_i progress hactivity
        unfold dialsFrom
        split
        · rename_i errand stamp flight
          rcases hreceive : site.receive flight with ⟨e | rows, mid⟩
          · rfl
          · exact absurd ⟨flight, mid, hactivity, hreceive⟩ (h who errand stamp rows rfl hwho)
        · rfl
      · rfl
  | _ => rfl

/-- While a caller is behind the gate, no other one asks the store or dials. -/
theorem Orderly.alone (h : site.Orderly) {reader : Nat} {errand : Errand} {build : Build}
    (hbuild : site.progress? reader = some (.building errand build)) (hinside : build.isInside = true)
    (hother : move ≠ .step reader) : site.asksRoot move = false ∧ site.dialedBy move = [] := by
  constructor
  · rw [Bool.eq_false_iff]
    intro hasks
    obtain ⟨who, key, stamp, rfl, hactivity, -⟩ := asksRoot_iff.1 hasks
    obtain ⟨rfl, -, -⟩ := h.unique hbuild hinside (progress?_of_activity hactivity) rfl
    exact hother rfl
  · refine dialedBy_eq_nil fun who other stamp rows hmove _ hscans => ?_
    obtain ⟨flight, mid, hactivity, -⟩ := hscans
    obtain ⟨rfl, -, -⟩ := h.unique hbuild hinside (progress?_of_activity hactivity) rfl
    exact hother hmove

/-! ## Before the cache is filled -/

/-- How far the reading for the callers has come. -/
inductive Underway (past : List (Site × Move)) (site : Site) : Prop
  | idle (hscans : rootScans past = 0) (hdialed : dialed past = [])
      (hnone : ∀ who errand build, site.progress? who = some (.building errand build) →
        build.stamp? = none)
  | scanning {reader : Nat} {key : ServiceKey} {stamp : Stamp} {flight : Flight .getPrefix}
      (hreader : site.progress? reader = some (.building (.resolve key) (.scanning stamp flight)))
      (hcurrent : stamp.generation = site.registry.cache.generation)
      (hscans : rootScans past = 1) (hdialed : dialed past = [])
  | dialing {reader : Nat} {key : ServiceKey} {stamp : Stamp} {early : Site} {rows : List Row} {due : Nat}
      (hreader : site.progress? reader = some (.building (.resolve key) (.dialing stamp
        (early.reading stamp) (EndpointKey.ofRows early.registry.config.root rows) due)))
      (hcurrent : stamp.generation = site.registry.cache.generation)
      (hshared : Shared past early stamp rows)

/-- A registry that has just begun has read nothing. -/
theorem unread_start {store : Store} {config : Config} {dialer : Dialer} {faults : Faults} :
    (start store config dialer faults).Unread := by
  refine ⟨rfl, fun who errand build hbuild => ?_⟩
  cases (progress?_start hbuild).2

section
variable {past : List (Site × Move)}

/-- Who finds the cache to be filled asks for the root. -/
theorem Underway.of_stamps {key : ServiceKey} {stamp : Stamp}
    (hstamps : site.Stamps who (.resolve key) stamp) (hscans : rootScans past = 0)
    (hdialed : dialed (past ++ [(site, .step who)]) = []) :
    Underway (past ++ [(site, .step who)]) (site.step who) := by
  have hasks : site.asksRoot (.step who) = true := asksRoot_iff.2 ⟨who, key, stamp, rfl, hstamps⟩
  obtain ⟨-, hcache, -, flight, hscanning⟩ := hstamps.step
  refine .scanning hscanning ?_ ?_ hdialed
  · rw [hcache, (Cache.of_stamp hstamps.2).2]
  · rw [rootScans_append, hscans, hasks]
    rfl

/-- Where no caller asks for the root, nobody comes to hold a stamp. -/
theorem stamp?_moved (hreaders : ∀ who errand build,
      site.progress? who = some (.building errand build) → errand.changes? = none)
    (hnone : ∀ who errand build, site.progress? who = some (.building errand build) →
      build.stamp? = none)
    (hmove : site.after move = some after) (hasks : site.asksRoot move = false) {errand : Errand}
    {build : Build} (hbuild : after.progress? who = some (.building errand build)) :
    build.stamp? = none := by
  by_contra hstamp
  obtain ⟨stamp, hstamp⟩ := Option.ne_none_iff_exists'.1 hstamp
  rcases (moved_of_after hmove).stamped_cases hbuild hstamp with
    ⟨former, hbefore, hheld⟩ | ⟨rfl, hactivity, htaken⟩
  · rw [hnone who errand former hbefore] at hheld
    cases hheld
  · cases errand with
    | resolve key =>
      rw [asksRoot_iff.2 ⟨who, key, _, rfl, hactivity, htaken⟩] at hasks
      cases hasks
    | refresh | rebuild => cases hreaders who _ _ (progress?_of_activity hactivity)

/-- What the store has answered a caller is dialed. -/
theorem Underway.of_scans (harranged : site.Arranged) {key : ServiceKey} {stamp : Stamp}
    {rows : List Row} (hscan : site.Scans who (.resolve key) stamp rows)
    (hcurrent : stamp.generation = site.registry.cache.generation) (hscans : rootScans past = 1)
    (hdialed : dialed past = []) :
    Underway (past ++ [(site, .step who)]) (site.step who) := by
  obtain ⟨hcache, due, hdialing⟩ := hscan.step
  obtain ⟨flight, mid, hactivity, -⟩ := id hscan
  have hnot : site.asksRoot (.step who) = false := by simp [asksRoot, hactivity]
  have hwho : who ≠ Registry.watcher := by
    rintro rfl
    obtain ⟨met, hmet, hbackground⟩ := harranged.backed.watcher
    rw [progress?_of_activity hactivity] at hmet
    cases hmet
    cases hbackground
  refine .dialing hdialing (hcache ▸ hcurrent) ⟨⟨who, key, by simp, hscan⟩, ?_, ?_⟩
  · rw [rootScans_append, hscans, hnot]
    rfl
  · rw [dialed_append, hdialed, dialedBy_step hwho, hscan.dialsOf]
    rfl

/-- As long as the cache is not filled, the reading goes on. -/
theorem Underway.moved (h : Underway past site) (harranged : site.Arranged)
    (hreaders : ∀ who errand build, site.progress? who = some (.building errand build) →
      errand.changes? = none)
    (hmove : site.after move = some after) (hcache : after.registry.cache = site.registry.cache)
    (hfilled : site.registry.cache.filled = none)
    (hfails : ∀ who key, move = .step who → ¬ site.Fails who (.resolve key)) :
    Underway (past ++ [(site, move)]) after := by
  have horderly := harranged.orderly
  cases h with
  | idle hscans hdialed hnone =>
    have hdials : dialed (past ++ [(site, move)]) = [] := by
      rw [dialed_append, hdialed, dialedBy_eq_nil, List.append_nil]
      rintro who errand stamp rows - - ⟨flight, mid, hactivity, -⟩
      cases hnone who _ _ (progress?_of_activity hactivity)
    cases hasks : site.asksRoot move with
    | true =>
      obtain ⟨who, key, stamp, rfl, hstamps⟩ := asksRoot_iff.1 hasks
      obtain ⟨-, rfl⟩ := of_after_step hmove
      exact .of_stamps hstamps hscans hdials
    | false =>
      refine .idle ?_ hdials fun who errand build => stamp?_moved hreaders hnone hmove hasks
      rw [rootScans_append, hscans, hasks]
      rfl
  | @scanning reader key stamp flight hreader hcurrent hscans hdialed =>
    by_cases hown : move = .step reader
    · subst hown
      obtain ⟨-, rfl⟩ := of_after_step hmove
      have hactivity := harranged.backed.activity_of_progress? hreader rfl
      rcases hreceive : site.receive flight with ⟨e | rows, mid⟩
      · exact absurd ⟨stamp, flight, e, mid, hactivity, hreceive⟩ (hfails reader key rfl)
      · exact .of_scans harranged ⟨flight, mid, hactivity, hreceive⟩ hcurrent hscans hdialed
    · obtain ⟨hasks, hdials⟩ := horderly.alone hreader rfl hown
      refine .scanning (progress?_of_other hmove hown hreader) (hcache ▸ hcurrent) ?_ ?_
      · rw [rootScans_append, hscans, hasks]
        rfl
      · rw [dialed_append, hdialed, hdials]
        rfl
  | @dialing reader key stamp early rows due hreader hcurrent hshared =>
    by_cases hown : move = .step reader
    · -- the reading would be put in
      subst hown
      obtain ⟨-, rfl⟩ := of_after_step hmove
      have hput :=
        (horderly.fills (harranged.backed.activity_of_progress? hreader rfl) hcurrent).2
      rw [hcache, hfilled] at hput
      cases hput
    · obtain ⟨hasks, hdials⟩ := horderly.alone hreader rfl hown
      exact .dialing (progress?_of_other hmove hown hreader) (hcache ▸ hcurrent)
        (hshared.append hasks hdials)

end

/-- The stretch before the cache is filled: who has a list had it before. -/
structure Unfilled (base : Site) (past : List (Site × Move)) (site : Site) : Prop where
  filled : site.registry.cache.filled = none
  readers : ∀ who errand build, site.progress? who = some (.building errand build) →
    errand.changes? = none
  underway : Underway past site
  ended : ∀ who listing, site.progress? who = some (.finished (.ok (.connections listing))) →
    base.progress? who = some (.finished (.ok (.connections listing)))

/-- The activity is a caller that waits at the gate. -/
def Waits (site : Site) (who : Nat) : Prop :=
  ∃ key, site.progress? who = some (.building (.resolve key) .queued)

/-- The cache shows nothing but what the scan has found. -/
def Fresh (site early : Site) (stamp : Stamp) (rows : List Row) : Prop :=
  ∀ key listing, site.registry.cache.Shows key listing → listing = early.found stamp rows key

/-- The stretch after the cache was filled. Callers that wait are ahead of the watcher, and as long as one
waits the cache shows what the scan has found. -/
structure Filled (base early : Site) (stamp : Stamp) (rows : List Row) (past : List (Site × Move))
    (site : Site) : Prop where
  shared : Shared past early stamp rows
  filled : site.registry.cache.filled.isSome = true
  order : site.registry.gate.line.Pairwise fun first second => site.Waits second → site.Waits first
  fresh : ∀ who, site.Waits who → site.Fresh early stamp rows
  shown : site.Fresh early stamp rows ∨ ∃ entry ∈ past, entry.1.Rereads entry.2
  dialing : ∀ who errand taken reading keys due,
    site.progress? who = some (.building errand (.dialing taken reading keys due)) →
      ∃ entry ∈ past, entry.1.Rereads entry.2
  ended : ∀ who listing, site.progress? who = some (.finished (.ok (.connections listing))) →
    base.progress? who = some (.finished (.ok (.connections listing))) ∨
      Handed past early stamp rows who listing

/-- In a cache that is to be filled only callers come to the gate. -/
theorem Turn.changes?_of_unfilled {mid : Site} {activity : Activity} {errand : Errand} {build : Build}
    (h : site.Turn who activity (.building errand build) mid) (hfilled : site.registry.cache.filled = none)
    (hreader : ∀ errand build, activity.progress = .building errand build → errand.changes? = none) :
    errand.changes? = none := by
  cases h with
  | quiet happart => cases happart
  | miss => rfl
  | advance => exact hreader _ _ rfl
  | refresh => cases hreader _ _ rfl
  | relay hsome | relayAll hsome =>
    rw [hfilled] at hsome
    cases hsome

theorem readers_moved (hfilled : site.registry.cache.filled = none)
    (hreaders : ∀ who errand build, site.progress? who = some (.building errand build) →
      errand.changes? = none) (hmove : site.after move = some after) {errand : Errand} {build : Build}
    (hbuild : after.progress? who = some (.building errand build)) : errand.changes? = none := by
  rcases (moved_of_after hmove).progress_cases hbuild with
    ⟨-, hbefore | hbegins⟩ | ⟨activity, mid, -, -, hactivity, hturn, -⟩
  · exact hreaders who errand build hbefore
  · cases hbegins
  · exact hturn.changes?_of_unfilled hfilled fun errand build hformer =>
      hreaders who errand build (hformer ▸ progress?_of_activity hactivity)

/-- A reader of a cache that is to be filled is a caller. -/
theorem exists_resolve_of_changes? {errand : Errand} (h : errand.changes? = none) :
    ∃ key, errand = .resolve key := by
  cases errand with
  | resolve key => exact ⟨key, rfl⟩
  | refresh | rebuild => cases h

/-- At a cache that is filled callers are in front of the gate. -/
theorem Orderly.queued_of_filled (h : site.Orderly)
    (hfilled : site.registry.cache.filled.isSome = true) {key : ServiceKey} {build : Build}
    (hbuild : site.progress? who = some (.building (.resolve key) build)) : build = .queued := by
  cases build with
  | queued => rfl
  | _ =>
    rw [h.resolving who key _ hbuild rfl] at hfilled
    cases hfilled

/-- The reading for the callers is the only one behind the gate. -/
theorem Underway.of_dialing {past : List (Site × Move)} (h : Underway past site) (horderly : site.Orderly)
    {errand : Errand} {stamp : Stamp} {reading : Reading} {keys : List EndpointKey} {due : Nat}
    (hdialing : site.progress? who = some (.building errand (.dialing stamp reading keys due))) :
    stamp.generation = site.registry.cache.generation ∧ ∃ early rows, Shared past early stamp rows ∧
      reading = early.reading stamp ∧ keys = EndpointKey.ofRows early.registry.config.root rows := by
  cases h with
  | idle hscans hdialed hnone => cases hnone who _ _ hdialing
  | scanning hreader =>
    obtain ⟨-, -, hsame⟩ := horderly.unique hreader rfl hdialing rfl
    cases hsame
  | dialing hreader hcurrent hshared =>
    obtain ⟨-, -, hsame⟩ := horderly.unique hreader rfl hdialing rfl
    cases hsame
    exact ⟨hcurrent, _, _, hshared, rfl, rfl⟩

section
variable {base : Site} {past : List (Site × Move)} (h : Unfilled base past site)
  (hmove : site.after move = some after)
include h hmove

/-- Who is handed a list by a cache that is to be filled has read it. -/
theorem Unfilled.ended_cases {listing : Listing}
    (hended : after.progress? who = some (.finished (.ok (.connections listing)))) :
    base.progress? who = some (.finished (.ok (.connections listing))) ∨
      ∃ key stamp reading keys due, move = .step who ∧
        site.registry.activities[who]? =
          some ⟨.building (.resolve key) (.dialing stamp reading keys due), false⟩ ∧
        listing = ⟨reading, (site.registry.dialing stamp.options reading.time).connections keys key⟩ := by
  rcases (moved_of_after hmove).progress_cases hended with
    ⟨-, hbefore | hbegins⟩ | ⟨activity, mid, rfl, -, hactivity, hturn, -⟩
  · exact .inl (h.ended who listing hbefore)
  · cases hbegins
  · obtain ⟨key, -, hshown | ⟨stamp, reading, keys, due, rfl, hlisting⟩⟩ := hturn.handed
    · exact absurd hshown (Cache.not_shows_of_filled h.filled)
    · exact .inr ⟨key, stamp, reading, keys, due, rfl, hactivity, hlisting⟩

variable (harranged : site.Arranged)
include harranged

/-- As long as the cache is the same it is not filled. -/
theorem Unfilled.kept (hcache : after.registry.cache = site.registry.cache)
    (hfails : ∀ who key, move = .step who → ¬ site.Fails who (.resolve key)) :
    Unfilled base (past ++ [(site, move)]) after := by
  refine ⟨hcache ▸ h.filled, fun who errand build => readers_moved h.filled h.readers hmove,
    h.underway.moved harranged h.readers hmove hcache h.filled hfails, fun who listing hended => ?_⟩
  rcases h.ended_cases hmove hended with
    hbase | ⟨key, stamp, reading, keys, due, rfl, hactivity, -⟩
  · exact hbase
  · -- the reading would be put in
    obtain ⟨hcurrent, -⟩ :=
      h.underway.of_dialing harranged.orderly (progress?_of_activity hactivity)
    obtain ⟨-, rfl⟩ := of_after_step hmove
    have hput := (harranged.orderly.fills hactivity hcurrent).2
    rw [hcache, h.filled] at hput
    cases hput

/-- Who reads for anybody once the cache is filled is a caller in front of the gate. -/
theorem Unfilled.queued (hsome : after.registry.cache.filled.isSome = true) {other : Nat} {job : Errand}
    {build : Build} (hbuild : after.progress? other = some (.building job build)) :
    build = .queued ∧ ∃ key, job = .resolve key := by
  obtain ⟨key, rfl⟩ := exists_resolve_of_changes? (readers_moved h.filled h.readers hmove hbuild)
  exact ⟨(harranged.moved hmove).orderly.queued_of_filled hsome hbuild, key, rfl⟩

/-- All who are in the line once the cache is filled wait. -/
theorem Unfilled.waits (hsome : after.registry.cache.filled.isSome = true) {other : Nat}
    (hmem : other ∈ after.registry.gate.line) : after.Waits other := by
  obtain ⟨progress, hprogress, hbuilding⟩ := ((harranged.moved hmove).queues.mem_line other).1 hmem
  cases progress with
  | building job build =>
    obtain ⟨rfl, key, rfl⟩ := h.queued hmove harranged hsome hprogress
    exact ⟨key, hprogress⟩
  | _ => cases hbuilding

/-- The reading for the callers fills the cache, and all who are in the line then wait. -/
theorem Unfilled.placed {errand : Errand} {stamp : Stamp} {reading : Reading} {keys : List EndpointKey}
    {due : Nat} (hstep : move = .step who)
    (hactivity : site.registry.activities[who]? =
      some ⟨.building errand (.dialing stamp reading keys due), false⟩)
    (hplaced : site.Placed errand stamp reading keys after.registry.cache)
    (hfilled : after.registry.cache.filled = errand.fills site.registry.cache.filled reading)
    (hpast : ∀ entry ∈ past, entry.1.Precedes site) :
    ∃ early rows, Filled base early stamp rows (past ++ [(site, move)]) after := by
  have horderly := harranged.orderly
  have hdialing := progress?_of_activity hactivity
  obtain ⟨key, rfl⟩ := exists_resolve_of_changes? (h.readers who _ _ hdialing)
  obtain ⟨hcurrent, early, rows, hshared, rfl, rfl⟩ := h.underway.of_dialing horderly hdialing
  have hsome : after.registry.cache.filled.isSome = true := by
    rw [hfilled]
    rfl
  have hsame : site.registry.dialing stamp.options (early.reading stamp).time =
      early.registry.dialing stamp.options early.clock := by
    obtain ⟨reader, other, hmem, -⟩ := hshared.scanned
    exact (hpast _ hmem).dialing_eq _ _
  have hfresh : after.Fresh early stamp rows := by
    intro other listing hshows
    rcases hplaced.shows other listing hshows with ⟨-, hlisting⟩ | ⟨hnot, -⟩
    · rw [hlisting, hsame]
      rfl
    · exact absurd trivial hnot
  refine ⟨early, rows, ⟨?_, hsome, ?_, fun _ _ => hfresh, .inl hfresh, ?_, ?_⟩⟩
  · have hnot : site.asksRoot move = false := by simp [hstep, asksRoot, hactivity]
    refine hshared.append hnot (dialedBy_eq_nil ?_)
    rintro other otherErrand taken found hother - ⟨flight, mid, hscanning, -⟩
    cases hother.symm.trans hstep
    rw [hactivity] at hscanning
    cases hscanning
  · exact List.pairwise_of_forall_mem_list fun first hfirst _ _ _ =>
      h.waits hmove harranged hsome hfirst
  · intro other job taken reading keys due hbuild
    cases (h.queued hmove harranged hsome hbuild).1
  · intro other listing hended
    rcases h.ended_cases hmove hended with
      hbase | ⟨otherKey, taken, reading, keys, due, rfl, hreader, rfl⟩
    · exact .inl hbase
    · cases hstep
      rw [hactivity] at hreader
      cases hreader
      refine .inr ⟨site, _, key, by simp, hdialing, rfl, .inl ?_⟩
      rw [hsame]
      rfl

end

/-! ## After the cache was filled -/

/-- The line in front of the gate gets shorter, or longer by who has come to it. -/
theorem line_moved (harranged : site.Arranged) (hmove : site.after move = some after) :
    ∃ front behind, after.registry.gate.line = front ++ behind ∧
      front.Sublist site.registry.gate.line ∧ ∀ who ∈ behind, move = .step who := by
  have hnodup := harranged.queues.nodup
  cases moved_of_after hmove with
  | @turn who activity next mid hactivity hready hturn hframe =>
    have hself : ∀ other ∈ [who], Move.step who = .step other := fun other hmem =>
      congrArg Move.step (List.mem_singleton.1 hmem).symm
    rw [gate_settle]
    rcases hturn.gate_cases with ⟨hgate, -⟩ | ⟨hgate, -⟩ | ⟨⟨hgate, -⟩ | ⟨hgate, -⟩, -⟩ | ⟨hgate, -⟩
    · exact ⟨_, [], by rw [hgate, List.append_nil], .refl _, nofun⟩
    · exact ⟨_, [who], by rw [hgate, Lock.line_enter], .refl _, hself⟩
    · exact ⟨_, [], by rw [hgate, Lock.line_release, List.append_nil], List.tail_sublist _, nofun⟩
    · exact ⟨_, [who], by rw [hgate, Lock.line_enter, Lock.line_release], List.tail_sublist _, hself⟩
    · exact ⟨_, [], by rw [hgate, Lock.line_leave hnodup, List.append_nil], List.erase_sublist, nofun⟩
  | calm hother hcache hgate hframe =>
    exact ⟨_, [], by rw [hgate, List.append_nil], .refl _, nofun⟩

/-- Nobody begins to wait at a cache that is filled. -/
theorem waits_of_moved (hfilled : site.registry.cache.filled.isSome = true)
    (hmove : site.after move = some after) (hwaits : after.Waits who) :
    site.Waits who ∧ move ≠ .step who := by
  obtain ⟨key, hqueued⟩ := hwaits
  rcases (moved_of_after hmove).progress_cases hqueued with
    ⟨hother, hbefore | hbegins⟩ | ⟨activity, mid, -, -, -, hturn, -⟩
  · exact ⟨⟨key, hbefore⟩, hother⟩
  · cases hbegins
  · cases hturn with
    | quiet happart => cases happart
    | miss hlookup =>
      rw [Cache.filled_of_lookup hlookup] at hfilled
      cases hfilled
    | advance hadvance => cases hadvance
    | refresh hinstall hgoes => cases hgoes
    | relay hsome hgoes => cases hgoes

/-- Who waits at a cache that is filled goes on waiting as long as it is in the line. -/
theorem waits_moved (hfilled : site.registry.cache.filled.isSome = true)
    (hmove : site.after move = some after) (hwaits : site.Waits who)
    (hstands : after.Stands Progress.isBuilding who) : after.Waits who := by
  obtain ⟨key, hqueued⟩ := hwaits
  by_cases hown : move = .step who
  · obtain ⟨progress, hprogress, hbuilding⟩ := hstands
    subst hown
    cases progress with
    | building errand build =>
      rcases (moved_of_after hmove).progress_cases hprogress with
        ⟨hother, -⟩ | ⟨activity, mid, -, -, hactivity, hturn, -⟩
      · exact absurd rfl hother
      · rw [progress?_of_activity hactivity] at hqueued
        cases hturn with
        | quiet happart => cases happart
        | miss => cases hqueued
        | advance hadvance =>
          cases hqueued
          cases hadvance with
          | enter hlookup =>
            rw [Cache.filled_of_lookup (hlookup key rfl)] at hfilled
            cases hfilled
        | refresh => cases hqueued
        | relay => cases hqueued
        | relayAll => cases hqueued
    | _ => cases hbuilding
  · exact ⟨key, progress?_of_other hmove hown hqueued⟩

section
variable {base early : Site} {stamp : Stamp} {rows : List Row} {past : List (Site × Move)}
  (h : Filled base early stamp rows past site) (harranged : site.Arranged)
include h harranged

/-- Callers neither ask the store nor dial for a cache that is filled. -/
theorem Filled.unasked : site.asksRoot move = false ∧ site.dialedBy move = [] := by
  constructor
  · rw [Bool.eq_false_iff]
    intro hasks
    obtain ⟨who, key, taken, rfl, hactivity, -⟩ := asksRoot_iff.1 hasks
    cases harranged.orderly.queued_of_filled h.filled (progress?_of_activity hactivity)
  · refine dialedBy_eq_nil fun who errand taken found _ hwho hscans => ?_
    obtain ⟨flight, mid, hactivity, -⟩ := hscans
    have hprogress := progress?_of_activity hactivity
    cases errand with
    | resolve key => cases harranged.orderly.queued_of_filled h.filled hprogress
    | refresh | rebuild => exact hwho (harranged.orderly.watching who _ hprogress rfl)

/-- Callers that wait stay ahead of the watcher. -/
theorem Filled.order_moved (hmove : site.after move = some after) :
    after.registry.gate.line.Pairwise fun first second => after.Waits second → after.Waits first := by
  obtain ⟨front, behind, hline, hsub, hnew⟩ := line_moved harranged hmove
  have hnext := harranged.moved hmove
  have hlast : ∀ who ∈ behind, ¬ after.Waits who := fun who hmem hwaits =>
    (waits_of_moved h.filled hmove hwaits).2 (hnew who hmem)
  rw [hline, List.pairwise_append]
  refine ⟨(h.order.sublist hsub).imp_of_mem fun {first second} hfirst _ hahead hwaits => ?_,
    List.pairwise_of_forall_mem_list fun first _ second hsecond hwaits =>
      absurd hwaits (hlast second hsecond),
    fun first _ second hsecond hwaits => absurd hwaits (hlast second hsecond)⟩
  refine waits_moved h.filled hmove (hahead (waits_of_moved h.filled hmove hwaits).1)
    ((hnext.queues.mem_line first).1 ?_)
  rw [hline]
  exact List.mem_append_left _ hfirst

/-- Nobody waits when the watcher has come through the gate. -/
theorem Filled.not_waits {errand : Errand} {build : Build}
    (hbuild : site.progress? who = some (.building errand build)) (hinside : build.isInside = true)
    (other : Nat) : ¬ site.Waits other := by
  rintro ⟨key, hqueued⟩
  have hne : who ≠ other := by
    rintro rfl
    rw [hbuild] at hqueued
    cases hqueued
    cases hinside
  have hmem : other ∈ site.registry.gate.line := (harranged.queues.mem_line other).2 ⟨_, hqueued, rfl⟩
  have hholder := harranged.orderly.exclusive who errand build hbuild hinside
  rw [Lock.holder?_eq_head?] at hholder
  obtain ⟨rest, hline⟩ := List.head?_eq_some_iff.1 hholder
  have horder := h.order
  rw [hline] at hmem horder
  obtain ⟨waiting, hfirst⟩ := List.rel_of_pairwise_cons horder
    ((List.mem_cons.1 hmem).resolve_left hne.symm) ⟨key, hqueued⟩
  rw [hbuild] at hfirst
  cases hfirst
  cases hinside

/-- Who is handed a list by a cache that is filled has waited for it, or has looked into the cache. -/
theorem Filled.ended_moved (hmove : site.after move = some after) {listing : Listing}
    (hended : after.progress? who = some (.finished (.ok (.connections listing)))) :
    base.progress? who = some (.finished (.ok (.connections listing))) ∨
      Handed (past ++ [(site, move)]) early stamp rows who listing := by
  have hsub : past ⊆ past ++ [(site, move)] := List.subset_append_left _ _
  rcases (moved_of_after hmove).progress_cases hended with
    ⟨-, hbefore | hbegins⟩ | ⟨activity, mid, rfl, -, hactivity, hturn, -⟩
  · exact (h.ended who listing hbefore).imp_right fun hhanded => hhanded.mono hsub
  · cases hbegins
  · have hprogress := progress?_of_activity hactivity
    cases hturn with
    | quiet hnext hlisting => cases hlisting
    | @hit key _ hlookup =>
      refine .inr ⟨site, _, key, by simp, hprogress, rfl, ?_⟩
      rcases h.shown with hfresh | ⟨entry, hmem, hrereads⟩
      · exact .inl (hfresh key listing (Cache.shows_of_lookup hlookup))
      · exact .inr ⟨rfl, h.filled, entry, hsub hmem, hrereads⟩
    | @found key _ hlookup =>
      exact .inr ⟨site, _, key, by simp, hprogress, rfl,
        .inl (h.fresh who ⟨key, hprogress⟩ key listing (Cache.shows_of_lookup hlookup))⟩
    | resolve hinstall => cases harranged.orderly.queued_of_filled h.filled hprogress
    | refresh hinstall hgoes => cases hgoes
    | relay hfilled hgoes => cases hgoes

/-- What is dialed behind the gate of a cache that is filled was read by the watcher. -/
theorem Filled.dialing_moved (hmove : site.after move = some after) {errand : Errand} {taken : Stamp}
    {reading : Reading} {keys : List EndpointKey} {due : Nat}
    (hdialing : after.progress? who = some (.building errand (.dialing taken reading keys due))) :
    ∃ entry ∈ past ++ [(site, move)], entry.1.Rereads entry.2 := by
  rcases (moved_of_after hmove).inside_cases hdialing rfl with
    ⟨-, hbefore⟩ | ⟨former, mid, rfl, -, hactivity, hadvance, -⟩
  · obtain ⟨entry, hmem, hrereads⟩ := h.dialing _ _ _ _ _ _ hbefore
    exact ⟨entry, List.mem_append_left _ hmem, hrereads⟩
  · cases hadvance with
    | scan hreceive hregistry hstore =>
      refine ⟨(site, .step who), by simp, who, errand, taken, _, rfl, ?_, _, _, hactivity, hreceive⟩
      cases errand with
      | resolve key => cases harranged.orderly.queued_of_filled h.filled (progress?_of_activity hactivity)
      | refresh | rebuild => rfl

/-- A cache that is filled stays so as long as no new generation begins. -/
theorem Filled.moved (hmove : site.after move = some after) (hquiet : site.renews move = false)
    (hopen : after.registry.cache.closed = false) :
    Filled base early stamp rows (past ++ [(site, move)]) after := by
  have hfate := (moved_of_after hmove).fate
  have hwaits : ∀ other, after.Waits other → site.Waits other := fun other hwaits =>
    (waits_of_moved h.filled hmove hwaits).1
  obtain ⟨hasks, hdials⟩ : site.asksRoot move = false ∧ site.dialedBy move = [] := h.unasked harranged
  have hrereads : (∃ entry ∈ past, entry.1.Rereads entry.2) →
      ∃ entry ∈ past ++ [(site, move)], entry.1.Rereads entry.2 :=
    fun ⟨entry, hmem, hentry⟩ => ⟨entry, List.mem_append_left _ hmem, hentry⟩
  obtain ⟨hfilled, hfresh, hshown⟩ : after.registry.cache.filled.isSome = true ∧
      (∀ other, after.Waits other → after.Fresh early stamp rows) ∧
      (after.Fresh early stamp rows ∨ ∃ entry ∈ past ++ [(site, move)], entry.1.Rereads entry.2) := by
    generalize hcache : after.registry.cache = cache at hfate
    cases hfate with
    | kept =>
      have hsame : site.Fresh early stamp rows → after.Fresh early stamp rows :=
        fun hfresh key listing hshows => hfresh key listing (hcache ▸ hshows)
      exact ⟨h.filled, fun other hother => hsame (h.fresh other (hwaits other hother)),
        h.shown.imp hsame hrereads⟩
    | renewed hrenews =>
      rw [hquiet] at hrenews
      cases hrenews
    | closed hclosed =>
      rw [hcache, hclosed] at hopen
      cases hopen
    | placed hstep hactivity _ hplaced hfilled =>
      have hdialing := progress?_of_activity hactivity
      exact ⟨hfilled ▸ Errand.isSome_fills h.filled _,
        fun other hother => absurd (hwaits other hother) (h.not_waits harranged hdialing rfl other),
        .inr (hrereads (h.dialing _ _ _ _ _ _ hdialing))⟩
  exact ⟨h.shared.append hasks hdials, hfilled, h.order_moved harranged hmove, hfresh, hshown,
    fun who errand taken reading keys due => h.dialing_moved harranged hmove,
    fun who listing => h.ended_moved harranged hmove⟩

end

/-- The stretch of a run in which nothing disturbs the callers. -/
theorem stretch_of_run {base final : Site} {moves : List Move} (harranged : base.Arranged)
    (hunread : base.Unread) (hrun : base.run moves = some final)
    (hundisturbed : Undisturbed (base.history moves)) (hopen : final.registry.cache.closed = false) :
    Unfilled base (base.history moves) final ∨
      ∃ early stamp rows, Filled base early stamp rows (base.history moves) final := by
  refine (history_induction (P := fun past site => site.Arranged ∧ (Undisturbed past →
    site.registry.cache.closed = false → Unfilled base past site ∨
      ∃ early stamp rows, Filled base early stamp rows past site)) ⟨harranged, fun _ _ => .inl ?_⟩ ?_
    hrun).2 hundisturbed hopen
  · refine ⟨hunread.filled, fun who errand build hbuild => (hunread.waiting who errand build hbuild).2,
      .idle rfl rfl fun who errand build hbuild => ?_, fun _ _ => id⟩
    rw [(hunread.waiting who errand build hbuild).1]
    rfl
  · rintro before site move after hbefore ⟨hsite, ih⟩ hmove
    refine ⟨hsite.moved hmove, fun hcalm hstill => ?_⟩
    have hfate := (moved_of_after hmove).fate
    have hbeforeOpen : site.registry.cache.closed = false := by
      by_contra hclosed
      rw [hfate.closed_of_closed (by simpa using hclosed)] at hstill
      cases hstill
    have hquiet : site.renews move = false := hcalm.unrenewed (site, move) (by simp)
    have hfails : ∀ who key, move = .step who → ¬ site.Fails who (.resolve key) := by
      rintro who key rfl
      exact hcalm.unfailed site who key (by simp)
    rcases ih hcalm.of_append hbeforeOpen with hunfilled | ⟨early, stamp, rows, hfilled⟩
    · generalize hcache : after.registry.cache = cache at hfate
      cases hfate with
      | kept => exact .inl (hunfilled.kept hmove hsite hcache hfails)
      | renewed hrenews =>
        rw [hquiet] at hrenews
        cases hrenews
      | closed hclosed =>
        rw [hcache, hclosed] at hstill
        cases hstill
      | placed hstep hactivity _ hplaced hput =>
        obtain ⟨early, rows, hfilled⟩ := hunfilled.placed hmove hsite hstep hactivity (hcache ▸ hplaced)
          (hcache ▸ hput) fun entry hmem => by
            obtain ⟨-, next, hnext, hlater⟩ := precedes_of_mem_history hbefore hmem
            exact (precedes_of_after hnext).trans hlater
        exact .inr ⟨early, _, rows, hfilled⟩
    · exact .inr ⟨early, stamp, rows, hfilled.moved hsite hmove hquiet hstill⟩

end Site

end ServiceRegistry
