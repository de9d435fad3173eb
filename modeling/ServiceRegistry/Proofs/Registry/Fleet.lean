import ServiceRegistry.Registry.Fleet
import ServiceRegistry.Proofs.Registry.Calls

/-!
# Members of a fleet

What the others do is to a member of a fleet no more than what other clients do to the store. So a run of
a fleet is to each member a run of its own site, in which it takes the same steps in the same order, and
what holds after every run of a site holds of every member.
-/
namespace ServiceRegistry

/-- A move is seen by others as what it does to the store and the clock. -/
theorem Site.seen_of_after {site after : Site} {move : Move} (h : site.after move = some after) :
    site.Seen after := by
  cases moved_of_after h with
  | turn hactivity hready hturn hframe => exact hframe.seen.trans (.same rfl rfl)
  | calm hmove hcache hgate hframe => exact hframe.seen

namespace Fleet

/-! ## Sites of members -/

section
variable {fleet next : Fleet} {number other : Nat} {site : Site}

theorem site?_withSite_self (h : fleet.site? number = some site) (moved : Site) :
    (fleet.withSite number moved).site? number = some moved := by
  obtain ⟨member, hmember, -⟩ := Option.map_eq_some_iff.1 h
  have hlt := (List.getElem?_eq_some_iff.1 hmember).1
  simp [site?, withSite, List.getElem?_set_self hlt]

theorem site?_withSite_other (hne : other ≠ number) (moved : Site) :
    (fleet.withSite number moved).site? other = (fleet.site? other).map fun site =>
      { site with clock := moved.clock, store := moved.store } := by
  simp [site?, withSite, List.getElem?_set_ne (Ne.symm hne), Function.comp_def]

theorem clock_of_site? (h : fleet.site? number = some site) : site.clock = fleet.clock := by
  obtain ⟨member, -, rfl⟩ := Option.map_eq_some_iff.1 h
  rfl

theorem store_of_site? (h : fleet.site? number = some site) : site.store = fleet.store := by
  obtain ⟨member, -, rfl⟩ := Option.map_eq_some_iff.1 h
  rfl

/-- What happens at a member happens at its site. -/
theorem of_after_member {move : ServiceRegistry.Move} (h : fleet.after (.member number move) = some next) :
    ∃ site moved, fleet.site? number = some site ∧ site.after move = some moved ∧
      next = fleet.withSite number moved := by
  obtain ⟨site, hsite, hrest⟩ := Option.bind_eq_some_iff.1 h
  obtain ⟨moved, hmoved, hnext⟩ := Option.bind_eq_some_iff.1 hrest
  exact ⟨site, moved, hsite, hmoved, (Option.some.inj hnext).symm⟩

theorem after_member {move : ServiceRegistry.Move} {moved : Site} (hsite : fleet.site? number = some site)
    (hmove : site.after move = some moved) :
    fleet.after (.member number move) = some (fleet.withSite number moved) := by
  simp only [after, hsite, Option.bind_eq_bind, Option.bind_some, hmove]
  rfl

/-- A registry that begins leaves those before it where they are. -/
theorem site?_join {config : Config} {dialer : Dialer} {faults : Faults}
    (h : fleet.after (.join config dialer faults) = some next) (number : Nat) :
    next.site? number = if number = fleet.members.length
      then some (fleet.newcomer config dialer faults) else fleet.site? number := by
  cases h
  by_cases hlast : number = fleet.members.length
  · simp [site?, hlast, newcomer]
  · rw [if_neg hlast]
    by_cases hlt : number < fleet.members.length
    · simp [site?, List.getElem?_append_left hlt]
    · have hend : fleet.members.length + 1 ≤ number := by omega
      have hjoined : (fleet.members ++ [(newcomer fleet config dialer faults |>.client,
          Registry.start config dialer)]).length ≤ number := by simpa using hend
      simp only [site?]
      rw [List.getElem?_eq_none (Nat.le_of_succ_le hend)]
      exact congrArg _ (List.getElem?_eq_none hjoined)

end

/-! ## Moves of a run -/

section
variable {first mid past : Fleet} {moves later : List Move} {move : Move}

theorem Made.append (h : first.Made moves past move later) (more : List Move) :
    first.Made (moves ++ more) past move (later ++ more) := by
  obtain ⟨before, rfl, hbefore⟩ := h
  exact ⟨before, by simp, hbefore⟩

theorem made_last (h : first.run moves = some past) (move : Move) :
    first.Made (moves ++ [move]) past move [] :=
  ⟨moves, rfl, h⟩

theorem Made.behind {front : List Move} (hfront : first.run front = some mid)
    (h : mid.Made moves past move later) : first.Made (front ++ moves) past move later := by
  obtain ⟨before, rfl, hbefore⟩ := h
  refine ⟨front ++ before, by simp, ?_⟩
  rw [run_append, hfront, Option.bind_some, hbefore]

theorem run_concat {final : Fleet} (h : first.run (moves ++ [move]) = some final) :
    ∃ mid, first.run moves = some mid ∧ mid.after move = some final := by
  rw [run_append] at h
  obtain ⟨mid, hmid, hlast⟩ := Option.bind_eq_some_iff.1 h
  rw [run_cons] at hlast
  obtain ⟨next, hnext, hend⟩ := Option.bind_eq_some_iff.1 hlast
  cases hend
  exact ⟨mid, hmid, hnext⟩

end

/-- A run that begins with a move of a member goes on from where its site has moved. -/
theorem of_run_member {first final : Fleet} {number : Nat} {move : ServiceRegistry.Move}
    {moves : List Move} {site : Site} (hsite : first.site? number = some site)
    (hrun : first.run (.member number move :: moves) = some final) :
    ∃ moved, site.after move = some moved ∧
      first.run [.member number move] = some (first.withSite number moved) ∧
      (first.withSite number moved).run moves = some final := by
  rw [run_cons] at hrun
  obtain ⟨next, hnext, hrest⟩ := Option.bind_eq_some_iff.1 hrun
  obtain ⟨acting, moved, hacting, hmoved, rfl⟩ := of_after_member hnext
  rw [hsite] at hacting
  cases hacting
  refine ⟨moved, hmoved, ?_, hrest⟩
  rw [run_cons, hnext]
  rfl

/-! ## The run of a member -/

/-- What the site of a member does when a fleet makes a move: the same move, if it is one of its own, and
else what is seen of it. -/
def Move.SeenAs (move : Move) (number : Nat) (own : List ServiceRegistry.Move) : Prop :=
  (∃ made, move = .member number made ∧ own = [made]) ∨
    (∀ made, move ≠ .member number made) ∧ ∀ made ∈ own, made.isForeign = true

theorem own_of_after {fleet next : Fleet} {move : Move} (h : fleet.after move = some next)
    {number : Nat} {site : Site} (hsite : fleet.site? number = some site) :
    ∃ own final, next.site? number = some final ∧ site.run own = some final ∧
      move.SeenAs number own := by
  cases move with
  | join config dialer faults =>
    refine ⟨[], site, ?_, rfl, .inr ⟨nofun, nofun⟩⟩
    obtain ⟨member, hmember, -⟩ := Option.map_eq_some_iff.1 hsite
    have hlt := (List.getElem?_eq_some_iff.1 hmember).1
    rw [site?_join h, if_neg (Nat.ne_of_lt hlt), hsite]
  | member other made =>
    obtain ⟨acting, moved, hacting, hmoved, rfl⟩ := of_after_member h
    by_cases hnumber : number = other
    · subst hnumber
      rw [hacting] at hsite
      cases hsite
      refine ⟨[made], moved, site?_withSite_self hacting moved, ?_, .inl ⟨made, rfl, rfl⟩⟩
      rw [Site.run_cons, hmoved]
      rfl
    · obtain ⟨seen, hforeign, hrun⟩ := Site.seen_of_after hmoved
      refine ⟨seen, { site with clock := moved.clock, store := moved.store }, ?_, ?_, .inr ⟨?_, hforeign⟩⟩
      · rw [site?_withSite_other hnumber, hsite]
        rfl
      · refine hrun site ?_ ?_
        · rw [clock_of_site? hsite, clock_of_site? hacting]
        · rw [store_of_site? hsite, store_of_site? hacting]
      · rintro same ⟨⟩
        exact hnumber rfl

/-- The steps of a member in a run are just those of its site, taken at the same sites. -/
def Follows (first : Fleet) (moves : List Move) (number : Nat) (past : List (Site × ServiceRegistry.Move)) :
    Prop :=
  ∀ site who, (site, .step who) ∈ past → ∃ fleet later,
    first.Made moves fleet (.member number (.step who)) later ∧ fleet.site? number = some site

theorem Follows.moved {first mid : Fleet} {moves : List Move} {move : Move} {number : Nat}
    {origin site : Site} {front own : List ServiceRegistry.Move}
    (h : first.Follows moves number (origin.history front)) (hmid : first.run moves = some mid)
    (hfront : origin.run front = some site) (hsite : mid.site? number = some site)
    (hseen : move.SeenAs number own) :
    first.Follows (moves ++ [move]) number (origin.history (front ++ own)) := by
  intro early who hmem
  rw [Site.history_append hfront] at hmem
  rcases List.mem_append.1 hmem with hbefore | hown
  · obtain ⟨fleet, later, hmade, hearly⟩ := h early who hbefore
    exact ⟨fleet, later ++ [move], hmade.append _, hearly⟩
  · rcases hseen with ⟨made, rfl, rfl⟩ | ⟨-, hforeign⟩
    · have hlast : (early, .step who) = (site, made) := by
        rw [Site.history] at hown
        rcases List.mem_cons.1 hown with hlast | hnone
        · exact hlast
        · cases hnext : site.after made with
          | none => simp [hnext] at hnone
          | some next => simp [hnext, Site.history] at hnone
      cases hlast
      exact ⟨mid, [], made_last hmid _, hsite⟩
    · exact absurd (hforeign _ (Site.mem_of_mem_history hown)) Bool.false_ne_true

/-- A member goes on at its own site while the fleet goes on. -/
theorem own_of_run {first fleet : Fleet} {moves : List Move} (hrun : first.run moves = some fleet)
    {number : Nat} {site : Site} (hsite : first.site? number = some site) :
    ∃ own final, fleet.site? number = some final ∧ site.run own = some final ∧
      first.Follows moves number (site.history own) := by
  induction moves using List.reverseRecOn generalizing fleet with
  | nil =>
    cases hrun
    exact ⟨[], site, hsite, rfl, fun _ _ hmem => absurd hmem List.not_mem_nil⟩
  | append_singleton moves move ih =>
    obtain ⟨mid, hmid, hmove⟩ := run_concat hrun
    obtain ⟨front, there, hthere, hfront, hfollows⟩ := ih hmid
    obtain ⟨own, final, hfinal, hown, hseen⟩ := own_of_after hmove hthere
    refine ⟨front ++ own, final, hfinal, ?_, hfollows.moved hmid hfront hthere hseen⟩
    rw [Site.run_append, hfront, Option.bind_some, hown]

/-- A registry that begins late might as well have been there and done nothing. -/
theorem newcomer_of_run {store : Store} {fleet : Fleet} {moves : List Move}
    (hrun : (start store).run moves = some fleet) (config : Config) (dialer : Dialer)
    (faults : Faults) :
    ∃ own, (∀ made ∈ own, made.isForeign = true) ∧
      (Site.start store config dialer faults).run own = some (fleet.newcomer config dialer faults) := by
  induction moves using List.reverseRecOn generalizing fleet with
  | nil =>
    cases hrun
    exact ⟨[], nofun, rfl⟩
  | append_singleton moves move ih =>
    obtain ⟨mid, hmid, hmove⟩ := run_concat hrun
    obtain ⟨own, hforeign, hown⟩ := ih hmid
    cases move with
    | join =>
      cases hmove
      refine ⟨own, hforeign, hown.trans ?_⟩
      simp only [newcomer]
    | member other made =>
      obtain ⟨acting, moved, hacting, hmoved, rfl⟩ := of_after_member hmove
      obtain ⟨seen, hothers, hseen⟩ := Site.seen_of_after hmoved
      refine ⟨own ++ seen, ?_, ?_⟩
      · intro made hmem
        exact (List.mem_append.1 hmem).elim (hforeign made) (hothers made)
      · have hlater := hseen (mid.newcomer config dialer faults) (clock_of_site? hacting).symm
          (store_of_site? hacting).symm
        rw [Site.run_append, hown, Option.bind_some, hlater]
        rfl

/-- Each member is where a run of its own site has led, from the beginning of the fleet on. -/
theorem site_of_run {store : Store} {fleet : Fleet} {moves : List Move}
    (hrun : (start store).run moves = some fleet) {number : Nat} {site : Site}
    (hsite : fleet.site? number = some site) :
    ∃ config dialer faults own, .join config dialer faults ∈ moves ∧
      (Site.start store config dialer faults).run own = some site ∧
      (start store).Follows moves number ((Site.start store config dialer faults).history own) := by
  induction moves using List.reverseRecOn generalizing fleet site with
  | nil =>
    cases hrun
    cases hsite
  | append_singleton moves move ih =>
    obtain ⟨mid, hmid, hmove⟩ := run_concat hrun
    cases hbefore : mid.site? number with
    | some before =>
      obtain ⟨config, dialer, faults, front, hjoin, hfront, hfollows⟩ := ih hmid hbefore
      obtain ⟨own, final, hfinal, hown, hseen⟩ := own_of_after hmove hbefore
      rw [hsite] at hfinal
      cases hfinal
      refine ⟨config, dialer, faults, front ++ own, List.mem_append_left _ hjoin, ?_,
        hfollows.moved hmid hfront hbefore hseen⟩
      rw [Site.run_append, hfront, Option.bind_some, hown]
    | none =>
      cases move with
      | join config dialer faults =>
        rw [site?_join hmove, hbefore] at hsite
        split at hsite
        · cases hsite
          obtain ⟨own, hforeign, hown⟩ := newcomer_of_run hmid config dialer faults
          refine ⟨config, dialer, faults, own, by simp, hown, fun early who hmem => ?_⟩
          exact absurd (hforeign _ (Site.mem_of_mem_history hmem)) Bool.false_ne_true
        · cases hsite
      | member other made =>
        obtain ⟨acting, moved, hacting, -, rfl⟩ := of_after_member hmove
        by_cases hnumber : number = other
        · rw [hnumber, hacting] at hbefore
          cases hbefore
        · rw [site?_withSite_other hnumber, hbefore] at hsite
          cases hsite

/-- The store of a fleet goes on as the store of a site does. -/
theorem evolves_of_after {fleet next : Fleet} {move : Move} (h : fleet.after move = some next) :
    fleet.store.Evolves next.store := by
  cases move with
  | join =>
    cases h
    exact .refl _
  | member number move =>
    obtain ⟨site, moved, hsite, hmoved, rfl⟩ := of_after_member h
    rw [← store_of_site? hsite]
    exact (Site.precedes_of_after hmoved).store

theorem evolves_of_run {first final : Fleet} {moves : List Move} (hrun : first.run moves = some final) :
    first.store.Evolves final.store := by
  induction moves using List.reverseRecOn generalizing final with
  | nil =>
    cases hrun
    exact .refl _
  | append_singleton moves move ih =>
    obtain ⟨mid, hmid, hmove⟩ := run_concat hrun
    exact (ih hmid).trans (evolves_of_after hmove)

/-- The rest of a run from one of its moves on. -/
theorem Made.rest {first past final : Fleet} {moves later : List Move} {move : Move}
    (h : first.Made moves past move later) (hrun : first.run moves = some final) :
    past.run (move :: later) = some final := by
  obtain ⟨before, rfl, hbefore⟩ := h
  rwa [run_append, hbefore, Option.bind_some] at hrun

/-- The store of a fleet comes before that of another one whose move is made later. -/
theorem Made.evolves {first past next : Fleet} {moves later since : List Move} {move further : Move}
    (h : first.Made moves past move later) (hnext : first.Made moves next further since)
    (hlater : further :: since <:+ later) : past.store.Evolves next.store := by
  obtain ⟨before, rfl, hbefore⟩ := h
  obtain ⟨front, hfront, hrun⟩ := hnext
  obtain ⟨between, rfl⟩ := hlater
  have hsplit : before ++ move :: between = front := by
    refine (List.append_left_inj (further :: since)).1 ?_
    rw [← hfront, List.append_assoc, List.cons_append]
  rw [← hsplit, run_append, hbefore, Option.bind_some] at hrun
  exact evolves_of_run hrun

/-- The member that makes a move is where a run of its own site has led. -/
theorem Made.site_of_run {store : Store} {moves later : List Move} {past : Fleet} {move : Move}
    (h : (start store).Made moves past move later) {number : Nat} {site : Site}
    (hsite : past.site? number = some site) :
    ∃ config dialer faults own, .join config dialer faults ∈ moves ∧
      (Site.start store config dialer faults).run own = some site := by
  obtain ⟨before, rfl, hbefore⟩ := h
  obtain ⟨config, dialer, faults, own, hjoin, hown, -⟩ := Fleet.site_of_run hbefore hsite
  exact ⟨config, dialer, faults, own, List.mem_append_left _ hjoin, hown⟩

/-- A move that a member makes in a run of the fleet stands at its place in the run of its own site. -/
theorem split_of_run {store : Store} {before after : List Move} {past final : Fleet} {number : Nat}
    {move : ServiceRegistry.Move} {site last : Site} (hbefore : (start store).run before = some past)
    (hrun : past.run (.member number move :: after) = some final) (hsite : past.site? number = some site)
    (hlast : final.site? number = some last) :
    ∃ config dialer faults front back, .join config dialer faults ∈ before ∧
      (Site.start store config dialer faults).run front = some site ∧
      (Site.start store config dialer faults).run (front ++ move :: back) = some last ∧
      (start store).Follows before number ((Site.start store config dialer faults).history front) ∧
      (start store).Follows (before ++ .member number move :: after) number
        ((Site.start store config dialer faults).history (front ++ move :: back)) := by
  obtain ⟨config, dialer, faults, front, hjoin, hfront, hfollows⟩ := site_of_run hbefore hsite
  obtain ⟨moved, hmoved, hfirst, hrest⟩ := of_run_member hsite hrun
  obtain ⟨back, reached, hreached, hback, hlater⟩ := own_of_run hrest (site?_withSite_self hsite moved)
  obtain rfl : reached = last := Option.some.inj (hreached.symm.trans hlast)
  refine ⟨config, dialer, faults, front, back, hjoin, hfront, ?_, hfollows, fun early who hmem => ?_⟩
  · rw [Site.run_append, hfront, Option.bind_some, Site.run_cons, hmoved]
    exact hback
  · rw [Site.history_append hfront, Site.history_cons hmoved] at hmem
    rcases List.mem_append.1 hmem with hearly | hmem
    · obtain ⟨fleet, later, hmade, hthere⟩ := hfollows early who hearly
      exact ⟨fleet, later ++ _, hmade.append _, hthere⟩
    · rcases List.mem_cons.1 hmem with he | hlate
      · cases he
        exact ⟨past, after, ⟨before, rfl, hbefore⟩, hsite⟩
      · obtain ⟨fleet, later, hmade, hthere⟩ := hlater early who hlate
        exact ⟨fleet, later, (Made.behind hfirst hmade).behind hbefore, hthere⟩

/-! ## Activities of members -/

/-- A member keeps its configuration. -/
theorem config_of_run {first final : Fleet} {moves : List Move} (hrun : first.run moves = some final)
    {number : Nat} {site later : Site} (hsite : first.site? number = some site)
    (hlater : final.site? number = some later) : later.registry.config = site.registry.config := by
  obtain ⟨own, reached, hreached, hown, -⟩ := own_of_run hrun hsite
  rw [hlater] at hreached
  cases hreached
  exact (Site.precedes_of_run hown).config

/-- What is true of an activity of a member, and is kept by its own steps and by whatever else happens in
the fleet, is true of it at any later point of the run. -/
theorem activity_induction {first final : Fleet} {moves : List Move} {number who : Nat}
    {P : Fleet → Progress → Prop} (hrun : first.run moves = some final) {site : Site}
    {progress : Progress} (hsite : first.site? number = some site)
    (hprogress : site.progress? who = some progress) (hfirst : P first progress)
    (hother : ∀ past move later next progress, first.Made moves past move later →
      move ≠ .member number (.step who) → past.after move = some next → P past progress →
        P next progress)
    (hown : ∀ past later site next progress further,
      first.Made moves past (.member number (.step who)) later → past.site? number = some site →
        site.after (.step who) = some next → site.progress? who = some progress →
        next.progress? who = some further → P past progress → P (past.withSite number next) further) :
    ∃ site progress, final.site? number = some site ∧ site.progress? who = some progress ∧
      P final progress := by
  induction moves using List.reverseRecOn generalizing final with
  | nil =>
    cases hrun
    exact ⟨site, progress, hsite, hprogress, hfirst⟩
  | append_singleton moves move ih =>
    obtain ⟨mid, hmid, hmove⟩ := run_concat hrun
    obtain ⟨there, met, hthere, hmet, hholds⟩ := ih hmid
      (fun past move later next progress hmade =>
        hother past move (later ++ [_]) next progress (hmade.append _))
      (fun past later site next progress further hmade =>
        hown past (later ++ [_]) site next progress further (hmade.append _))
    by_cases hsteps : move = .member number (.step who)
    · subst hsteps
      obtain ⟨acting, moved, hacting, hmoved, rfl⟩ := of_after_member hmove
      rw [hthere] at hacting
      cases hacting
      obtain ⟨activity, hactivity, -⟩ := Option.map_eq_some_iff.1 hmet
      obtain ⟨-, rfl⟩ := Site.of_after_step hmoved
      have hfurther := Site.progress?_step hactivity
      exact ⟨_, _, site?_withSite_self hthere _, hfurther,
        hown mid [] there _ met _ (made_last hmid _) hthere hmoved hmet hfurther hholds⟩
    · obtain ⟨own, later, hlater, hown, hseen⟩ := own_of_after hmove hthere
      have hnot : ServiceRegistry.Move.step who ∉ own := by
        rcases hseen with ⟨made, rfl, rfl⟩ | ⟨-, hforeign⟩
        · intro hmem
          exact hsteps (by rw [List.mem_singleton.1 hmem])
        · exact fun hmem => absurd (hforeign _ hmem) Bool.false_ne_true
      exact ⟨later, met, hlater, Site.progress?_of_run hown hnot hmet,
        hother mid move [] final met (made_last hmid _) hsteps hmove hholds⟩

/-- An activity that a member has after one of its moves is followed to the end of the run. Each of its own
steps is taken at a site to which a run of this site has led. -/
theorem Made.activity_induction {store : Store} {moves since : List Move} {asked final : Fleet}
    {number who : Nat} {move : ServiceRegistry.Move} {site moved last : Site} {progress ended : Progress}
    {P : Fleet → Progress → Prop} (hmade : (start store).Made moves asked (.member number move) since)
    (hrun : (start store).run moves = some final) (hsite : asked.site? number = some site)
    (hmoved : site.after move = some moved) (hprogress : moved.progress? who = some progress)
    (hlast : final.site? number = some last) (hended : last.progress? who = some ended)
    (hfirst : P (asked.withSite number moved) progress)
    (hother : ∀ past made later next progress,
      asked.Made (.member number move :: since) past made later → made ≠ .member number (.step who) →
        past.after made = some next → P past progress → P next progress)
    (hown : ∀ past later site config dialer faults own next progress further,
      asked.Made (.member number move :: since) past (.member number (.step who)) later →
        past.site? number = some site → .join config dialer faults ∈ moves →
        (Site.start store config dialer faults).run own = some site → site.after (.step who) = some next →
        site.progress? who = some progress → next.progress? who = some further → P past progress →
          P (past.withSite number next) further) :
    P final ended := by
  obtain ⟨reached, hreached, hbegun, hsince⟩ := of_run_member hsite (hmade.rest hrun)
  obtain rfl : reached = moved := Option.some.inj (hreached.symm.trans hmoved)
  obtain ⟨before, rfl, hbefore⟩ := hmade
  obtain ⟨there, met, hthere, hmet, hholds⟩ := Fleet.activity_induction hsince
    (site?_withSite_self hsite reached) hprogress hfirst
    (fun past made later next progress hpast =>
      hother past made later next progress (Made.behind hbegun hpast))
    (fun past later site next progress further hpast hsteps => by
      obtain ⟨config, dialer, faults, own, hjoin, hrun⟩ :=
        Made.site_of_run (Made.behind hbefore (Made.behind hbegun hpast)) hsteps
      exact hown past later site config dialer faults own next progress further
        (Made.behind hbegun hpast) hsteps hjoin hrun)
  obtain rfl : there = last := Option.some.inj (hthere.symm.trans hlast)
  obtain rfl : met = ended := Option.some.inj (hmet.symm.trans hended)
  exact hholds

end Fleet

/-! ## Fleets on which runs are tried out -/

/-- Two registries with the same root. -/
def pair : List Fleet.Move :=
  List.replicate 2 (.join (Config.make "svc" []) .onFirstUse .none)

/-- A member registers an instance, from the call to its return. -/
def registersAt (number : Nat) : List Fleet.Move :=
  .member number (.call (.register "chat" "10.0.0.1" 9000)) ::
    List.replicate 6 (.member number (.step 1))

end ServiceRegistry
