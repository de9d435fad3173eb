import ServiceRegistry.Proofs.Registry.Possession

/-!
# The end of a registry

The first call that closes a registry comes to the registrar behind all who are there, and nobody comes
after it. So when it leaves, the line is empty and nothing is registered. Then it closes the cache and the
store, once, and from then on the cache is empty and takes nothing. `Ending` lists the points at which the
end of a registry can be met, and every move leads from one of them to the same or the next.
-/
namespace ServiceRegistry

/-- The cache is closed and has nothing. -/
structure Cache.Sealed (cache : Cache) : Prop where
  closed : cache.closed = true
  filled : cache.filled = none
  entries : cache.entries = []

theorem Cache.sealed_close (cache : Cache) : cache.close.Sealed := ⟨rfl, rfl, rfl⟩

namespace Progress

/-- Whether the activity closes the registry. -/
def isClosing : Progress → Bool
  | .unregistering true _ | .sealing => true
  | _ => false

/-- Whether the activity closes the registry and is at the registrar. -/
def isDeparting : Progress → Bool
  | .unregistering true _ => true
  | _ => false

theorem isClosing_of_isDeparting {progress : Progress} (h : progress.isDeparting = true) :
    progress.isClosing = true := by
  cases progress with
  | unregistering closing stage =>
    cases closing with
    | false => cases h
    | true => rfl
  | _ => cases h

theorem isAtRegistrar_of_isDeparting {progress : Progress} (h : progress.isDeparting = true) :
    progress.isAtRegistrar = true := by
  cases progress with
  | unregistering closing stage => rfl
  | _ => cases h

theorem not_isClosing_of_isBeginning {progress : Progress} (h : progress.isBeginning = true) :
    progress.isClosing = false := by
  cases progress with
  | calling | renewing => rfl
  | _ => cases h

theorem isEngaged_of_isClosing {progress : Progress} (h : progress.isClosing = true) :
    progress.isEngaged = true := by
  cases progress with
  | unregistering | sealing => rfl
  | _ => cases h

theorem not_isClosing_of_isBackground {progress : Progress} (h : progress.isBackground = true) :
    progress.isClosing = false := by
  cases progress with
  | unregistering | sealing => cases h
  | _ => rfl

theorem not_isClosing_of_isAside {progress : Progress} (h : progress.isAside = true) :
    progress.isClosing = false ∧ progress.isDeparting = false := by
  cases progress with
  | unregistering | sealing => cases h
  | _ => exact ⟨rfl, rfl⟩

end Progress

namespace Site

/-! ## The cache -/

theorem open_of_install {site mid : Site} {errand : Errand} {stamp : Stamp} {reading : Reading}
    {keys : List EndpointKey} {listing : Listing}
    (h : site.install errand stamp reading keys = .ok (listing, mid)) :
    site.registry.cache.closed = false := by
  cases errand with
  | resolve key | rebuild changes =>
    obtain ⟨cache, hcache, -⟩ := of_map_ok h
    exact (Cache.of_install hcache).1
  | refresh key rest changes =>
    obtain ⟨cache, hcache, -⟩ := of_map_ok h
    exact (Cache.of_replace hcache).1

/-- A closed cache takes nothing. -/
theorem Turn.isSealed {site mid : Site} {who : Nat} {activity : Activity} {next : Progress}
    (h : site.Turn who activity next mid) (hsealed : site.registry.cache.Sealed) :
    mid.registry.cache.Sealed := by
  have hinstalls : ∀ {errand stamp reading keys listing after},
      site.install errand stamp reading keys = .ok (listing, after) → False := by
    intro errand stamp reading keys listing after hinstall
    have hopen := open_of_install hinstall
    rw [hsealed.closed] at hopen
    cases hopen
  have hempty : site.registry.cache.filled.isSome = true → False := by
    rw [hsealed.filled]
    exact Bool.false_ne_true
  cases h with
  | quiet hnext hlisting hcache hgate => exact hcache ▸ hsealed
  | close hcache hgate => exact hcache ▸ Cache.sealed_close _
  | invalidate | addOptions => exact ⟨hsealed.closed, rfl, rfl⟩
  | discard hdiscard =>
    obtain ⟨-, rfl⟩ := Cache.of_discardPending hdiscard
    exact ⟨hsealed.closed, hsealed.filled, hsealed.entries⟩
  | advance hadvance => exact hadvance.registry ▸ hsealed
  | @fail errand stamp flight e mid changes hreceive =>
    show mid.registry.cache.Sealed
    exact (sameCache_receive hreceive).1 ▸ hsealed
  | start hsend => exact registry_of_send hsend ▸ hsealed
  | subscribe hreceive => exact registry_of_receive hreceive ▸ hsealed
  | resolve hinstall | refresh hinstall | rebuild hinstall => exact (hinstalls hinstall).elim
  | relay hfilled | relayAll hfilled => exact (hempty hfilled).elim
  | hit | miss | found | pass | take => exact hsealed

theorem Moved.isSealed {site after : Site} {move : Move} (h : site.Moved move after)
    (hsealed : site.registry.cache.Sealed) : after.registry.cache.Sealed := by
  cases h with
  | turn hactivity hready hturn hframe => exact hturn.isSealed hsealed
  | calm hmove hcache hgate hframe => exact hcache ▸ hsealed

/-! ## Deeds that close the registry -/

/-- An answer does not concern the end of the registry. -/
theorem same_of_receive {site mid : Site} {m : Method} {flight : Flight m}
    {answer : Except Error (Answer m)} (h : site.receive flight = (answer, mid)) :
    mid.registry.closed = site.registry.closed ∧ mid.client.closes = site.client.closes :=
  ⟨congrArg Registry.closed (registry_of_receive h), congrArg Client.closes (client_of_receive h)⟩

/-- A deed does not concern the end of the registry, or begins to close it, or leaves the registrar to
close cache and store, or closes them. -/
theorem Deed.closing_cases {site mid : Site} {who : Nat} {former next : Progress}
    (h : site.Deed who former next mid) :
    mid.registry.closed = site.registry.closed ∧ mid.client.closes = site.client.closes ∧
        next.isClosing = former.isClosing ∧ next.isDeparting = former.isDeparting ∧
        former ≠ .sealing ∨
      former = .calling .close ∧ next = .unregistering true .queued ∧
        site.registry.closed = false ∧ mid.registry.closed = true ∧
        mid.client.closes = site.client.closes ∨
      (∃ outcome, former = .unregistering true (.leaving outcome) ∧ next = .sealing ∧
        mid = site.releaseRegistrar) ∨
      former = .sealing ∧ next = .finished (.ok .done) ∧
        mid = { site.withCache site.registry.cache.close with toLink := site.toLink.close } := by
  cases h with
  | aside hformer hnext hspares =>
    obtain ⟨hclosing, hdeparting⟩ := Progress.not_isClosing_of_isAside hformer
    obtain ⟨hclosing', hdeparting'⟩ := Progress.not_isClosing_of_isAside hnext
    refine .inl ⟨hspares.closed, hspares.closes, hclosing'.trans hclosing.symm,
      hdeparting'.trans hdeparting.symm, ?_⟩
    rintro rfl
    cases hformer
  | close hopen => exact .inr (.inl ⟨rfl, rfl, hopen, rfl, rfl⟩)
  | leaveClosing => exact .inr (.inr (.inl ⟨_, rfl, rfl, rfl⟩))
  | shut => exact .inr (.inr (.inr ⟨rfl, rfl, rfl⟩))
  | begin hactive hsend | replace hactive hlost hsend =>
    exact .inl ⟨(of_sent hsend).1.closed, (of_sent hsend).1.closes, rfl, rfl, nofun⟩
  | @remove closing current flight after hactive hsend =>
    exact .inl ⟨(of_sent hsend).1.closed, (of_sent hsend).1.closes, by cases closing <;> rfl,
      by cases closing <;> rfl, nofun⟩
  | beginAgain hreceive hsend | grant hreceive hsend | attach hreceive hsend | detach hreceive hsend
  | abandon hreceive hsend =>
    exact .inl ⟨(of_sent hsend).1.closed.trans (same_of_receive hreceive).1,
      (of_sent hsend).1.closes.trans (same_of_receive hreceive).2, rfl, rfl, nofun⟩
  | @delete closing lease flight later answer received after hreceive hsend =>
    exact .inl ⟨(of_sent hsend).1.closed.trans (same_of_receive hreceive).1,
      (of_sent hsend).1.closes.trans (same_of_receive hreceive).2, by cases closing <;> rfl,
      by cases closing <;> rfl, nofun⟩
  | refuse hreceive | register hreceive | giveUp hreceive =>
    exact .inl ⟨(same_of_receive hreceive).1, (same_of_receive hreceive).2, rfl, rfl, nofun⟩
  | @revoke closing flight deleted answer received hreceive =>
    exact .inl ⟨(same_of_receive hreceive).1, (same_of_receive hreceive).2,
      by cases closing <;> rfl, by cases closing <;> rfl, nofun⟩
  | @lack closing hactive =>
    exact .inl ⟨rfl, rfl, by cases closing <;> rfl, by cases closing <;> rfl, nofun⟩
  | _ => exact .inl ⟨rfl, rfl, rfl, rfl, nofun⟩

/-- A closed registry stays closed. -/
theorem closed_of_after {site after : Site} {move : Move} (hclosed : site.registry.closed = true)
    (h : site.after move = some after) : after.registry.closed = true := by
  cases acted_of_after h with
  | deed hactivity hready hdeed hframe =>
    rcases hdeed.closing_cases with ⟨hsame, -⟩ | ⟨-, -, -, hset, -⟩ | ⟨outcome, -, -, rfl⟩ |
      ⟨-, -, rfl⟩
    · exact hsame.trans hclosed
    · exact hset
    · exact hclosed
    · exact hclosed
  | outside hother hcall hregistry =>
    rw [hregistry]
    exact hclosed
  | _ => exact hclosed

/-- A registry is closed by a call to close it. -/
theorem open_of_after {site after : Site} {move : Move} (hopen : site.registry.closed = false)
    (h : site.after move = some after)
    (hmove : ∀ who, move = .step who → site.progress? who ≠ some (.calling .close)) :
    after.registry.closed = false := by
  cases acted_of_after h with
  | @deed who former next mid hactivity hready hdeed hframe =>
    rcases hdeed.closing_cases with ⟨hsame, -⟩ | ⟨rfl, -⟩ | ⟨outcome, -, -, rfl⟩ | ⟨-, -, rfl⟩
    · exact hsame.trans hopen
    · exact absurd (progress?_of_activity hactivity) (hmove who rfl)
    · exact hopen
    · exact hopen
  | outside hother hcall hregistry =>
    rw [hregistry]
    exact hopen
  | _ => exact hopen

/-! ## The points of the end -/

/-- Nobody is at the registrar, and nothing is registered. -/
structure Vacant (site : Site) : Prop where
  line : site.registry.registrar.lock.line = []
  active : site.registry.registrar.active = none

/-- Nobody is handled while nobody is at the registrar. -/
theorem Vacant.unregistered {site : Site} (h : site.Vacant) (hline : site.InLine)
    (hstanding : site.Standing) :
    (∀ who progress, site.progress? who = some progress → progress.isPending = false) ∧
      site.registry.registrar.status = .unregistered := by
  have hidle : ∀ who progress, site.progress? who = some progress → progress.isPending = false := by
    intro who progress hprogress
    by_contra hpending
    have hmem := (hline.queues.mem_line who).2 ⟨progress, hprogress,
      Progress.isAtRegistrar_of_isHandled (Progress.isHandled_of_isPending (by simpa using hpending))⟩
    rw [h.line] at hmem
    cases hmem
  exact ⟨hidle, (hstanding.rests hidle).status_eq h.active⟩

/-- Cache and store were closed by the registry. -/
structure Over (site : Site) : Prop where
  closed : site.registry.closed = true
  nobody : ∀ who, ¬ site.Stands Progress.isClosing who
  vacant : site.Vacant
  emptied : site.registry.cache.Sealed
  closes : site.client.closes = 1

/-- The points at which the end of a registry can be met. -/
inductive Ending (site : Site) : Prop
  | going (hopen : site.registry.closed = false)
      (hnobody : ∀ who, ¬ site.Stands Progress.isClosing who) (hcloses : site.client.closes = 0)
  /-- A call has begun to close the registry, and is the last one at the registrar. -/
  | departing {closer : Nat} (hclosed : site.registry.closed = true)
      (hcloser : site.Stands Progress.isDeparting closer)
      (honly : ∀ who, site.Stands Progress.isClosing who → who = closer)
      (hlast : site.registry.registrar.lock.line.getLast? = some closer)
      (hcloses : site.client.closes = 0)
  /-- It has left the registrar. -/
  | leaving {closer : Nat} (hclosed : site.registry.closed = true)
      (hcloser : site.progress? closer = some .sealing)
      (honly : ∀ who, site.Stands Progress.isClosing who → who = closer)
      (hvacant : site.Vacant) (hcloses : site.client.closes = 0)
  | ended (hover : site.Over)

theorem Ending.closes_le {site : Site} (h : site.Ending) : site.client.closes ≤ 1 := by
  cases h with
  | going _ _ hcloses => exact hcloses.le.trans zero_le_one
  | departing _ _ _ _ hcloses => exact hcloses.le.trans zero_le_one
  | leaving _ _ _ _ hcloses => exact hcloses.le.trans zero_le_one
  | ended hover => exact hover.closes.le

theorem Ending.start {store : Store} {config : Config} {dialer : Dialer} {faults : Faults} :
    (start store config dialer faults).Ending := by
  refine .going rfl ?_ rfl
  rintro who ⟨progress, hprogress, hclosing⟩
  cases (progress?_start hprogress).2
  cases hclosing

section
variable {site mid : Site} {who : Nat} {former next : Progress} (hline : site.InLine)
  (hactivity : site.registry.activities[who]? = some ⟨former, false⟩)
  (hdeed : site.Deed who former next mid) (hframe : site.Frame mid)
  (hclosed : site.registry.closed = true)
include hline hdeed

include hclosed hactivity in
/-- Nobody comes to the registrar of a closed registry, so once it is vacant it stays so. -/
theorem Vacant.deed (h : site.Vacant) : mid.Vacant := by
  have haway : former.isAtRegistrar = true → False := by
    intro hat
    have hmem := (hline.queues.mem_line who).2 ⟨former, progress?_of_activity hactivity, hat⟩
    rw [h.line] at hmem
    cases hmem
  constructor
  · rcases hdeed.lock_cases with ⟨hsame, -⟩ | ⟨-, hopen, -⟩ | ⟨-, hbusy, -⟩
    · rw [hsame]
      exact h.line
    · rw [hclosed] at hopen
      cases hopen
    · exact (haway (Progress.isAtRegistrar_of_isHandled hbusy)).elim
  · rcases hdeed.active_cases with hsame | ⟨current, hactive, -⟩ | ⟨key, lease, flight, rfl, -⟩
    · exact hsame.trans h.active
    · rw [h.active] at hactive
      cases hactive
    · exact (haway rfl).elim

include hclosed hactivity in
/-- Who is last in the line of a closed registry stays the last until it leaves. -/
theorem getLast?_line_deed {closer : Nat}
    (hlast : site.registry.registrar.lock.line.getLast? = some closer)
    (hstays : who = closer → next.isAtRegistrar = true) :
    mid.registry.registrar.lock.line.getLast? = some closer := by
  rcases hdeed.lock_cases with ⟨hsame, -⟩ | ⟨-, hopen, -⟩ | ⟨hrelease, hbusy, hleaves⟩
  · rw [hsame]
    exact hlast
  · rw [hclosed] at hopen
    cases hopen
  · have hne : who ≠ closer := by
      intro heq
      rw [hstays heq] at hleaves
      cases hleaves
    rw [hrelease]
    exact Lock.getLast?_release (hline.handled who former (progress?_of_activity hactivity) hbusy) hne
      hlast

include hactivity hframe

omit hline in
/-- As long as the registry is open, a deed leaves it open or is the first one to close it. -/
theorem ending_of_going (hopen : site.registry.closed = false)
    (hnobody : ∀ who, ¬ site.Stands Progress.isClosing who) (hcloses : site.client.closes = 0) :
    (mid.settle who next).Ending := by
  have hprogress : site.progress? who = some former := progress?_of_activity hactivity
  have hwas := stands_iff Progress.isClosing hprogress
  rcases hdeed.closing_cases with ⟨hstays, hcalls, hkeeps, -, -⟩ | ⟨rfl, rfl, -, hset, hcalls⟩ |
    ⟨outcome, rfl, -, -⟩ | ⟨rfl, -, -⟩
  · exact .going (hstays.trans hopen) (fun other hstands => hnobody other
      ((stands_settle hframe (fun _ => Progress.not_isClosing_of_isBeginning) hprogress
        hkeeps other).1 hstands)) (hcalls.trans hcloses)
  · refine .departing hset ⟨_, progress?_settle_self hframe _ hprogress, rfl⟩
      (fun other hstands => ?_) ?_ (hcalls.trans hcloses)
    · by_contra hne
      exact hnobody other ((stands_settle_other hframe
        (fun _ => Progress.not_isClosing_of_isBeginning) hne).1 hstands)
    · rcases hdeed.lock_cases with ⟨-, hat⟩ | ⟨henter, -⟩ | ⟨-, hbusy, -⟩
      · cases hat
      · show mid.registry.registrar.lock.line.getLast? = _
        rw [henter, Lock.line_enter, List.getLast?_concat]
      · cases hbusy
  · exact absurd (hwas.2 rfl) (hnobody who)
  · exact absurd (hwas.2 rfl) (hnobody who)

include hclosed

/-- Who closes the registry stays at the registrar and the last one there until it leaves, and leaves it
vacant. -/
theorem ending_of_departing (hstanding : site.Standing) {closer : Nat}
    (hcloser : site.Stands Progress.isDeparting closer)
    (honly : ∀ who, site.Stands Progress.isClosing who → who = closer)
    (hlast : site.registry.registrar.lock.line.getLast? = some closer)
    (hcloses : site.client.closes = 0) : (mid.settle who next).Ending := by
  have hprogress : site.progress? who = some former := progress?_of_activity hactivity
  have hself := progress?_settle_self hframe next hprogress
  have hwas := stands_iff Progress.isClosing hprogress
  obtain ⟨progress, hcloser, hdeparting⟩ := hcloser
  rcases hdeed.closing_cases with ⟨hstays, hcalls, hkeeps, hdeparts, -⟩ | ⟨-, -, hopen, -⟩ |
    ⟨outcome, rfl, rfl, rfl⟩ | ⟨rfl, -, -⟩
  · have hcloser' : (mid.settle who next).Stands Progress.isDeparting closer := by
      by_cases hwho : closer = who
      · subst hwho
        rw [hprogress] at hcloser
        cases hcloser
        exact ⟨next, hself, hdeparts.trans hdeparting⟩
      · exact ⟨progress, progress?_settle_other hframe hwho hcloser, hdeparting⟩
    refine .departing (hstays.trans hclosed) hcloser' (fun other hstands => honly other
      ((stands_settle hframe (fun _ => Progress.not_isClosing_of_isBeginning) hprogress
        hkeeps other).1 hstands)) ?_ (hcalls.trans hcloses)
    refine getLast?_line_deed hline hactivity hdeed hclosed hlast fun hwho => ?_
    subst hwho
    exact Progress.isAtRegistrar_of_isDeparting ((stands_iff _ hself).1 hcloser')
  · rw [hclosed] at hopen
    cases hopen
  · obtain rfl : who = closer := honly who (hwas.2 rfl)
    refine .leaving hclosed hself (fun other hstands => ?_) ⟨?_, ?_⟩ hcloses
    · by_contra hne
      exact hne (honly other ((stands_settle_other hframe
        (fun _ => Progress.not_isClosing_of_isBeginning) hne).1 hstands))
    · exact Lock.line_release_of_last hline.queues.nodup (hline.handled who _ hprogress rfl) hlast
    · exact (hstanding.fits who _ hprogress).1
  · obtain rfl : who = closer := honly who (hwas.2 rfl)
    rw [hprogress] at hcloser
    cases hcloser
    cases hdeparting

/-- Who closes the registry and has left the registrar closes the store with its next step. -/
theorem ending_of_leaving {closer : Nat} (hcloser : site.progress? closer = some .sealing)
    (honly : ∀ who, site.Stands Progress.isClosing who → who = closer) (hvacant : site.Vacant)
    (hcloses : site.client.closes = 0) : (mid.settle who next).Ending := by
  have hprogress : site.progress? who = some former := progress?_of_activity hactivity
  have hwas := stands_iff Progress.isClosing hprogress
  have hvacant' : mid.Vacant := hvacant.deed hline hactivity hdeed hclosed
  rcases hdeed.closing_cases with ⟨hstays, hcalls, hkeeps, -, hsealing⟩ | ⟨-, -, hopen, -⟩ |
    ⟨outcome, rfl, -, -⟩ | ⟨rfl, rfl, rfl⟩
  · have hwho : closer ≠ who := by
      rintro rfl
      rw [hprogress] at hcloser
      exact hsealing (Option.some.inj hcloser)
    exact .leaving (hstays.trans hclosed) (progress?_settle_other hframe hwho hcloser)
      (fun other hstands => honly other ((stands_settle hframe
        (fun _ => Progress.not_isClosing_of_isBeginning) hprogress hkeeps other).1 hstands))
      ⟨hvacant'.line, hvacant'.active⟩ (hcalls.trans hcloses)
  · rw [hclosed] at hopen
    cases hopen
  · obtain rfl : who = closer := honly who (hwas.2 rfl)
    rw [hcloser] at hprogress
    cases hprogress
  · have hwho : who = closer := honly who (hwas.2 rfl)
    refine .ended ⟨hclosed, fun other hstands => ?_, ⟨hvacant.line, hvacant.active⟩,
      Cache.sealed_close _, ?_⟩
    · by_cases hne : other = who
      · rw [hne, stands_iff _ (progress?_settle_self hframe _ hprogress)] at hstands
        cases hstands
      · exact hne ((honly other ((stands_settle_other hframe
          (fun _ => Progress.not_isClosing_of_isBeginning) hne).1 hstands)).trans hwho.symm)
    · show (ClientEvent.close :: site.client.log).countP ClientEvent.isClose = 1
      rw [List.countP_cons_of_pos rfl]
      exact congrArg Nat.succ hcloses

omit hclosed in
theorem Over.deed (h : site.Over)
    (hemptied : site.registry.cache.Sealed → mid.registry.cache.Sealed) :
    (mid.settle who next).Over := by
  have hprogress : site.progress? who = some former := progress?_of_activity hactivity
  have hwas := stands_iff Progress.isClosing hprogress
  rcases hdeed.closing_cases with ⟨hstays, hcalls, hkeeps, -, -⟩ | ⟨-, -, hopen, -⟩ |
    ⟨outcome, rfl, -, -⟩ | ⟨rfl, -, -⟩
  · have hvacant := h.vacant.deed hline hactivity hdeed h.closed
    exact ⟨hstays.trans h.closed, fun other hstands => h.nobody other ((stands_settle hframe
      (fun _ => Progress.not_isClosing_of_isBeginning) hprogress hkeeps other).1 hstands),
      ⟨hvacant.line, hvacant.active⟩, hemptied h.emptied, hcalls.trans h.closes⟩
  · rw [h.closed] at hopen
    cases hopen
  · exact absurd (hwas.2 rfl) (h.nobody who)
  · exact absurd (hwas.2 rfl) (h.nobody who)

omit hclosed in
theorem Ending.deed (h : site.Ending) (hstanding : site.Standing)
    (hemptied : site.registry.cache.Sealed → mid.registry.cache.Sealed) :
    (mid.settle who next).Ending := by
  cases h with
  | going hopen hnobody hcloses =>
    exact ending_of_going hactivity hdeed hframe hopen hnobody hcloses
  | departing hclosed hcloser honly hlast hcloses =>
    exact ending_of_departing hline hactivity hdeed hframe hclosed hstanding hcloser honly hlast hcloses
  | leaving hclosed hcloser honly hvacant hcloses =>
    exact ending_of_leaving hline hactivity hdeed hframe hclosed hcloser honly hvacant hcloses
  | ended hover => exact .ended (hover.deed hline hactivity hdeed hframe hemptied)

end

/-- A move that is not a deed leads neither towards the end nor away from it. -/
theorem Ending.calm {site after : Site} {move : Move} (h : site.Ending) (hcalm : site.Calm move after)
    (hemptied : site.registry.cache.Sealed → after.registry.cache.Sealed) : after.Ending := by
  have hsame : ∀ who progress, progress.isClosing = true →
      (after.progress? who = some progress ↔ site.progress? who = some progress) :=
    fun who progress hclosing =>
      hcalm.engaged who progress (Progress.isEngaged_of_isClosing hclosing)
  have hstands : ∀ who, after.Stands Progress.isClosing who →
      site.Stands Progress.isClosing who :=
    fun who ⟨progress, hprogress, hkind⟩ => ⟨progress, (hsame who progress hkind).1 hprogress, hkind⟩
  have hvacant : site.Vacant → after.Vacant := fun hvacant =>
    ⟨hcalm.registrar ▸ hvacant.line, hcalm.registrar ▸ hvacant.active⟩
  cases h with
  | going hopen hnobody hcloses =>
    exact .going (hcalm.closed.trans hopen) (fun who hstand => hnobody who (hstands who hstand))
      (hcalm.closes.trans hcloses)
  | departing hclosed hcloser honly hlast hcloses =>
    obtain ⟨progress, hcloser, hdeparting⟩ := hcloser
    exact .departing (hcalm.closed.trans hclosed) ⟨progress, (hsame _ progress
      (Progress.isClosing_of_isDeparting hdeparting)).2 hcloser, hdeparting⟩
      (fun who hstand => honly who (hstands who hstand)) (hcalm.registrar ▸ hlast)
      (hcalm.closes.trans hcloses)
  | leaving hclosed hcloser honly hvacancy hcloses =>
    exact .leaving (hcalm.closed.trans hclosed) ((hsame _ _ rfl).2 hcloser)
      (fun who hstand => honly who (hstands who hstand)) (hvacant hvacancy)
      (hcalm.closes.trans hcloses)
  | ended hover =>
    exact .ended ⟨hcalm.closed.trans hover.closed,
      fun who hstand => hover.nobody who (hstands who hstand), hvacant hover.vacant,
      hemptied hover.emptied, hcalm.closes.trans hover.closes⟩

theorem Ending.moved {site after : Site} {move : Move} (h : site.Ending) (hline : site.InLine)
    (hbacked : site.Backed) (hstanding : site.Standing) (hmove : site.after move = some after) :
    after.Ending := by
  have hemptied := (moved_of_after hmove).isSealed
  cases hline.course hbacked hmove with
  | deed hactivity hready hdeed hframe =>
    exact h.deed hline hactivity hdeed hframe hstanding hemptied
  | calm hcalm => exact h.calm hcalm hemptied

/-- The end of a registry is met at one of its points after every run. -/
theorem ending_of_run {store : Store} {config : Config} {dialer : Dialer} {faults : Faults}
    {moves : List Move} {site : Site}
    (hrun : (start store config dialer faults).run moves = some site) : site.Ending := by
  refine history_induction (P := fun _ site => site.Ending) .start ?_ hrun
  intro before mid move after hbefore h hmove
  obtain ⟨hline, hbacked⟩ := inLine_of_run hbefore
  exact h.moved hline hbacked (standing_of_run hbefore) hmove

end Site

end ServiceRegistry
