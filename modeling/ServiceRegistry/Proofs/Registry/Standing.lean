import ServiceRegistry.Proofs.Registry.Line
import Mathlib.Data.List.Chain

/-!
# The registration and its status

Registrations and unregistrations publish statuses, and so do the renewals of leases, which do not wait in
the line. The two do not get in each other's way: a lease is renewed only while its registration is the
active one and its status says so, and whoever is handled has taken the active registration away before
it asks the store for anything. So the statuses follow each other along the edges of `LeaseStatus.Leads`,
and between two registrations the status says just what is active.
-/
namespace ServiceRegistry

/-- Which status may be published after which. -/
inductive LeaseStatus.Leads : LeaseStatus → LeaseStatus → Prop
  | register : Leads .unregistered .registering
  | replace {key : EndpointKey} {lease : LeaseId} : Leads (.lost key lease) .registering
  | succeed {key : EndpointKey} {lease : LeaseId} : Leads .registering (.registered key lease)
  | fail : Leads .registering .unregistered
  | lose {key : EndpointKey} {lease : LeaseId} : Leads (.registered key lease) (.lost key lease)
  | remove {key : EndpointKey} {lease : LeaseId} : Leads (.registered key lease) .unregistering
  | removeLost {key : EndpointKey} {lease : LeaseId} : Leads (.lost key lease) .unregistering
  | removed : Leads .unregistering .unregistered

namespace Registrar

/-- All statuses from the beginning, oldest first. -/
def path (registrar : Registrar) : List LeaseStatus := .unregistered :: registrar.published.reverse

theorem path_publish (registrar : Registrar) (status : LeaseStatus) :
    (registrar.publish status).path = registrar.path ++ [status] := by
  simp [path, publish]

theorem getLast?_path (registrar : Registrar) : registrar.path.getLast? = some registrar.status := by
  cases hpublished : registrar.published <;> simp [path, status, hpublished, List.getLast?_cons]

/-- A path goes on along an edge. -/
theorem isChain_publish {registrar : Registrar} (h : registrar.path.IsChain LeaseStatus.Leads)
    {status : LeaseStatus} (hedge : registrar.status.Leads status) :
    (registrar.publish status).path.IsChain LeaseStatus.Leads := by
  rw [path_publish]
  refine List.isChain_append.2 ⟨h, .singleton _, fun former hformer next hnext => ?_⟩
  rw [getLast?_path] at hformer
  cases hformer
  cases hnext
  exact hedge

/-- The status says just what is active. -/
def AtRest (registrar : Registrar) : Prop :=
  registrar.active = none ∧ registrar.status = .unregistered ∨
    ∃ current, registrar.active = some current ∧
      (registrar.status = .registered current.key current.lease ∨
        registrar.status = .lost current.key current.lease)

theorem AtRest.status_eq {registrar : Registrar} (h : registrar.AtRest)
    (hactive : registrar.active = none) : registrar.status = .unregistered := by
  rcases h with ⟨-, hstatus⟩ | ⟨current, hcurrent, -⟩
  · exact hstatus
  · rw [hactive] at hcurrent
    cases hcurrent

theorem AtRest.status_cases {registrar : Registrar} (h : registrar.AtRest) {current : Active}
    (hactive : registrar.active = some current) :
    registrar.status = .registered current.key current.lease ∨
      registrar.status = .lost current.key current.lease := by
  rcases h with ⟨hnone, -⟩ | ⟨other, hother, hstatus⟩
  · rw [hactive] at hnone
    cases hnone
  · rw [hactive] at hother
    cases hother
    exact hstatus

end Registrar

namespace Progress

/-- Whether the activity is between its first request about a registration and the outcome. -/
def isPending : Progress → Bool
  | .registering _ .queued | .registering _ (.leaving _) => false
  | .unregistering _ .queued | .unregistering _ (.leaving _) => false
  | .registering _ _ | .unregistering _ _ => true
  | _ => false

theorem isHandled_of_isPending {progress : Progress} (h : progress.isPending = true) :
    progress.isHandled = true := by
  cases progress with
  | registering key stage =>
    cases stage with
    | queued | leaving => cases h
    | _ => rfl
  | unregistering closing stage =>
    cases stage with
    | queued | leaving => cases h
    | _ => rfl
  | _ => cases h

/-- Whether the activity renews a lease. -/
def isRenewing : Progress → Bool
  | .renewing _ _ _ => true
  | _ => false

theorem not_isRenewing_of_isPending {progress : Progress} (h : progress.isPending = true) :
    progress.isRenewing = false := by
  cases progress with
  | renewing => cases h
  | _ => rfl

theorem not_isRenewing_of_isAside {progress : Progress} (h : progress.isAside = true) :
    progress.isRenewing = false := by
  cases progress with
  | renewing => cases h
  | _ => rfl

/-- What the registrar shows while an activity is handled. -/
def Fits (progress : Progress) (registrar : Registrar) : Prop :=
  match progress with
  | .registering _ (.replacing flight) =>
    registrar.active = none ∧ ∃ key, registrar.status = .lost key flight.request.revoked
  | .registering _ (.granting _) | .registering _ (.attaching _ _)
  | .registering _ (.opening _ _) | .registering _ (.abandoning _ _) =>
    registrar.active = none ∧ registrar.status = .registering
  | .unregistering _ (.deleting _ _) | .unregistering _ (.revoking _ _) =>
    registrar.active = none ∧ registrar.status = .unregistering
  | .unregistering _ (.leaving _) => registrar.active = none ∧ registrar.status = .unregistered
  | _ => True

theorem fits_of_not_isHandled {progress : Progress} (h : progress.isHandled = false)
    (registrar : Registrar) : progress.Fits registrar := by
  cases progress with
  | registering key stage =>
    cases stage with
    | queued => exact trivial
    | _ => cases h
  | unregistering closing stage =>
    cases stage with
    | queued => exact trivial
    | _ => cases h
  | _ => exact trivial

/-- Who is handled depends on the active registration and the status only. -/
theorem Fits.congr {progress : Progress} {before after : Registrar} (h : progress.Fits before)
    (hactive : after.active = before.active) (hstatus : after.status = before.status) :
    progress.Fits after := by
  cases progress with
  | registering key stage =>
    cases stage with
    | queued | leaving => exact trivial
    | _ =>
      simp only [Fits] at h ⊢
      rw [hactive, hstatus]
      exact h
  | unregistering closing stage =>
    cases stage with
    | queued => exact trivial
    | _ =>
      simp only [Fits] at h ⊢
      rw [hactive, hstatus]
      exact h
  | _ => exact trivial

/-- While a registration is active, an activity that is handled is not bound to the status. -/
theorem Fits.of_active {progress : Progress} {before : Registrar} (h : progress.Fits before)
    {current : Active} (hactive : before.active = some current) (after : Registrar) :
    progress.Fits after := by
  have hnone : before.active ≠ none := by
    rw [hactive]
    exact Option.some_ne_none current
  cases progress with
  | registering key stage =>
    cases stage with
    | queued | leaving => exact trivial
    | _ => exact absurd h.1 hnone
  | unregistering closing stage =>
    cases stage with
    | queued => exact trivial
    | _ => exact absurd h.1 hnone
  | _ => exact trivial

end Progress

namespace Site

/-- The registration of a site and its status belong together. -/
structure Standing (site : Site) : Prop where
  fits : ∀ who progress, site.progress? who = some progress → progress.Fits site.registry.registrar
  rests : (∀ who progress, site.progress? who = some progress → progress.isPending = false) →
    site.registry.registrar.AtRest
  /-- A lease that is renewed is that of the active registration. -/
  renews : ∀ (who : Nat) (key : EndpointKey) (lease : LeaseId) (renewals : Renewals),
    site.registry.activities[who]? = some ⟨.renewing key lease renewals, false⟩ →
      site.registry.registrar.active = some ⟨key, lease, who⟩ ∧
        site.registry.registrar.status = .registered key lease
  path : site.registry.registrar.path.IsChain LeaseStatus.Leads

theorem Standing.start {store : Store} {config : Config} {dialer : Dialer} {faults : Faults} :
    (start store config dialer faults).Standing := by
  refine ⟨?_, fun _ => .inl ⟨rfl, rfl⟩, ?_, .singleton _⟩
  · intro who progress hprogress
    cases (progress?_start hprogress).2
    exact trivial
  · intro who key lease renewals hactivity
    cases (progress?_start (progress?_of_activity hactivity)).2

/-- Nothing is pending while the head of the line is not. -/
theorem Standing.rests_of_head {site : Site} (h : site.Standing) (hline : site.InLine) {who : Nat}
    {progress : Progress} (hholder : site.registry.registrar.lock.holder? = some who)
    (hprogress : site.progress? who = some progress) (hidle : progress.isPending = false) :
    site.registry.registrar.AtRest := by
  refine h.rests fun other met hmet => ?_
  by_contra hpending
  have hpending : met.isPending = true := by simpa using hpending
  have hother := hline.handled other met hmet (Progress.isHandled_of_isPending hpending)
  rw [hholder] at hother
  cases hother
  rw [hprogress] at hmet
  cases hmet
  rw [hidle] at hpending
  cases hpending

section
variable {site mid : Site} {who : Nat} {former next : Progress} (h : site.Standing)

include h in
/-- No lease is renewed while no registration is active. -/
theorem Standing.not_renewing (hactive : site.registry.registrar.active = none) {other : Nat}
    {key : EndpointKey} {lease : LeaseId} {renewals : Renewals} :
    site.registry.activities[other]? ≠ some ⟨.renewing key lease renewals, false⟩ := by
  intro hactivity
  obtain ⟨hcurrent, -⟩ := h.renews other key lease renewals hactivity
  rw [hactive] at hcurrent
  cases hcurrent

/-- Who has not been asked to end when another one is asked is not that one. -/
theorem activities_of_cancel {registry : Registry} {asked other : Nat} {progress : Progress}
    (hother : (registry.cancel asked).activities[other]? = some ⟨progress, false⟩) :
    asked ≠ other ∧ registry.activities[other]? = some ⟨progress, false⟩ := by
  rw [Registry.cancel, List.getElem?_modify] at hother
  obtain ⟨⟨point, cancelled⟩, hsite, hasked⟩ := Option.map_eq_some_iff.1 hother
  by_cases hsame : asked = other
  · rw [if_pos hsame] at hasked
    cases hasked
  · rw [if_neg hsame] at hasked
    cases hasked
    exact ⟨hsame, hsite⟩

include h in
/-- Nor is one renewed after the renewal of the active registration was asked to end. -/
theorem Standing.not_renewing_cancel {current : Active}
    (hactive : site.registry.registrar.active = some current) {other : Nat} {key : EndpointKey}
    {lease : LeaseId} {renewals : Renewals} :
    (site.registry.cancel current.renewal).activities[other]? ≠
      some ⟨.renewing key lease renewals, false⟩ := by
  intro hactivity
  obtain ⟨hne, hsite⟩ := activities_of_cancel hactivity
  obtain ⟨hcurrent, -⟩ := h.renews other key lease renewals hsite
  rw [hactive] at hcurrent
  cases hcurrent
  exact hne rfl

variable (hline : site.InLine)
  (hactivity : site.registry.activities[who]? = some ⟨former, false⟩)
  (hready : site.canStep who = true) (hframe : site.Frame mid)

include hframe in
/-- Where another activity is met after a deed it was met before, or it has just begun. -/
theorem progress?_others {other : Nat} {progress : Progress} (hne : other ≠ who)
    (hprogress : (mid.settle who next).progress? other = some progress) :
    site.progress? other = some progress ∨ progress.isBeginning = true := by
  rcases progress?_turned hframe hprogress with ⟨hsame, -⟩ | ⟨-, hbefore⟩
  · exact absurd hsame hne
  · exact hbefore

/-- A renewal that goes on after a deed is another activity than the one that has moved to a point
where no lease is renewed. -/
theorem activities_of_renewing (hnext : next.isRenewing = false)
    {other : Nat} {key : EndpointKey} {lease : LeaseId} {renewals : Renewals}
    (hother : (mid.settle who next).registry.activities[other]? =
      some ⟨.renewing key lease renewals, false⟩) :
    mid.registry.activities[other]? = some ⟨.renewing key lease renewals, false⟩ := by
  simp only [settle, mapRegistry, Registry.move, List.getElem?_modify] at hother
  obtain ⟨⟨progress, asked⟩, hmid, hmoved⟩ := Option.map_eq_some_iff.1 hother
  by_cases hwho : who = other
  · rw [if_pos hwho] at hmoved
    cases hmoved
    cases hnext
  · rw [if_neg hwho] at hmoved
    cases hmoved
    exact hmid

include hline hactivity hready hframe in
/-- What has to be shown of a deed of the head of the line. -/
theorem standing_of_head {registry : Registry} (hregistry : mid.registry = registry)
    (hat : former.isAtRegistrar = true)
    (hnext : next.isRenewing = false)
    (hfits : next.Fits registry.registrar)
    (hrests : next.isPending = false → registry.registrar.AtRest)
    (hrenews : ∀ (other : Nat) (key : EndpointKey) (lease : LeaseId) (renewals : Renewals),
      registry.activities[other]? = some ⟨.renewing key lease renewals, false⟩ →
        registry.registrar.active = some ⟨key, lease, other⟩ ∧
          registry.registrar.status = .registered key lease)
    (hpath : registry.registrar.path.IsChain LeaseStatus.Leads) :
    (mid.settle who next).Standing := by
  subst hregistry
  have hprogress : site.progress? who = some former := progress?_of_activity hactivity
  have hself := progress?_settle_self hframe next hprogress
  refine ⟨?_, ?_, ?_, hpath⟩
  · intro other progress hmet
    by_cases hwho : other = who
    · subst hwho
      rw [hself] at hmet
      cases hmet
      exact hfits
    · apply Progress.fits_of_not_isHandled
      by_contra hhandled
      have hhandled : progress.isHandled = true := by simpa using hhandled
      rcases progress?_others hframe hwho hmet with hbefore | hbegins
      · have hother := hline.handled other progress hbefore hhandled
        rw [hline.holder? hready hactivity hat] at hother
        exact hwho (Option.some.inj hother).symm
      · have hat := Progress.isAtRegistrar_of_isHandled hhandled
        rw [Progress.not_isAtRegistrar_of_isBeginning hbegins] at hat
        cases hat
  · exact fun hidle => hrests (hidle who next hself)
  · exact fun other key lease renewals hother =>
      hrenews other key lease renewals (activities_of_renewing hnext hother)

include h hactivity hframe in
/-- What has to be shown of a deed that is not done at the registrar. -/
theorem Standing.aside (hat : former.isAtRegistrar = false)
    (hnext : next.isHandled = false)
    (hactive : mid.registry.registrar.active = site.registry.registrar.active)
    (hpublished : mid.registry.registrar.published = site.registry.registrar.published)
    (hrenews : ∀ (other : Nat) (key : EndpointKey) (lease : LeaseId) (renewals : Renewals),
      (mid.settle who next).registry.activities[other]? =
          some ⟨.renewing key lease renewals, false⟩ →
        ∃ rest, site.registry.activities[other]? = some ⟨.renewing key lease rest, false⟩) :
    (mid.settle who next).Standing := by
  have hprogress : site.progress? who = some former := progress?_of_activity hactivity
  have hstatus : mid.registry.registrar.status = site.registry.registrar.status := by
    rw [Registrar.status, hpublished, Registrar.status]
  refine ⟨?_, ?_, ?_, ?_⟩
  · intro other progress hmet
    rcases progress?_turned hframe hmet with ⟨-, rfl⟩ | ⟨-, hbefore | hbegins⟩
    · exact Progress.fits_of_not_isHandled hnext _
    · exact (h.fits other progress hbefore).congr hactive hstatus
    · apply Progress.fits_of_not_isHandled
      by_contra hhandled
      have hat := Progress.isAtRegistrar_of_isHandled (by simpa using hhandled)
      rw [Progress.not_isAtRegistrar_of_isBeginning hbegins] at hat
      cases hat
  · intro hidle
    have hrest : site.registry.registrar.AtRest := by
      refine h.rests fun other progress hmet => ?_
      by_cases hwho : other = who
      · subst hwho
        rw [hprogress] at hmet
        cases hmet
        by_contra hpending
        have hcame := Progress.isAtRegistrar_of_isHandled
          (Progress.isHandled_of_isPending (by simpa using hpending))
        rw [hat] at hcame
        cases hcame
      · exact hidle other progress (progress?_settle_other hframe hwho hmet)
    show mid.registry.registrar.AtRest
    rw [Registrar.AtRest, hactive, hstatus]
    exact hrest
  · intro other key lease renewals hother
    obtain ⟨rest, hbefore⟩ := hrenews other key lease renewals hother
    show mid.registry.registrar.active = _ ∧ mid.registry.registrar.status = _
    rw [hactive, hstatus]
    exact h.renews other key lease rest hbefore
  · show mid.registry.registrar.path.IsChain _
    rw [Registrar.path, hpublished]
    exact h.path

include h in
/-- Since no lease is renewed while no registration is active, nothing has to be shown of renewals then. -/
theorem Standing.renews_of_none (hactive : site.registry.registrar.active = none) {registry : Registry}
    (hsame : registry.activities = site.registry.activities) (other : Nat) (key : EndpointKey)
    (lease : LeaseId) (renewals : Renewals)
    (hother : registry.activities[other]? = some ⟨.renewing key lease renewals, false⟩) :
    registry.registrar.active = some ⟨key, lease, other⟩ ∧
      registry.registrar.status = .registered key lease :=
  absurd (hsame ▸ hother) (h.not_renewing hactive)

include h in
/-- When the renewal of a lease stops, the registration is lost. -/
theorem Standing.stop {key : EndpointKey} {lease : LeaseId} {renewals : Renewals}
    (hactivity : site.registry.activities[who]? = some ⟨.renewing key lease renewals, false⟩) :
    ((site.mapRegistrar fun registrar => registrar.lose key lease).settle who
      (.finished (.ok .done))).Standing := by
  have hprogress : site.progress? who = some (.renewing key lease renewals) :=
    progress?_of_activity hactivity
  have hframe := site.frame_mapRegistrar fun registrar => registrar.lose key lease
  obtain ⟨hactive, hstatus⟩ := h.renews who key lease renewals hactivity
  have hlose : site.registry.registrar.lose key lease =
      site.registry.registrar.publish (.lost key lease) := by
    simp [Registrar.lose, hstatus]
  have hmid : (site.mapRegistrar fun registrar => registrar.lose key lease).registry.registrar =
      site.registry.registrar.publish (.lost key lease) := hlose
  refine ⟨?_, fun _ => ?_, ?_, ?_⟩
  · intro other progress hmet
    by_contra hunfit
    have hhandled : progress.isHandled = true := by
      by_contra hnot
      exact hunfit (Progress.fits_of_not_isHandled (by simpa using hnot) _)
    rcases progress?_turned hframe hmet with ⟨-, rfl⟩ | ⟨-, hbefore | hbegins⟩
    · cases hhandled
    · exact hunfit ((h.fits other progress hbefore).of_active hactive _)
    · have hat := Progress.isAtRegistrar_of_isHandled hhandled
      rw [Progress.not_isAtRegistrar_of_isBeginning hbegins] at hat
      cases hat
  · refine .inr ⟨⟨key, lease, who⟩, ?_, .inr ?_⟩
    · exact (congrArg Registrar.active hmid).trans hactive
    · exact congrArg Registrar.status hmid
  · intro other otherKey otherLease otherRenewals hother
    have hsite : site.registry.activities[other]? =
        some ⟨.renewing otherKey otherLease otherRenewals, false⟩ := activities_of_renewing rfl hother
    obtain ⟨hcurrent, -⟩ := h.renews other otherKey otherLease otherRenewals hsite
    rw [hactive] at hcurrent
    cases hcurrent
    have hended := progress?_settle_self hframe (.finished (.ok .done)) hprogress
    rw [progress?_of_activity hother] at hended
    cases hended
  · show (site.mapRegistrar fun registrar => registrar.lose key lease).registry.registrar.path.IsChain _
    rw [hmid]
    refine Registrar.isChain_publish h.path ?_
    rw [hstatus]
    exact .lose

include h hactivity hframe in
/-- A deed that is not done at the registrar keeps the registration and its status together. -/
theorem Standing.deed_away (hat : former.isAtRegistrar = false)
    (hdeed : site.Deed who former next mid) : (mid.settle who next).Standing := by
  cases hdeed with
  | aside haside hnext hspares =>
    refine h.aside hactivity hframe hat ?_
      (congrArg Registrar.active hspares.registrar) (congrArg Registrar.published hspares.registrar) ?_
    · by_contra hhandled
      have hat := Progress.isAtRegistrar_of_isHandled (by simpa using hhandled)
      rw [Progress.not_isAtRegistrar_of_isAside hnext] at hat
      cases hat
    · intro other key lease renewals hother
      exact ⟨renewals, hspares.activities ▸
        activities_of_renewing (Progress.not_isRenewing_of_isAside hnext) hother⟩
  | @renew key lease renewals rest =>
    refine h.aside hactivity hframe rfl rfl rfl rfl ?_
    intro other otherKey otherLease renewals hother
    rcases active_turned hframe hother with ⟨rfl, hsame⟩ | ⟨-, hbefore | -⟩
    · cases hsame
      exact ⟨_, hactivity⟩
    · exact ⟨renewals, hbefore⟩
    · simp only [settle, mapRegistry, Registry.move, List.getElem?_modify] at hother
      obtain ⟨⟨progress, asked⟩, hsite, hmoved⟩ := Option.map_eq_some_iff.1 hother
      split at hmoved
      · rename_i hwho
        cases hmoved
        exact ⟨_, hwho ▸ hactivity⟩
      · cases hmoved
        exact ⟨renewals, hsite⟩
  | stop => exact h.stop hactivity
  | comeToRegister | comeToUnregister =>
    exact h.aside hactivity hframe rfl rfl rfl rfl fun _ _ _ renewals hother =>
      ⟨renewals, activities_of_renewing rfl hother⟩
  | close =>
    refine h.aside hactivity hframe rfl rfl rfl rfl fun other key lease renewals hother => ?_
    exact ⟨renewals, (activities_of_cancel (activities_of_renewing rfl hother)).2⟩
  | shut =>
    exact h.aside hactivity hframe rfl rfl rfl rfl fun _ _ _ renewals hother =>
      ⟨renewals, activities_of_renewing rfl hother⟩
  | _ => cases hat

include h hline hactivity hready hframe in
/-- Who goes on from one request to the next leaves the registrar as it is. -/
theorem Standing.forward (hregistry : mid.registry = site.registry) (hat : former.isAtRegistrar = true)
    (hpending : next.isPending = true) (hfits : next.Fits site.registry.registrar) :
    (mid.settle who next).Standing := by
  refine standing_of_head hline hactivity hready hframe hregistry hat
    (Progress.not_isRenewing_of_isPending hpending) hfits (fun hidle => ?_) h.renews h.path
  rw [hpending] at hidle
  cases hidle

include h hline hactivity hready hframe in
/-- While nothing is active, who is handled publishes along an edge, and ends with unregistered. -/
theorem Standing.publish {status : LeaseStatus} (hregistry : mid.registry = (site.publish status).registry)
    (hat : former.isAtRegistrar = true) (hnext : next.isRenewing = false)
    (hactive : site.registry.registrar.active = none)
    (hedge : site.registry.registrar.status.Leads status)
    (hfits : next.Fits (site.registry.registrar.publish status))
    (hends : next.isPending = false → status = .unregistered) : (mid.settle who next).Standing := by
  refine standing_of_head hline hactivity hready hframe hregistry hat hnext hfits (fun hidle => ?_)
    (h.renews_of_none hactive rfl) (Registrar.isChain_publish h.path hedge)
  exact .inl ⟨hactive, hends hidle⟩

include h hline hready hframe in
/-- A registration at the head of the line begins, turns its caller away or ends a lost registration. -/
theorem Standing.deed_queued {key : EndpointKey}
    (hactivity : site.registry.activities[who]? = some ⟨.registering key .queued, false⟩)
    (hdeed : site.Deed who (.registering key .queued) next mid) : (mid.settle who next).Standing := by
  have hrest : site.registry.registrar.AtRest :=
    h.rests_of_head hline (hline.holder? hready hactivity rfl) (progress?_of_activity hactivity) rfl
  cases hdeed with
  | aside hformer => cases hformer
  | begin hactive hsend =>
    refine h.publish hline hactivity hready hframe (registry_of_send hsend) rfl rfl hactive ?_
      ⟨hactive, rfl⟩ (fun hidle => by cases hidle)
    rw [hrest.status_eq hactive]
    exact .register
  | turnAway hactive hlost =>
    exact standing_of_head hline hactivity hready hframe rfl rfl rfl trivial (fun _ => hrest) h.renews
      h.path
  | @replace key current flight mid hactive hlost hsend =>
    have hstatus : site.registry.registrar.status = .lost current.key current.lease := by
      rcases hrest.status_cases hactive with hregistered | hstatus
      · rw [hregistered] at hlost
        cases hlost
      · exact hstatus
    have hrequest : flight.request = .revoke current.lease := (of_sent hsend).2.1
    refine standing_of_head hline hactivity hready hframe (registry_of_send hsend) rfl rfl
      ⟨rfl, current.key, ?_⟩ (fun hidle => by cases hidle) ?_ h.path
    · rw [hrequest]
      exact hstatus
    · exact fun other key lease renewals hother => absurd hother (h.not_renewing_cancel hactive)

include h hline hready hframe in
/-- A registration that has opened the stream of renewals is active from then on; one that has not gives
its lease back. -/
theorem Standing.deed_opening {key : EndpointKey} {lease : LeaseId} {flight : Flight .keepAlive}
    (hactivity : site.registry.activities[who]? = some ⟨.registering key (.opening lease flight), false⟩)
    (hdeed : site.Deed who (.registering key (.opening lease flight)) next mid) :
    (mid.settle who next).Standing := by
  have hformer := h.fits who _ (progress?_of_activity hactivity)
  cases hdeed with
  | aside hformer => cases hformer
  | abandon hreceive hsend =>
    exact h.forward hline hactivity hready hframe
      ((registry_of_send hsend).trans (registry_of_receive hreceive)) rfl rfl hformer
  | @register key lease former renewals rest mid hreceive =>
    obtain ⟨hactive, hstatus⟩ := hformer
    refine standing_of_head hline hactivity hready hframe (registry_register_of_receive hreceive _ _ _)
      rfl rfl trivial (fun _ => .inr ⟨_, rfl, .inl rfl⟩) ?_ (Registrar.isChain_publish h.path ?_)
    · -- no lease was renewed before, so that the renewal is the one that has just begun
      intro other otherKey otherLease otherRenewals hother
      change (site.registry.begin (.renewing key lease rest)).activities[other]? = _ at hother
      rw [Registry.begin, List.getElem?_append] at hother
      split at hother
      · exact absurd hother (h.not_renewing hactive)
      · rename_i hlate
        have hlast : other - site.registry.activities.length = 0 := by
          have hlt := (List.getElem?_eq_some_iff.1 hother).1
          simpa using hlt
        rw [hlast] at hother
        cases hother
        have hlength : other = site.registry.activities.length := by omega
        rw [hlength]
        exact ⟨rfl, rfl⟩
    · rw [hstatus]
      exact .succeed

include h hline hready hframe in
/-- A deed of a registration keeps the registration and its status together. -/
theorem Standing.deed_registering {key : EndpointKey} {stage : Registering}
    (hactivity : site.registry.activities[who]? = some ⟨.registering key stage, false⟩)
    (hdeed : site.Deed who (.registering key stage) next mid) : (mid.settle who next).Standing := by
  have hprogress := progress?_of_activity hactivity
  have hformer := h.fits who _ hprogress
  cases stage with
  | queued => exact h.deed_queued hline hready hframe hactivity hdeed
  | replacing =>
    cases hdeed with
    | aside hformer => cases hformer
    | beginAgain hreceive hsend =>
      obtain ⟨hactive, key, hstatus⟩ := hformer
      refine h.publish hline hactivity hready hframe
        ((registry_of_send hsend).trans (registry_publish_of_receive hreceive _)) rfl rfl hactive ?_
        ⟨hactive, rfl⟩ (fun hidle => by cases hidle)
      rw [hstatus]
      exact .replace
  | granting =>
    cases hdeed with
    | aside hformer => cases hformer
    | grant hreceive hsend =>
      exact h.forward hline hactivity hready hframe
        ((registry_of_send hsend).trans (registry_of_receive hreceive)) rfl rfl hformer
    | refuse hreceive =>
      obtain ⟨hactive, hstatus⟩ := hformer
      exact h.publish hline hactivity hready hframe (registry_publish_of_receive hreceive _) rfl rfl
        hactive (hstatus ▸ .fail) trivial (fun _ => rfl)
  | attaching =>
    cases hdeed with
    | aside hformer => cases hformer
    | attach hreceive hsend | detach hreceive hsend =>
      exact h.forward hline hactivity hready hframe
        ((registry_of_send hsend).trans (registry_of_receive hreceive)) rfl rfl hformer
  | opening => exact h.deed_opening hline hready hframe hactivity hdeed
  | abandoning =>
    cases hdeed with
    | aside hformer => cases hformer
    | giveUp hreceive =>
      obtain ⟨hactive, hstatus⟩ := hformer
      exact h.publish hline hactivity hready hframe (registry_publish_of_receive hreceive _) rfl rfl
        hactive (hstatus ▸ .fail) trivial (fun _ => rfl)
  | leaving =>
    have hrest := h.rests_of_head hline (hline.holder? hready hactivity rfl) hprogress rfl
    cases hdeed with
    | aside hformer => cases hformer
    | leave =>
      exact standing_of_head hline hactivity hready hframe rfl rfl rfl trivial (fun _ => hrest) h.renews
        h.path

include h hline hready hframe in
/-- A deed of an unregistration keeps the registration and its status together. -/
theorem Standing.deed_unregistering {closing : Bool} {stage : Unregistering}
    (hactivity : site.registry.activities[who]? = some ⟨.unregistering closing stage, false⟩)
    (hdeed : site.Deed who (.unregistering closing stage) next mid) :
    (mid.settle who next).Standing := by
  have hprogress := progress?_of_activity hactivity
  have hformer := h.fits who _ hprogress
  have hrest : Progress.isPending (.unregistering closing stage) = false →
      site.registry.registrar.AtRest :=
    h.rests_of_head hline (hline.holder? hready hactivity rfl) hprogress
  cases hdeed with
  | aside hformer => cases hformer
  | lack hactive =>
    exact standing_of_head hline hactivity hready hframe rfl rfl rfl
      ⟨hactive, (hrest rfl).status_eq hactive⟩ (fun _ => hrest rfl) h.renews h.path
  | @remove closing current flight mid hactive hsend =>
    refine standing_of_head hline hactivity hready hframe (registry_of_send hsend) rfl rfl
      ⟨rfl, rfl⟩ (fun hidle => by cases hidle) ?_ (Registrar.isChain_publish h.path ?_)
    · exact fun other key lease renewals hother => absurd hother (h.not_renewing_cancel hactive)
    · rcases (hrest rfl).status_cases hactive with hstatus | hstatus
      · show site.registry.registrar.status.Leads _
        rw [hstatus]
        exact .remove
      · show site.registry.registrar.status.Leads _
        rw [hstatus]
        exact .removeLost
  | delete hreceive hsend =>
    exact h.forward hline hactivity hready hframe
      ((registry_of_send hsend).trans (registry_of_receive hreceive)) rfl rfl hformer
  | revoke hreceive =>
    obtain ⟨hactive, hstatus⟩ := hformer
    exact h.publish hline hactivity hready hframe (registry_publish_of_receive hreceive _) rfl rfl
      hactive (hstatus ▸ .removed) ⟨hactive, rfl⟩ (fun _ => rfl)
  | leaveUnregistered | leaveClosing =>
    exact standing_of_head hline hactivity hready hframe rfl rfl rfl trivial
      (fun _ => hrest rfl) h.renews h.path

include h hline hactivity hready hframe in
/-- Every deed keeps the registration and its status together. -/
theorem Standing.deed (hdeed : site.Deed who former next mid) : (mid.settle who next).Standing := by
  cases former with
  | registering => exact h.deed_registering hline hready hframe hactivity hdeed
  | unregistering => exact h.deed_unregistering hline hready hframe hactivity hdeed
  | _ => exact h.deed_away hactivity hframe rfl hdeed

end

theorem Standing.moved {site after : Site} {move : Move} (h : site.Standing) (hline : site.InLine)
    (hbacked : site.Backed) (hmove : site.after move = some after) : after.Standing := by
  cases hline.course hbacked hmove with
  | deed hactivity hready hdeed hframe => exact h.deed hline hactivity hready hframe hdeed
  | calm hcalm =>
    have hsame : ∀ who progress, progress.isHandled = true →
        (after.progress? who = some progress ↔ site.progress? who = some progress) :=
      fun who progress hhandled => hcalm.engaged who progress
        (Progress.isEngaged_of_isAtRegistrar (Progress.isAtRegistrar_of_isHandled hhandled))
    refine ⟨?_, ?_, ?_, hcalm.registrar ▸ h.path⟩
    · intro who progress hprogress
      rw [hcalm.registrar]
      cases hhandled : progress.isHandled with
      | false => exact Progress.fits_of_not_isHandled hhandled _
      | true => exact h.fits who progress ((hsame who progress hhandled).1 hprogress)
    · intro hidle
      rw [hcalm.registrar]
      refine h.rests fun who progress hprogress => ?_
      by_contra hbusy
      have hbusy : progress.isPending = true := by simpa using hbusy
      have hlater := (hsame who progress (Progress.isHandled_of_isPending hbusy)).2 hprogress
      rw [hidle who progress hlater] at hbusy
      cases hbusy
    · intro who key lease renewals hactivity
      rw [hcalm.registrar]
      exact h.renews who key lease renewals (hcalm.renewing who key lease renewals hactivity)

/-- The registration and its status belong together after every run. -/
theorem standing_of_run {store : Store} {config : Config} {dialer : Dialer} {faults : Faults}
    {moves : List Move} {site : Site}
    (hrun : (Site.start store config dialer faults).run moves = some site) : site.Standing := by
  have hall : site.Standing ∧ site.InLine ∧ site.Backed := by
    refine run_induction (P := fun site => site.Standing ∧ site.InLine ∧ site.Backed)
      ⟨.start, .start, .start⟩ ?_ hrun
    rintro before after move ⟨h, hline, hbacked⟩ hmove
    exact ⟨h.moved hline hbacked hmove, hline.moved hbacked hmove, hbacked.moved hmove⟩
  exact hall.1

/-! ## Calls that come to nothing -/

/-- Neither is the store asked for anything, nor is a status published. -/
def Unmoved (before after : Site) : Prop :=
  after.toLink = before.toLink ∧
    after.registry.registrar.published = before.registry.registrar.published

/-- The first step of a call can be made at once and leads to a place in the line. -/
def Queues (site : Site) (who : Nat) (place : Progress) : Prop :=
  site.canStep who = true ∧ site.Unmoved (site.step who) ∧
    (site.step who).progress? who = some place

/-- A call that does no more in its first step than to go to the line does so. -/
theorem queues_of_stepFrom {site : Site} {who : Nat} {call : Call} {place : Progress}
    (hactivity : site.registry.activities[who]? = some ⟨.calling call, false⟩)
    (hstep : site.stepFrom who (.calling call) = (place, site.enterRegistrar who)) :
    site.Queues who place := by
  refine ⟨canStep_of_due hactivity rfl (Nat.zero_le _), ?_, ?_⟩
  · rw [step_of_activity hactivity, hstep]
    exact ⟨rfl, rfl⟩
  · exact (progress?_step hactivity).trans (congrArg (fun result => some result.1) hstep)

/-- The caller is turned away with an error: it goes on at once, whatever happens meanwhile, and neither
the store nor the status has any part in it. -/
def Rejects (site : Site) (who : Nat) (e : Error) : Prop :=
  site.Unmoved (site.step who) ∧
    ∀ moves later, (site.step who).run moves = some later → Move.step who ∉ moves →
      later.canStep who = true ∧
        (later.step who).progress? who = some (.finished (.error e)) ∧
        later.Unmoved (later.step who)

/-- Who is about to leave the registrar with an outcome leaves it with that outcome. -/
theorem step_leaving {site : Site} (hbacked : site.Backed) {who : Nat} {outcome : Except Error Unit}
    (h : (∃ key, site.progress? who = some (.registering key (.leaving outcome))) ∨
      site.progress? who = some (.unregistering false (.leaving outcome))) :
    site.canStep who = true ∧
      site.step who = site.releaseRegistrar.settle who (.finished (outcome.map fun _ => .done)) := by
  rcases h with ⟨key, hprogress⟩ | hprogress
  · have hactivity := hbacked.activity_of_progress? hprogress rfl
    exact ⟨canStep_of_due hactivity rfl (Nat.zero_le _), step_of_activity hactivity⟩
  · have hactivity := hbacked.activity_of_progress? hprogress rfl
    exact ⟨canStep_of_due hactivity rfl (Nat.zero_le _), step_of_activity hactivity⟩

/-- A step that does no more than to tell a caller of an error has rejected the caller. -/
theorem rejects_of_step {site : Site} (hbacked : site.Backed) {who : Nat} (hready : site.canStep who = true)
    {former next : Progress} {e : Error} (hprogress : site.progress? who = some former)
    (hstep : site.step who = site.settle who next)
    (hnext : (∃ key, next = .registering key (.leaving (.error e))) ∨
      next = .unregistering false (.leaving (.error e))) : site.Rejects who e := by
  have hmove : site.after (.step who) = some (site.step who) := by simp [Site.after, hready]
  constructor
  · rw [hstep]
    exact ⟨rfl, rfl⟩
  · intro moves later hrun hother
    have htold : (site.step who).progress? who = some next := by
      rw [hstep]
      exact progress?_settle_self (.refl site) _ hprogress
    have hlater := progress?_of_run hrun hother htold
    have hbacked : later.Backed :=
      run_induction (hbacked.moved hmove) (fun _ _ _ h hmove => h.moved hmove) hrun
    have hleaving : (∃ key, later.progress? who = some (.registering key (.leaving (.error e)))) ∨
        later.progress? who = some (.unregistering false (.leaving (.error e))) := by
      rcases hnext with ⟨key, rfl⟩ | rfl
      · exact .inl ⟨key, hlater⟩
      · exact .inr hlater
    obtain ⟨hcan, hleft⟩ := step_leaving hbacked hleaving
    refine ⟨hcan, ?_, ?_⟩
    · rw [hleft]
      exact progress?_settle_self later.frame_releaseRegistrar _ hlater
    · rw [hleft]
      exact ⟨rfl, rfl⟩

end Site

/-- The statuses of a registry follow each other along the edges of `LeaseStatus.Leads`. Unless someone is
between the first request about a registration and its outcome, nothing is active and the status is
unregistered, or the status is that of the active key and its lease, live or lost. A call for either goes to
the line with its first step. There a registration that finds something registered is rejected with the
registered key, and an unregistration that finds nothing is rejected. All this goes without a request to the
store and without a new status. -/
theorem status_along_edges {store : Store} {config : Config} {dialer : Dialer} {faults : Faults}
    {moves : List Move} {final : Site}
    (hrun : (Site.start store config dialer faults).run moves = some final) :
    final.registry.registrar.path.IsChain LeaseStatus.Leads ∧
    ((∀ who progress, final.progress? who = some progress → progress.isPending = false) →
      final.registry.registrar.active = none ∧
          final.registry.registrar.status = .unregistered ∨
        ∃ key lease renewal, final.registry.registrar.active = some ⟨key, lease, renewal⟩ ∧
          (final.registry.registrar.status = .registered key lease ∨
            final.registry.registrar.status = .lost key lease)) ∧
    (∀ who service host port key,
      final.registry.activities[who]? = some ⟨.calling (.register service host port), false⟩ →
        final.registry.closed = false → EndpointKey.make config.root service host port = .ok key →
          final.Queues who (.registering key .queued)) ∧
    (∀ who, final.registry.activities[who]? = some ⟨.calling .unregister, false⟩ →
      final.registry.closed = false → final.Queues who (.unregistering false .queued)) ∧
    (∀ who key other lease, final.progress? who = some (.registering key .queued) →
      final.canStep who = true → final.registry.registrar.status = .registered other lease →
        final.Rejects who (.alreadyRegistered other.text)) ∧
    ∀ who, final.progress? who = some (.unregistering false .queued) → final.canStep who = true →
      final.registry.registrar.active = none → final.Rejects who .notRegistered := by
  obtain ⟨hline, hbacked⟩ := Site.inLine_of_run hrun
  have hstanding := Site.standing_of_run hrun
  have hconfig : final.registry.config = config := (Site.precedes_of_run hrun).config
  refine ⟨hstanding.path, ?_, ?_, ?_, ?_, ?_⟩
  · intro hidle
    rcases hstanding.rests hidle with hnone | ⟨⟨key, lease, renewal⟩, hactive, hstatus⟩
    · exact .inl hnone
    · exact .inr ⟨key, lease, renewal, hactive, hstatus⟩
  · intro who service host port key hactivity hopen hkey
    refine Site.queues_of_stepFrom hactivity ?_
    simp only [Site.stepFrom, Site.stepCalling, Registry.ensureOpen, hopen, hconfig, hkey,
      Bool.false_eq_true, if_false]
  · intro who hactivity hopen
    refine Site.queues_of_stepFrom hactivity ?_
    simp only [Site.stepFrom, Site.stepCalling, Registry.ensureOpen, hopen, Bool.false_eq_true, if_false]
  · intro who key other lease hprogress hready hstatus
    have hactivity := hbacked.activity_of_progress? hprogress rfl
    have hrest := hstanding.rests_of_head hline (hline.holder? hready hactivity rfl) hprogress rfl
    obtain ⟨current, hactive, hkey⟩ : ∃ current, final.registry.registrar.active = some current ∧
        current.key = other := by
      rcases hrest with ⟨-, hnone⟩ | ⟨current, hactive, hsame | hsame⟩
      · rw [hstatus] at hnone
        cases hnone
      · rw [hstatus] at hsame
        cases hsame
        exact ⟨current, hactive, rfl⟩
      · rw [hstatus] at hsame
        cases hsame
    refine Site.rejects_of_step hbacked hready hprogress ?_ (.inl ⟨key, rfl⟩)
    rw [Site.step_of_activity hactivity, ← hkey]
    simp only [Site.stepFrom, Site.stepRegistering, hactive, hstatus, LeaseStatus.isLost,
      Bool.false_eq_true, if_false]
  · intro who hprogress hready hactive
    have hactivity := hbacked.activity_of_progress? hprogress rfl
    refine Site.rejects_of_step hbacked hready hprogress ?_ (.inr rfl)
    rw [Site.step_of_activity hactivity]
    simp only [Site.stepFrom, Site.stepUnregistering, hactive]

/-- A call registers an instance, and another one is about to come to the head of the line. -/
def registeredOnce : List Move :=
  [.call (.register "chat" "10.0.0.1" 9000), .step 1, .step 1, .step 1, .step 1, .step 1, .step 1,
    .call (.register "chat" "10.0.0.2" 9000)]

theorem status_along_edges_registered :
    ∃ asked final key other lease renewal, Site.sample.run registeredOnce = some asked ∧
      asked.Queues 3 (.registering other .queued) ∧
      Site.sample.run (registeredOnce ++ [.step 3]) = some final ∧
      final.registry.registrar.path = [.unregistered, .registering, .registered key lease] ∧
      final.registry.registrar.path.IsChain LeaseStatus.Leads ∧
      final.registry.registrar.active = some ⟨key, lease, renewal⟩ ∧
      key.text = "svc/chat/10.0.0.1:9000" ∧ final.Rejects 3 (.alreadyRegistered key.text) := by
  obtain ⟨asked, hasked⟩ : ∃ asked, Site.sample.run registeredOnce = some asked :=
    Option.isSome_iff_exists.1 rfl
  obtain ⟨final, hfinal⟩ : ∃ final, Site.sample.run (registeredOnce ++ [.step 3]) = some final :=
    Option.isSome_iff_exists.1 rfl
  let key : EndpointKey := ⟨⟨"svc", "chat", by decide, by decide⟩, "10.0.0.1:9000"⟩
  let other : EndpointKey := ⟨⟨"svc", "chat", by decide, by decide⟩, "10.0.0.2:9000"⟩
  have hcalls : (Site.sample.run registeredOnce).bind (fun site => site.registry.activities[3]?) =
      some ⟨.calling (.register "chat" "10.0.0.2" 9000), false⟩ := rfl
  have hopen : (Site.sample.run registeredOnce).map (fun site => site.registry.closed) = some false := rfl
  have hpath : (Site.sample.run (registeredOnce ++ [.step 3])).map
      (fun site => site.registry.registrar.path) =
        some [.unregistered, .registering, .registered key ⟨1⟩] := rfl
  have hactive : (Site.sample.run (registeredOnce ++ [.step 3])).bind
      (fun site => site.registry.registrar.active) = some ⟨key, ⟨1⟩, 2⟩ := rfl
  have hprogress : (Site.sample.run (registeredOnce ++ [.step 3])).bind (fun site => site.progress? 3) =
      some (.registering other .queued) := rfl
  have hready : (Site.sample.run (registeredOnce ++ [.step 3])).map (fun site => site.canStep 3) =
      some true := rfl
  have hstatus : (Site.sample.run (registeredOnce ++ [.step 3])).map
      (fun site => site.registry.registrar.status) = some (.registered key ⟨1⟩) := rfl
  rw [hasked] at hcalls hopen
  rw [hfinal] at hpath hactive hprogress hready hstatus
  obtain ⟨-, -, hqueues, -⟩ := status_along_edges hasked
  obtain ⟨hchain, -, -, -, hrejects, -⟩ := status_along_edges hfinal
  exact ⟨asked, final, key, other, ⟨1⟩, 2, hasked,
    hqueues 3 _ _ _ other hcalls (Option.some.inj hopen) rfl, hfinal, Option.some.inj hpath, hchain,
    hactive, rfl, hrejects 3 _ key ⟨1⟩ hprogress (Option.some.inj hready) (Option.some.inj hstatus)⟩

end ServiceRegistry
