import ServiceRegistry.Proofs.Registry.Attachment
import ServiceRegistry.Proofs.Registry.Handling

/-!
# One registration, one lease

When nothing is registered and several calls come to register an instance, the first in the line takes it
all: it is granted a lease, attaches its key and opens the renewals while the others wait, and they find it
registered when it is their turn. `Contest` says how far this has come, and every move that does not
interfere leads on. Together with what is known of leases and of the keys attached to them this says that
a registry never has more than one lease, and what that lease carries.
-/
namespace ServiceRegistry

/-- Whether a registration waits for the answer to one of the requests that have to succeed. -/
def Registering.isTrying : Registering → Bool
  | .granting _ | .attaching _ _ | .opening _ _ => true
  | _ => false

namespace Site

/-- A call registers an instance under a valid key, and it has not been its turn. -/
def Seeks (site : Site) (who : Nat) (key : EndpointKey) : Prop :=
  site.progress? who = some (.registering key .queued) ∨
    ∃ service host port, site.progress? who = some (.calling (.register service host port)) ∧
      EndpointKey.make site.registry.config.root service host port = .ok key

/-- It is the turn of a registration. -/
def Tries (site : Site) (who : Nat) (key : EndpointKey) : Prop :=
  ∃ stage, site.progress? who = some (.registering key stage) ∧ stage.isTrying = true

/-- A registration was told that another one is registered. -/
def TurnedDown (site : Site) (who : Nat) (text : String) : Prop :=
  (∃ key, site.progress? who =
      some (.registering key (.leaving (.error (.alreadyRegistered text))))) ∨
    site.progress? who = some (.finished (.error (.alreadyRegistered text)))

/-- Whether the move takes the answer that a request of a registration has failed. -/
def failsToRegister (site : Site) : Move → Bool
  | .step who =>
    match site.registry.activities[who]? with
    | some ⟨.registering _ (.granting flight), false⟩ => !(site.receive flight).1.isOk
    | some ⟨.registering _ (.attaching _ flight), false⟩ => !(site.receive flight).1.isOk
    | some ⟨.registering _ (.opening _ flight), false⟩ => !(site.receive flight).1.isOk
    | _ => false
  | _ => false

/-- Whether anything comes in the way of registrations: the registry is closed, a lease is lost, someone
unregisters or closes the registry, or a request of a registration has failed. -/
def interferes (site : Site) (move : Move) : Bool :=
  site.registry.closed || site.registry.registrar.status.isLost ||
    site.registry.activities.any (fun activity => activity.progress.isUnregistering) ||
      site.failsToRegister move

end Site

/-- The call has wanted to register an instance under the key. -/
def Contends (past : List (Site × Move)) (who : Nat) (key : EndpointKey) : Prop :=
  ∃ entry ∈ past, entry.1.Seeks who key

theorem Contends.append {past : List (Site × Move)} {who : Nat} {key : EndpointKey}
    (h : Contends past who key) (later : List (Site × Move)) : Contends (past ++ later) who key := by
  obtain ⟨entry, hmem, hseeks⟩ := h
  exact ⟨entry, List.mem_append_left _ hmem, hseeks⟩

theorem Contends.of_append {past : List (Site × Move)} {site : Site} {move : Move} {who : Nat}
    {key : EndpointKey} (h : Contends (past ++ [(site, move)]) who key) :
    Contends past who key ∨ site.Seeks who key := by
  obtain ⟨entry, hmem, hseeks⟩ := h
  rcases List.mem_append.1 hmem with hbefore | hlast
  · exact .inl ⟨entry, hbefore, hseeks⟩
  · cases List.mem_singleton.1 hlast
    exact .inr hseeks

theorem contends_last {past : List (Site × Move)} {site : Site} {move : Move} {who : Nat}
    {key : EndpointKey} (h : site.Seeks who key) : Contends (past ++ [(site, move)]) who key :=
  ⟨(site, move), by simp, h⟩

namespace Site

/-- What it means that nothing comes in the way of registrations. -/
structure Peaceful (site : Site) (move : Move) : Prop where
  going : site.registry.closed = false
  kept : site.registry.registrar.status.isLost = false
  nobody : ∀ who progress, site.progress? who = some progress → progress.isUnregistering = false
  succeeds : site.failsToRegister move = false

theorem peaceful_of_interferes {site : Site} {move : Move} (h : site.interferes move = false) :
    site.Peaceful move := by
  simp only [interferes, Bool.or_eq_false_iff] at h
  obtain ⟨⟨⟨hopen, hlost⟩, hnone⟩, hsucceeds⟩ := h
  refine ⟨hopen, hlost, fun who progress hprogress => ?_, hsucceeds⟩
  obtain ⟨activity, hactivity, rfl⟩ := Option.map_eq_some_iff.1 hprogress
  simpa using List.any_eq_false.1 hnone activity (List.mem_of_getElem? hactivity)

section
variable {site mid : Site} {who : Nat} {key : EndpointKey} {next : Progress}

/-- Who comes to the head of the line is granted its turn if nothing is registered, and is turned down if
something is. -/
theorem Deed.queued_cases (h : site.Deed who (.registering key .queued) next mid)
    (hkept : site.registry.registrar.status.isLost = false) :
    site.registry.registrar.active = none ∧ (∃ flight, next = .registering key (.granting flight)) ∨
      ∃ current, site.registry.registrar.active = some current ∧
        next = .registering key (.leaving (.error (.alreadyRegistered current.key.text))) := by
  cases h with
  | aside hformer => cases hformer
  | begin hactive => exact .inl ⟨hactive, _, rfl⟩
  | turnAway hactive => exact .inr ⟨_, hactive, rfl⟩
  | replace hactive hlost =>
    rw [hkept] at hlost
    cases hlost

/-- A registration whose requests succeed goes on until it is complete. -/
theorem Deed.trying_cases {stage : Registering} (h : site.Deed who (.registering key stage) next mid)
    (hactivity : site.registry.activities[who]? = some ⟨.registering key stage, false⟩)
    (htrying : stage.isTrying = true) (hsucceeds : site.failsToRegister (.step who) = false) :
    (∃ later, next = .registering key later ∧ later.isTrying = true) ∨
      next = .registering key (.leaving (.ok ())) ∧
        ∃ current, mid.registry.registrar.active = some current ∧ current.key = key := by
  cases h with
  | aside hformer => cases hformer
  | grant | attach => exact .inl ⟨_, rfl, rfl⟩
  | register => exact .inr ⟨rfl, _, rfl, rfl⟩
  | refuse hreceive | detach hreceive | abandon hreceive =>
    simp only [failsToRegister, hactivity, hreceive] at hsucceeds
    cases hsucceeds
  | _ => cases htrying

/-- A registration whose turn it is has had its turn before, or has just come to the head of the line. -/
theorem Deed.trying_from {former : Progress} {stage : Registering}
    (h : site.Deed who former (.registering key stage) mid) (htrying : stage.isTrying = true) :
    former = .registering key .queued ∨
      (∃ earlier, former = .registering key earlier ∧ earlier.isTrying = true) ∨
      ∃ flight, former = .registering key (.replacing flight) := by
  cases h with
  | aside hformer hnext => cases hnext
  | begin => exact .inl rfl
  | grant | attach => exact .inr (.inl ⟨_, rfl, rfl⟩)
  | beginAgain => exact .inr (.inr ⟨_, rfl⟩)
  | _ => cases htrying

end

theorem isPending_of_isTrying {key : EndpointKey} {stage : Registering}
    (h : stage.isTrying = true) : Progress.isPending (.registering key stage) = true := by
  cases stage with
  | granting | attaching | opening => rfl
  | _ => cases h

theorem Tries.isPending {site : Site} {who : Nat} {key : EndpointKey} (h : site.Tries who key) :
    ∃ progress, site.progress? who = some progress ∧ progress.isPending = true := by
  obtain ⟨stage, hprogress, htrying⟩ := h
  exact ⟨_, hprogress, isPending_of_isTrying htrying⟩

/-- Who seeks to be registered is not asked to end, and is not at its goal. -/
theorem Seeks.progress {site : Site} {who : Nat} {key : EndpointKey} (h : site.Seeks who key) :
    ∃ progress, site.progress? who = some progress ∧ progress.isBackground = false ∧
      progress.isHandled = false := by
  rcases h with hqueued | ⟨service, host, port, hcalling, -⟩
  · exact ⟨_, hqueued, rfl, rfl⟩
  · exact ⟨_, hcalling, rfl, rfl⟩

/-- While the status is that of no registration, none is active and nobody is handled who asks for
anything. -/
theorem Standing.of_unregistered {site : Site} (h : site.Standing)
    (hstatus : site.registry.registrar.status = .unregistered) :
    site.registry.registrar.active = none ∧
      ∀ who progress, site.progress? who = some progress → progress.isPending = false := by
  have hidle : ∀ who progress, site.progress? who = some progress → progress.isPending = false := by
    intro who progress hprogress
    by_contra hpending
    rcases (h.fits who progress hprogress).status_of_isPending (by simpa using hpending) with
      hother | hother | ⟨key, lease, hother⟩
    all_goals
      rw [hstatus] at hother
      cases hother
  refine ⟨?_, hidle⟩
  rcases h.rests hidle with ⟨hnone, -⟩ | ⟨current, -, hlive | hlost⟩
  · exact hnone
  · rw [hstatus] at hlive
    cases hlive
  · rw [hstatus] at hlost
    cases hlost

/-! ## What a peaceful move does to those who register -/

section
variable {site after : Site} {move : Move} {who : Nat} {key : EndpointKey}
  (hbacked : site.Backed) (hmove : site.after move = some after)

section
include hmove

theorem Seeks.of_other (h : site.Seeks who key) (hother : move ≠ .step who) :
    after.Seeks who key := by
  rcases h with hqueued | ⟨service, host, port, hcalling, hkey⟩
  · exact .inl (progress?_of_other hmove hother hqueued)
  · refine .inr ⟨service, host, port, progress?_of_other hmove hother hcalling, ?_⟩
    rw [(precedes_of_after hmove).config]
    exact hkey

end

section
include hbacked hmove

/-- Who seeks to be registered does so until it comes to the head of the line, and it is granted its turn
then if nothing is registered, and is turned down if something is. -/
theorem Seeks.moved (h : site.Seeks who key) (hpeace : site.Peaceful move) (hline : site.InLine) :
    after.Seeks who key ∨
      move = .step who ∧ site.registry.registrar.lock.holder? = some who ∧
        (site.registry.registrar.active = none ∧ after.Tries who key ∨
          ∃ current, site.registry.registrar.active = some current ∧
            after.TurnedDown who current.key.text) := by
  by_cases hother : move = .step who
  · subst hother
    obtain ⟨hready, hstep⟩ := of_after_step hmove
    rcases h with hqueued | ⟨service, host, port, hcalling, hkey⟩
    · have hactivity := hbacked.activity_of_progress? hqueued rfl
      have hhead := hline.holder? hready hactivity rfl
      obtain ⟨next, mid, rfl, hdeed, hframe⟩ := deed_of_after hactivity hmove
      have hself := progress?_settle_self hframe next hqueued
      refine .inr ⟨rfl, hhead, ?_⟩
      rcases hdeed.queued_cases hpeace.kept with ⟨hnone, flight, rfl⟩ | ⟨current, hactive, rfl⟩
      · exact .inl ⟨hnone, _, hself, rfl⟩
      · exact .inr ⟨current, hactive, .inl ⟨key, hself⟩⟩
    · have hactivity := hbacked.activity_of_progress? hcalling rfl
      have hopen : site.registry.ensureOpen = .ok () := by
        rw [Registry.ensureOpen, hpeace.going]
        rfl
      have hnext : (site.stepFrom who (.calling (.register service host port))).1 =
          .registering key .queued := by
        simp only [stepFrom, stepCalling, hopen, hkey]
      rw [hstep]
      exact .inl (.inl ((progress?_step hactivity).trans (congrArg some hnext)))
  · exact .inl (h.of_other hmove hother)

/-- A registration whose turn it is goes on, and is complete in the end. -/
theorem Tries.moved (h : site.Tries who key) (hpeace : site.Peaceful move) :
    after.Tries who key ∨
      after.progress? who = some (.registering key (.leaving (.ok ()))) ∧
        ∃ current, after.registry.registrar.active = some current ∧ current.key = key := by
  obtain ⟨stage, hprogress, htrying⟩ := h
  by_cases hother : move = .step who
  · subst hother
    have hactivity := hbacked.activity_of_progress? hprogress rfl
    obtain ⟨next, mid, rfl, hdeed, hframe⟩ := deed_of_after hactivity hmove
    have hself := progress?_settle_self hframe next hprogress
    rcases hdeed.trying_cases hactivity htrying hpeace.succeeds with ⟨later, rfl, hlater⟩ |
      ⟨rfl, hactive⟩
    · exact .inl ⟨later, hself, hlater⟩
    · exact .inr ⟨hself, hactive⟩
  · exact .inl ⟨stage, progress?_of_other hmove hother hprogress, htrying⟩

/-- A registration whose outcome is known ends with it. -/
theorem leaving_moved {outcome : Except Error Unit}
    (h : site.progress? who = some (.registering key (.leaving outcome))) :
    after.progress? who = some (.registering key (.leaving outcome)) ∨
      after.progress? who = some (.finished (outcome.map fun _ => .done)) := by
  by_cases hother : move = .step who
  · subst hother
    obtain ⟨next, mid, rfl, hdeed, hframe⟩ :=
      deed_of_after (hbacked.activity_of_progress? h rfl) hmove
    have hself := progress?_settle_self hframe next h
    cases hdeed with
    | aside hformer => cases hformer
    | leave => exact .inr hself
  · exact .inl (progress?_of_other hmove hother h)

theorem TurnedDown.moved {text : String} (h : site.TurnedDown who text) :
    after.TurnedDown who text := by
  rcases h with ⟨key, hleaving⟩ | hfinished
  · exact (leaving_moved hbacked hmove hleaving).imp (fun hstays => ⟨key, hstays⟩) id
  · exact .inr (finished_of_after hfinished hmove)

/-- Whose turn it is after a peaceful move has just come to the head of the line, or it was its turn
before. -/
theorem Tries.before (h : after.Tries who key) (hpeace : site.Peaceful move) (hline : site.InLine)
    (hstanding : site.Standing) : site.Seeks who key ∨ site.Tries who key := by
  obtain ⟨stage, hprogress, htrying⟩ := h
  rcases hline.met hbacked hmove hprogress rfl with hbefore | ⟨former, mid, hactivity, hdeed⟩
  · exact .inr ⟨stage, hbefore, htrying⟩
  · have hformer : site.progress? who = some former := progress?_of_activity hactivity
    rcases hdeed.trying_from htrying with rfl | ⟨earlier, rfl, hearlier⟩ | ⟨flight, rfl⟩
    · exact .inl (.inl hformer)
    · exact .inr ⟨earlier, hformer, hearlier⟩
    · obtain ⟨-, lost, hlost⟩ := hstanding.fits who _ hformer
      have hkept := hpeace.kept
      rw [hlost] at hkept
      cases hkept

/-- A peaceful move leaves the active registration as it is, or completes one. -/
theorem active_moved (hpeace : site.Peaceful move) (hline : site.InLine) :
    after.registry.registrar.active = site.registry.registrar.active ∨
      ∃ winner key current, move = .step winner ∧ site.Tries winner key ∧
        after.progress? winner = some (.registering key (.leaving (.ok ()))) ∧
        after.registry.registrar.active = some current ∧ current.key = key := by
  cases hline.course hbacked hmove with
  | @deed winner former next mid hactivity hready hdeed hframe =>
    have hprogress : site.progress? winner = some former := progress?_of_activity hactivity
    rcases hdeed.active_cases with hsame | ⟨current, -, -, hlost | hends⟩ |
      ⟨key, lease, flight, rfl, rfl, hactive⟩
    · exact .inl hsame
    · rw [hpeace.kept] at hlost
      cases hlost
    · rw [hpeace.nobody winner former hprogress] at hends
      cases hends
    · exact .inr ⟨winner, key, _, rfl, ⟨_, hprogress, rfl⟩,
        progress?_settle_self hframe _ hprogress, hactive, rfl⟩
  | calm hcalm => exact .inl (by rw [hcalm.registrar])

end

end

/-! ## How far the contest has come -/

/-- How far the registrations have come that were made since nothing was registered. -/
inductive Contest (past : List (Site × Move)) (site : Site) : Prop
  /-- Nothing is registered. It may be the turn of one of them. -/
  | undecided (hnone : site.registry.registrar.active = none)
      (hcontend : ∀ who key, Contends past who key → site.Seeks who key ∨ site.Tries who key)
      (htries : ∀ who key, site.Tries who key → Contends past who key)
  /-- One of them is registered, and has told so before the next one is turned down. -/
  | decided {winner : Nat} {current : Active}
      (hactive : site.registry.registrar.active = some current)
      (hwinner : Contends past winner current.key)
      (hdone : site.progress? winner = some (.registering current.key (.leaving (.ok ()))) ∨
        site.progress? winner = some (.finished (.ok .done)))
      (hothers : ∀ who key, Contends past who key → who ≠ winner →
        site.Seeks who key ∨
          site.progress? winner = some (.finished (.ok .done)) ∧
            site.TurnedDown who current.key.text)

/-- It is the turn of no more than one registration. -/
theorem InLine.tries_unique {site : Site} (h : site.InLine) {who other : Nat} {key key' : EndpointKey}
    (htries : site.Tries who key) (hother : site.Tries other key') : who = other := by
  obtain ⟨progress, hprogress, hpending⟩ := htries.isPending
  obtain ⟨met, hmet, hbusy⟩ := hother.isPending
  exact (h.handled_unique hprogress (Progress.isHandled_of_isPending hpending) hmet
    (Progress.isHandled_of_isPending hbusy)).1

section
variable {past : List (Site × Move)} {site after : Site} {move : Move} (hbacked : site.Backed)
  (hline : site.InLine) (hpeace : site.Peaceful move) (hmove : site.after move = some after)
include hbacked hline hpeace hmove

theorem Contest.moved_undecided (hstanding : site.Standing)
    (hnone : site.registry.registrar.active = none)
    (hcontend : ∀ who key, Contends past who key → site.Seeks who key ∨ site.Tries who key)
    (htries : ∀ who key, site.Tries who key → Contends past who key) :
    after.Contest (past ++ [(site, move)]) := by
  have hnow : ∀ who key, Contends (past ++ [(site, move)]) who key →
      site.Seeks who key ∨ site.Tries who key :=
    fun who key h => h.of_append.elim (hcontend who key) .inl
  rcases active_moved hbacked hmove hpeace hline with
    hsame | ⟨winner, key, current, rfl, hwins, hleaving, hactive, rfl⟩
  · refine .undecided (hsame.trans hnone) (fun who key hcontends => ?_) fun who key hlater => ?_
    · rcases hnow who key hcontends with hseeks | hturn
      · rcases hseeks.moved hbacked hmove hpeace hline with
          hstays | ⟨-, -, ⟨-, hbegins⟩ | ⟨current, hactive, -⟩⟩
        · exact .inl hstays
        · exact .inr hbegins
        · rw [hnone] at hactive
          cases hactive
      · rcases hturn.moved hbacked hmove hpeace with hstays | ⟨-, current, hactive, -⟩
        · exact .inr hstays
        · rw [hsame, hnone] at hactive
          cases hactive
    · rcases hlater.before hbacked hmove hpeace hline hstanding with hseeks | hturn
      · exact contends_last hseeks
      · exact (htries who key hturn).append _
  · refine .decided hactive ((htries winner _ hwins).append _) (.inl hleaving)
      fun who key hcontends hne => ?_
    rcases hnow who key hcontends with hseeks | hturn
    · exact .inl (hseeks.of_other hmove fun he => hne (Move.step.inj he).symm)
    · exact absurd (hline.tries_unique hturn hwins) hne

theorem Contest.moved_decided (hstanding : site.Standing) {winner : Nat} {current : Active}
    (hactive : site.registry.registrar.active = some current)
    (hwinner : Contends past winner current.key)
    (hdone : site.progress? winner = some (.registering current.key (.leaving (.ok ()))) ∨
      site.progress? winner = some (.finished (.ok .done)))
    (hothers : ∀ who key, Contends past who key → who ≠ winner →
      site.Seeks who key ∨ site.progress? winner = some (.finished (.ok .done)) ∧
        site.TurnedDown who current.key.text) :
    after.Contest (past ++ [(site, move)]) := by
  have hsame : after.registry.registrar.active = some current := by
    rcases active_moved hbacked hmove hpeace hline with hsame | ⟨other, key, next, -, hwins, -⟩
    · exact hsame.trans hactive
    · obtain ⟨progress, hprogress, hpending⟩ := hwins.isPending
      have hnone := (hstanding.fits other progress hprogress).active_eq hpending
      rw [hactive] at hnone
      cases hnone
  refine .decided hsame (hwinner.append _) ?_ fun who key hcontends hne => ?_
  · rcases hdone with hleaving | hfinished
    · exact leaving_moved hbacked hmove hleaving
    · exact .inr (finished_of_after hfinished hmove)
  · have hbefore : site.Seeks who key ∨ site.progress? winner = some (.finished (.ok .done)) ∧
        site.TurnedDown who current.key.text :=
      hcontends.of_append.elim (fun h => hothers who key h hne) .inl
    rcases hbefore with hseeks | ⟨hfinished, hturned⟩
    · rcases hseeks.moved hbacked hmove hpeace hline with
        hstays | ⟨-, hhead, ⟨hnone, -⟩ | ⟨found, hfound, hturned⟩⟩
      · exact .inl hstays
      · rw [hactive] at hnone
        cases hnone
      · rw [hactive] at hfound
        cases hfound
        -- the winner is not at the head of the line any more
        rcases hdone with hleaving | hfinished
        · rw [hline.handled winner _ hleaving rfl] at hhead
          exact absurd (Option.some.inj hhead).symm hne
        · exact .inr ⟨finished_of_after hfinished hmove, hturned⟩
    · exact .inr ⟨finished_of_after hfinished hmove, hturned.moved hbacked hmove⟩

theorem Contest.moved (h : site.Contest past) (hstanding : site.Standing) :
    after.Contest (past ++ [(site, move)]) := by
  cases h with
  | undecided hnone hcontend htries =>
    exact moved_undecided hbacked hline hpeace hmove hstanding hnone hcontend htries
  | decided hactive hwinner hdone hothers =>
    exact moved_decided hbacked hline hpeace hmove hstanding hactive hwinner hdone hothers

end

/-! ## How it ends -/

/-- A registration that is to come can be carried to its end. -/
theorem Seeks.ends {site : Site} {who : Nat} {key : EndpointKey} (h : site.Seeks who key)
    (hline : site.InLine) (hbacked : site.Backed) :
    ∃ moves last outcome, site.run moves = some last ∧
      last.progress? who = some (.finished outcome) := by
  rcases h with hqueued | ⟨service, host, port, hcalling, hkey⟩
  · exact hline.registration_ends hbacked hqueued
  · have hactivity := hbacked.activity_of_progress? hcalling rfl
    have hready := canStep_of_due hactivity rfl (Nat.zero_le site.clock)
    have hmove : site.after (.step who) = some (site.step who) := if_pos hready
    have hself := progress?_step hactivity
    cases hopen : site.registry.ensureOpen with
    | error e =>
      refine ⟨[.step who], _, .error e, run_step hready, hself.trans ?_⟩
      simp [Activity.isDropped, stepFrom, stepCalling, hopen]
    | ok =>
      have hqueued : (site.step who).progress? who = some (.registering key .queued) := by
        rw [hself]
        simp [Activity.isDropped, stepFrom, stepCalling, hopen, hkey]
      obtain ⟨moves, last, outcome, hrun, hended⟩ :=
        (hline.moved hbacked hmove).registration_ends (hbacked.moved hmove) hqueued
      exact ⟨.step who :: moves, last, outcome, by rw [run_cons, hmove]; exact hrun, hended⟩

section
variable {past : List (Site × Move)} {site : Site} (h : site.Contest past) {who : Nat}
  {key : EndpointKey} (hcontends : Contends past who key)
include h hcontends

/-- Each of the registrations can be carried to its end. -/
theorem Contest.ends (hline : site.InLine) (hbacked : site.Backed) :
    ∃ moves last outcome, site.run moves = some last ∧
      last.progress? who = some (.finished outcome) := by
  have hended : ∀ outcome, site.progress? who = some (.finished outcome) →
      ∃ moves last outcome, site.run moves = some last ∧
        last.progress? who = some (.finished outcome) :=
    fun outcome hfinished => ⟨[], site, outcome, rfl, hfinished⟩
  cases h with
  | undecided hnone hcontend htries =>
    rcases hcontend who key hcontends with hseeks | ⟨stage, hprogress, -⟩
    · exact hseeks.ends hline hbacked
    · exact hline.registration_ends hbacked hprogress
  | @decided winner current hactive hwinner hdone hothers =>
    by_cases hwho : who = winner
    · subst hwho
      rcases hdone with hleaving | hfinished
      · exact hline.registration_ends hbacked hleaving
      · exact hended _ hfinished
    · rcases hothers who key hcontends hwho with hseeks | ⟨-, ⟨asked, hleaving⟩ | hfinished⟩
      · exact hseeks.ends hline hbacked
      · exact hline.registration_ends hbacked hleaving
      · exact hended _ hfinished

/-- When one of the registrations has ended, one of them has succeeded, and the others have been told
about it or have not ended. -/
theorem Contest.result {outcome : Except Error Outcome}
    (hfinished : site.progress? who = some (.finished outcome)) :
    ∃ winner name, Contends past winner name ∧
      site.progress? winner = some (.finished (.ok .done)) ∧
      ∀ other sought, Contends past other sought → other ≠ winner → ∀ result,
        site.progress? other = some (.finished result) →
          result = .error (.alreadyRegistered name.text) := by
  have hgoing : ∀ {who : Nat} {key : EndpointKey} {outcome : Except Error Outcome},
      site.Seeks who key → site.progress? who ≠ some (.finished outcome) := by
    intro who key outcome hseeks hended
    obtain ⟨progress, hprogress, hcall, -⟩ := hseeks.progress
    rw [hended] at hprogress
    cases hprogress
    cases hcall
  cases h with
  | undecided hnone hcontend htries =>
    rcases hcontend who key hcontends with hseeks | ⟨stage, hprogress, -⟩
    · exact absurd hfinished (hgoing hseeks)
    · rw [hfinished] at hprogress
      cases hprogress
  | @decided winner current hactive hwinner hdone hothers =>
    have hwon : site.progress? winner = some (.finished (.ok .done)) := by
      by_cases hwho : who = winner
      · subst hwho
        refine hdone.resolve_left fun hleaving => ?_
        rw [hfinished] at hleaving
        cases hleaving
      · rcases hothers who key hcontends hwho with hseeks | ⟨hwon, -⟩
        · exact absurd hfinished (hgoing hseeks)
        · exact hwon
    refine ⟨winner, current.key, hwinner, hwon, fun other sought hother hne result hresult => ?_⟩
    rcases hothers other sought hother hne with hseeks | ⟨-, ⟨asked, hleaving⟩ | htold⟩
    · exact absurd hresult (hgoing hseeks)
    · rw [hresult] at hleaving
      cases hleaving
    · rw [hresult] at htold
      cases htold
      rfl

end

end Site

/-- From a site at which nothing is registered, every run in which nothing comes in the way leads on in
the contest of the registrations that are made. -/
theorem contest_of_run {store : Store} {config : Config} {dialer : Dialer} {faults : Faults}
    {before later : List Move} {mid final : Site}
    (hbefore : (Site.start store config dialer faults).run before = some mid)
    (hstatus : mid.registry.registrar.status = .unregistered)
    (hlater : mid.run later = some final)
    (hcalm : ∀ entry ∈ mid.history later, entry.1.interferes entry.2 = false) :
    final.Contest (mid.history later) := by
  obtain ⟨hnone, hidle⟩ := (Site.standing_of_run hbefore).of_unregistered hstatus
  refine Site.history_induction (P := fun past site =>
    (∀ entry ∈ past, entry.1.interferes entry.2 = false) → site.Contest past) ?_ ?_ hlater hcalm
  · refine fun _ => .undecided hnone ?_ fun who key htries => ?_
    · rintro who key ⟨entry, hmem, -⟩
      cases hmem
    · obtain ⟨progress, hprogress, hpending⟩ := htries.isPending
      rw [hidle who progress hprogress] at hpending
      cases hpending
  · intro moves site move after hmoves ih hmove hpeaceful
    have hrun : (Site.start store config dialer faults).run (before ++ moves) = some site := by
      rw [Site.run_append, hbefore]
      exact hmoves
    have hline := Site.inLine_of_run hrun
    refine (ih fun entry hmem => hpeaceful entry (List.mem_append_left _ hmem)).moved hline.2 hline.1
      ?_ hmove (Site.standing_of_run hrun)
    exact Site.peaceful_of_interferes (hpeaceful (site, move) (by simp))

/-- Whatever is registered, unregistered, lost and closed, the store knows of one lease of the registry at
most. It knows of none while nothing is registered. While an instance is registered, and after its lease
was lost, it is the lease of the registration, to which only the key of the instance is attached; and a
registered instance is attached to its live lease as it was attached, unless another client has disturbed
this. If several instances come to be registered while nothing is, and nothing comes in the way, one of
them is registered and the others are told about it. -/
theorem one_registration_one_lease {store : Store} {config : Config} {dialer : Dialer}
    {faults : Faults} {moves : List Move} {final : Site} (hreliable : Reliable store faults)
    (hput : faults.Genuine .put)
    (hrun : (Site.start store config dialer faults).run moves = some final)
    (hrevoked : RevocationsSucceed ((Site.start store config dialer faults).history moves))
    (hunshared : Unshared ((Site.start store config dialer faults).history moves)) :
    (∀ lease other, Granted ((Site.start store config dialer faults).history moves) lease →
      Granted ((Site.start store config dialer faults).history moves) other →
        final.store.isLive lease = true → final.store.isLive other = true → lease = other) ∧
    (final.registry.registrar.status = .unregistered → ∀ lease,
      Granted ((Site.start store config dialer faults).history moves) lease →
        final.store.isLive lease = false ∧ ∀ text, final.store.leaseOf text ≠ some lease) ∧
    (∀ key lease, final.registry.registrar.status.holding? = some (key, lease) → ∀ other,
      Granted ((Site.start store config dialer faults).history moves) other →
        (final.store.isLive other = true → other = lease) ∧
          ∀ text, final.store.leaseOf text = some other → other = lease ∧ text = key.text) ∧
    (∀ key lease, final.registry.registrar.status = .registered key lease →
      Site.Rooted ((Site.start store config dialer faults).history moves) final key lease) ∧
    ∀ before later mid, moves = before ++ later →
      (Site.start store config dialer faults).run before = some mid →
      mid.registry.registrar.status = .unregistered →
      (∀ entry ∈ mid.history later, entry.1.interferes entry.2 = false) →
      ∀ who key, Contends (mid.history later) who key →
        (∃ further last outcome, final.run further = some last ∧
          last.progress? who = some (.finished outcome)) ∧
        ∀ outcome, final.progress? who = some (.finished outcome) →
          ∃ winner name, Contends (mid.history later) winner name ∧
            final.progress? winner = some (.finished (.ok .done)) ∧
            ∀ other sought, Contends (mid.history later) other sought → other ≠ winner → ∀ result,
              final.progress? other = some (.finished result) →
                result = .error (.alreadyRegistered name.text) := by
  obtain ⟨hline, hbacked⟩ := Site.inLine_of_run hrun
  have hstanding := Site.standing_of_run hrun
  have hkept := kept_of_run hreliable hrun hrevoked
  refine ⟨fun lease other hlease hother hlive hlives => ?_, fun hstatus lease hgranted => ?_,
    fun key lease hholding other hgranted => ?_, fun key lease hstatus => ?_, ?_⟩
  · exact hstanding.keeps_unique hline (hkept.kept lease hlease (.inl hlive))
      (hkept.kept other hother (.inl hlives))
  · have hgone : ¬ final.store.Involves lease := fun hknown =>
      hkept.status_ne_unregistered hstanding hgranted hknown hstatus
    exact ⟨by simpa using fun hlive => hgone (.inl hlive), fun text hkey => hgone (.inr ⟨text, hkey⟩)⟩
  · refine ⟨fun hlive => hkept.eq_of_holding hstanding hgranted (.inl hlive) hholding,
      fun text hkey => ?_⟩
    obtain rfl := hkept.eq_of_holding hstanding hgranted (.inr ⟨text, hkey⟩) hholding
    exact ⟨rfl, confined_of_run hreliable hrun hrevoked hunshared text key other hgranted hkey
      (.inl hholding)⟩
  · exact rooted_of_run hput hrun (.inl hstatus)
  · rintro before later mid rfl hbefore hstatus hcalm who key hcontends
    have hlater : mid.run later = some final := by
      rw [Site.run_append, hbefore] at hrun
      exact hrun
    have hcontest := contest_of_run hbefore hstatus hlater hcalm
    exact ⟨hcontest.ends hcontends hline hbacked, fun outcome => hcontest.result hcontends⟩

/-- Two calls come to register an instance before either is registered. -/
def registeredAtOnce : List Move :=
  [.call (.register "chat" "10.0.0.1" 9000), .call (.register "chat" "10.0.0.2" 9000),
    .step 1, .step 2, .step 1, .step 1, .step 1, .step 1, .step 1, .step 2, .step 2]

theorem one_registration_one_lease_at_once :
    ∃ final key sought, Site.sample.run registeredAtOnce = some final ∧
      final.registry.registrar.status = .registered key ⟨1⟩ ∧
      Granted (Site.sample.history registeredAtOnce) ⟨1⟩ ∧
      (∀ other, Granted (Site.sample.history registeredAtOnce) other →
        final.store.isLive other = true → other = ⟨1⟩) ∧
      final.store.Carries key ⟨1⟩ ∧
      Contends (Site.sample.history registeredAtOnce) 1 key ∧
      Contends (Site.sample.history registeredAtOnce) 2 sought ∧
      ∃ winner name, Contends (Site.sample.history registeredAtOnce) winner name ∧
        final.progress? winner = some (.finished (.ok .done)) ∧
        final.progress? 2 = some (.finished (.error (.alreadyRegistered name.text))) := by
  obtain ⟨final, hfinal⟩ : ∃ final, Site.sample.run registeredAtOnce = some final :=
    Option.isSome_iff_exists.1 rfl
  let first : EndpointKey := ⟨⟨"svc", "chat", by decide, by decide⟩, "10.0.0.1:9000"⟩
  let second : EndpointKey := ⟨⟨"svc", "chat", by decide, by decide⟩, "10.0.0.2:9000"⟩
  -- where both wait
  obtain ⟨waiting, hwaiting⟩ : ∃ waiting, Site.sample.run (registeredAtOnce.take 4) = some waiting :=
    Option.isSome_iff_exists.1 rfl
  have hfirst : (Site.sample.run (registeredAtOnce.take 4)).bind (fun site => site.progress? 1) =
      some (.registering first .queued) := rfl
  have hsecond : (Site.sample.run (registeredAtOnce.take 4)).bind (fun site => site.progress? 2) =
      some (.registering second .queued) := rfl
  rw [hwaiting] at hfirst hsecond
  have hmem : (waiting, .step 1) ∈ Site.sample.history registeredAtOnce :=
    Site.mem_history_of_run hwaiting (.step 1) (registeredAtOnce.drop 5)
  have hcontends : Contends (Site.sample.history registeredAtOnce) 1 first ∧
      Contends (Site.sample.history registeredAtOnce) 2 second :=
    ⟨⟨_, hmem, .inl hfirst⟩, ⟨_, hmem, .inl hsecond⟩⟩
  -- where the lease is granted
  obtain ⟨asking, hasking⟩ : ∃ asking, Site.sample.run (registeredAtOnce.take 5) = some asking :=
    Option.isSome_iff_exists.1 rfl
  have hgranting : (Site.sample.run (registeredAtOnce.take 5)).bind
      (fun site => site.registry.activities[1]?) =
        some ⟨.registering first (.granting ⟨.grant 30, .plain, 0⟩), false⟩ := rfl
  have hgrant : (Site.sample.run (registeredAtOnce.take 5)).map
      (fun site => (site.receive (⟨.grant 30, .plain, 0⟩ : Flight .grant)).1) =
        some (.ok ⟨1⟩) := rfl
  rw [hasking] at hgranting hgrant
  have hgranted : Granted (Site.sample.history registeredAtOnce) ⟨1⟩ :=
    ⟨asking, 1, Site.mem_history_of_run hasking (.step 1) (registeredAtOnce.drop 6),
      first, _, _, hgranting, Prod.ext (Option.some.inj hgrant) rfl⟩
  -- no other client takes part
  have hmoves : ∀ move ∈ registeredAtOnce, move.isForeign = false := by decide
  have hours : ∀ entry ∈ Site.sample.history registeredAtOnce, entry.2.isForeign = false :=
    fun entry hentry => hmoves _ (Site.mem_of_mem_history hentry)
  have hstatus : (Site.sample.run registeredAtOnce).map
      (fun site => site.registry.registrar.status) = some (.registered first ⟨1⟩) := rfl
  have hended : (Site.sample.run registeredAtOnce).bind (fun site => site.progress? 2) =
      some (.finished (.error (.alreadyRegistered first.text))) := rfl
  rw [hfinal] at hstatus hended
  have hstatus : final.registry.registrar.status = .registered first ⟨1⟩ := Option.some.inj hstatus
  have hended : final.progress? 2 = some (.finished (.error (.alreadyRegistered first.text))) := hended
  obtain ⟨-, -, hlease, hrooted, hcontest⟩ := one_registration_one_lease reliable_empty
    (Faults.genuine_none _) hfinal (by decide) (unshared_of_not_isForeign hours)
  obtain ⟨before, early, who, after, hsplit, -, hcarries⟩ := hrooted first ⟨1⟩ hstatus
  have hcalm : ∀ entry ∈ after, ¬ entry.2.Disturbs first.text ⟨1⟩ := by
    intro entry hentry
    have hpast : entry ∈ before ++ (early, .step who) :: after := by simp [hentry]
    rw [← hsplit] at hpast
    exact Move.not_disturbs_of_not_isForeign (hours entry hpast)
  obtain ⟨-, hresult⟩ := hcontest [] registeredAtOnce Site.sample rfl rfl rfl (by decide) 2 second
    hcontends.2
  obtain ⟨winner, name, hwinner, hdone, hothers⟩ := hresult _ hended
  refine ⟨final, first, second, hfinal, hstatus, hgranted, ?_, hcarries hcalm, hcontends.1,
    hcontends.2, winner, name, hwinner, hdone, ?_⟩
  · exact fun other hother hlive => (hlease first ⟨1⟩ (by rw [hstatus]; rfl) other hother).1 hlive
  · have hne : 2 ≠ winner := by
      rintro rfl
      rw [hended] at hdone
      cases hdone
    have htold := hothers 2 second hcontends.2 hne _ hended
    rw [hended, htold]

end ServiceRegistry
