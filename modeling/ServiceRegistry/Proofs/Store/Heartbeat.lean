import ServiceRegistry.Store.Heartbeat
import ServiceRegistry.Proofs.Store.Integrity

/-!
# Heartbeats tell the truth

What a stream of renewals hands out is measured against what was asked of the store: which time-to-live a
lease was granted with, whether it has been revoked, and whether the store has been closed. A `Vigil` is a
reader of such a stream, together with all that happens to the store and with the time that passes.
-/
namespace ServiceRegistry

namespace Heartbeat

/-! ## A look at the stream -/

/-- The millisecond from which an acknowledgement is there, by how many came before it. -/
def due (opened period : Duration) (number : Nat) : Nat :=
  (Duration.mk (opened.nanos + number * period.nanos)).ceilMillis

theorem due_mono (opened period : Duration) {number later : Nat} (h : number ≤ later) :
    due opened period number ≤ due opened period later := by
  rw [due, Duration.ceilMillis_le_iff]
  refine le_trans ?_ (Duration.ceilMillis_le_iff.1 le_rfl)
  exact Nat.add_le_add_left (Nat.mul_le_mul_right _ h) _

/-- The stream of the renewals of a lease after a number of acknowledgements. -/
def beaten (lease : LeaseId) (ttl : Int) (opened period : Duration) (number : Nat) : Heartbeat :=
  ⟨lease, ttl, ⟨opened.nanos + number * period.nanos⟩, period⟩

/-- The end of the lease comes before every ring, and it makes no difference which branch is tried first. -/
theorem poll_beaten (lease : LeaseId) (ttl : Int) (opened period : Duration) (number : Nat) (store : Store)
    (now : Duration) (first : Branch) :
    (beaten lease ttl opened period number).poll store now first =
      if store.isLive lease then
        if due opened period number ≤ now.millis then
          .item (.ok ⟨lease, ttl⟩) (beaten lease ttl opened period (number + 1))
        else .waiting
      else .finished := by
  have hadvance : (beaten lease ttl opened period number).ticker.advance =
      (beaten lease ttl opened period (number + 1)).ticker := by
    simp [beaten, Ticker.advance, Nat.succ_mul, Nat.add_assoc]
  have hrung : (beaten lease ttl opened period number).ticker.hasRung now =
      decide (due opened period number ≤ now.millis) := by
    simp only [Ticker.hasRung, beaten, due]
    rfl
  have hsame : (beaten lease ttl opened period number).lease = lease := rfl
  unfold poll
  by_cases hlive : store.isLive lease = true
  · by_cases hdue : due opened period number ≤ now.millis
    · cases first <;> simp [Branch.other, tryBranch, hadvance, hrung, hsame, hlive, hdue] <;> simp [beaten]
    · cases first <;> simp [Branch.other, tryBranch, hrung, hsame, hlive, hdue]
  · by_cases hdue : due opened period number ≤ now.millis <;>
      cases first <;> simp [Branch.other, tryBranch, hrung, hsame, hlive, hdue]

/-! ## The stream that the store reads -/

/-- The stream that a renewal stands for. -/
def ofRenewal (renewal : Renewal) : Heartbeat :=
  beaten renewal.lease renewal.ttl (Duration.ofMillis renewal.opened) renewal.interval renewal.taken

/-- What a look finds, with the lease beside its time-to-live. -/
def ofPull (lease : LeaseId) : Pull Renewal Int → Pull Heartbeat Ack
  | .waiting => .waiting
  | .skipped rest => .skipped (ofRenewal rest)
  | .item item rest => .item (item.map fun ttl => ⟨lease, ttl⟩) (ofRenewal rest)
  | .finished => .finished

theorem openAt_eq {store : Store} {lease : LeaseId} {ttl : Int} (hcheck : store.check = .ok ())
    (httl : store.ttl? lease = some ttl) (now interval : Duration) :
    openAt store now lease interval =
      .ok (beaten lease ttl now (interval.longer Renewal.shortestInterval) 0) := by
  simp only [openAt, hcheck, httl, beaten, Nat.zero_mul, Nat.add_zero]
  rfl

/-- The stream is opened, and refused, as the store does it. -/
theorem openAt_ofMillis (store : Store) (clock : Nat) (lease : LeaseId) (interval : Duration) :
    openAt store (Duration.ofMillis clock) lease interval =
      (store.keepAlive clock lease interval).map ofRenewal := by
  cases hcheck : store.check with
  | error e =>
    simp only [openAt, Store.keepAlive, hcheck]
    rfl
  | ok =>
    cases httl : store.ttl? lease with
    | none =>
      simp only [openAt, Store.keepAlive, hcheck, httl]
      rfl
    | some ttl =>
      rw [openAt_eq hcheck httl, Store.keepAlive_of_check hcheck httl]
      rfl

/-- A reader who looks at whole milliseconds finds what the store finds, whichever branch is tried first. -/
theorem poll_ofRenewal (store : Store) (renewal : Renewal) (now : Duration) (first : Branch) :
    (ofRenewal renewal).poll store now first =
      ofPull renewal.lease (store.pullRenewal renewal now.millis) := by
  have hdue : renewal.due =
      due (Duration.ofMillis renewal.opened) renewal.interval renewal.taken := by
    simp only [Renewal.due, due]
  rw [ofRenewal, poll_beaten, Store.pullRenewal, hdue]
  split_ifs <;> simp [ofPull, ofRenewal, Except.map]

end Heartbeat

/-! ## What is known of a lease -/

/-- The lease that was handed out, and the time-to-live that was asked for. -/
def Exchange.issued? : Exchange → Option (LeaseId × Int)
  | ⟨.grant ttl, .ok lease⟩ => some (lease, ttl)
  | _ => none

/-- The lease that was taken away. -/
def Exchange.revoked? : Exchange → Option LeaseId
  | ⟨.revoke lease, .ok _⟩ => some lease
  | _ => none

namespace Chronicle

/-- All leases that were handed out, with their times-to-live, oldest first. -/
def issued (past : Chronicle) : List (LeaseId × Int) := past.exchanges.filterMap Exchange.issued?

/-- All leases that were taken away, oldest first. -/
def revoked (past : Chronicle) : List LeaseId := past.exchanges.filterMap Exchange.revoked?

/-- The lease has been revoked, or the store has been closed. -/
def Ended (past : Chronicle) (lease : LeaseId) : Prop :=
  lease ∈ past.revoked ∨ past.store.feed.closed = true

instance decidableEnded (past : Chronicle) (lease : LeaseId) : Decidable (past.Ended lease) :=
  inferInstanceAs (Decidable (_ ∨ _))

theorem map_fst_issued (past : Chronicle) : past.issued.map Prod.fst = past.granted := by
  rw [issued, List.map_filterMap, granted]
  congr 1
  funext exchange
  unfold Exchange.issued? Exchange.granted?
  split <;> simp_all

theorem mem_granted_of_issued {past : Chronicle} {lease : LeaseId} {ttl : Int}
    (h : (lease, ttl) ∈ past.issued) : lease ∈ past.granted := by
  rw [← past.map_fst_issued]
  exact List.mem_map_of_mem h

/-- No lease was handed out with two times-to-live. -/
theorem Consistent.issued_unique {past : Chronicle} (h : past.Consistent) {lease : LeaseId} {ttl other : Int}
    (hissued : (lease, ttl) ∈ past.issued) (hother : (lease, other) ∈ past.issued) : other = ttl := by
  have hnodup : (past.issued.map Prod.fst).Nodup := past.map_fst_issued ▸ h.nodup
  exact congrArg Prod.snd (List.inj_on_of_nodup_map hnodup hother hissued rfl)

/-- The live leases are those that were handed out and have not ended. -/
structure Accounted (past : Chronicle) : Prop where
  revoked_le : ∀ lease ∈ past.revoked, lease.number ≤ past.store.granted
  live_iff : ∀ lease ttl,
    past.store.ttl? lease = some ttl ↔ (lease, ttl) ∈ past.issued ∧ ¬ past.Ended lease

theorem accounted_start : start.Accounted := by
  refine ⟨?_, ?_⟩ <;> simp [start, issued, revoked, Store.ttl?, Store.empty]

@[simp] theorem mem_issued_append {past : Chronicle} {exchange : Exchange} {store : Store}
    {entry : LeaseId × Int} : entry ∈ issued ⟨store, past.exchanges ++ [exchange]⟩ ↔
      entry ∈ past.issued ∨ exchange.issued? = some entry := by
  simp [issued]

@[simp] theorem mem_revoked_append {past : Chronicle} {exchange : Exchange} {store : Store}
    {lease : LeaseId} : lease ∈ revoked ⟨store, past.exchanges ++ [exchange]⟩ ↔
      lease ∈ past.revoked ∨ exchange.revoked? = some lease := by
  simp [revoked]

/-- An exchange that hands out no lease and takes none away, of a request that has left the leases. -/
theorem Accounted.unrelated {past : Chronicle} (h : past.Accounted) {exchange : Exchange} {store : Store}
    (hleases : store.leases = past.store.leases) (hnumber : store.granted = past.store.granted)
    (hclosed : store.feed.closed = past.store.feed.closed) (hissued : exchange.issued? = none)
    (hrevoked : exchange.revoked? = none) : Accounted ⟨store, past.exchanges ++ [exchange]⟩ := by
  refine ⟨?_, ?_⟩
  · simpa [hrevoked, hnumber] using h.revoked_le
  · simpa [Ended, hissued, hrevoked, hclosed, Store.ttl?, hleases] using h.live_iff

/-- A lease with a number that none has had before. -/
theorem Accounted.granted {past : Chronicle} (h : past.Accounted) (hconsistent : past.Consistent)
    (hopen : past.store.feed.closed = false) (ttl : Int) : Accounted ⟨{ past.store with
      leases := (⟨past.store.granted + 1⟩, ttl) :: past.store.leases
      granted := past.store.granted + 1 },
      past.exchanges ++ [⟨.grant ttl, .ok (⟨past.store.granted + 1⟩ : LeaseId)⟩]⟩ := by
  have hissued : ∀ given, (⟨past.store.granted + 1⟩, given) ∉ past.issued := fun given hbefore => by
    have hle := hconsistent.granted_le _ (mem_granted_of_issued hbefore)
    simp only at hle
    omega
  have hrevoked : (⟨past.store.granted + 1⟩ : LeaseId) ∉ past.revoked := fun hbefore => by
    have hle := h.revoked_le _ hbefore
    simp only at hle
    omega
  refine ⟨fun lease hgone => ?_, fun lease given => ?_⟩
  · have hle := h.revoked_le lease (by simpa [Exchange.revoked?] using hgone)
    simp only
    omega
  · by_cases hlease : lease = ⟨past.store.granted + 1⟩
    · subst hlease
      simp [Ended, Exchange.issued?, Exchange.revoked?, Store.ttl?, hissued, hrevoked, hopen]
    · simpa [Ended, Exchange.issued?, Exchange.revoked?, Store.ttl?, List.lookup_cons,
        beq_eq_false_iff_ne.2 hlease, Ne.symm hlease] using h.live_iff lease given

/-- A lease that was there is there no longer. -/
theorem Accounted.taken {past : Chronicle} (h : past.Accounted) (hconsistent : past.Consistent)
    {lease : LeaseId} {store : Store}
    (hleases : store.leases = past.store.leases.filter fun other => other.1 ≠ lease)
    (hlive : past.store.isLive lease = true) (hnumber : store.granted = past.store.granted)
    (hclosed : store.feed.closed = past.store.feed.closed) :
    Accounted ⟨store, past.exchanges ++ [⟨.revoke lease, .ok ()⟩]⟩ := by
  obtain ⟨ttl, httl⟩ := Option.isSome_iff_exists.1 hlive
  have hissued := ((h.live_iff lease ttl).1 httl).1
  refine ⟨fun other hgone => ?_, fun other given => ?_⟩
  · rw [hnumber]
    rcases mem_revoked_append.1 hgone with hbefore | hnew
    · exact h.revoked_le other hbefore
    · cases hnew
      exact hconsistent.granted_le _ (mem_granted_of_issued hissued)
  · rw [Store.ttl?, hleases, Store.lookup_filter_ne]
    by_cases hother : other = lease
    · simp [hother, Ended, Exchange.revoked?]
    · simpa [hother, Ne.symm hother, Ended, Exchange.issued?, Exchange.revoked?, hclosed, Store.ttl?]
        using h.live_iff other given

theorem Accounted.served {past : Chronicle} (h : past.Accounted) (hconsistent : past.Consistent)
    {m : Method} {request : Request m} {answer : Answer m} {store : Store} {clock : Nat}
    (hserve : past.store.serve clock request = .ok (answer, store)) :
    Accounted ⟨store, past.exchanges ++ [⟨request, .ok answer⟩]⟩ := by
  have hopen := (Store.of_check (Store.check_of_serve hserve)).2
  cases Store.served_of_serve hserve with
  | read hreads hsame =>
    refine h.unrelated hsame.leases hsame.granted hsame.closed ?_ ?_
    · cases request <;> first | rfl | cases hreads
    · cases request <;> first | rfl | cases hreads
  | put hlive hcontent hleases hgranted hclosed => exact h.unrelated hleases hgranted hclosed rfl rfl
  | delete hcontent hleases hgranted hclosed => exact h.unrelated hleases hgranted hclosed rfl rfl
  | grant => exact h.granted hconsistent hopen _
  | revoke hcontent hleases hgranted hclosed =>
    obtain ⟨given, hrevoke, -⟩ := of_map_ok hserve
    exact h.taken hconsistent hleases (Store.of_revoke hrevoke).2.1 hgranted hclosed

theorem Accounted.after {past : Chronicle} (h : past.Accounted) (hconsistent : past.Consistent)
    (happening : Happening) : (past.after happening).Accounted := by
  cases happening with
  | request clock request =>
    simp only [Chronicle.after, Operation.on_perform]
    cases hserve : past.store.serve clock request with
    | ok served => exact h.served hconsistent hserve
    | error e => exact h.unrelated rfl rfl rfl (by cases request <;> rfl) (by cases request <;> rfl)
  | outage unavailable => exact ⟨h.revoked_le, h.live_iff⟩
  | close =>
    refine ⟨h.revoked_le, fun lease ttl => ?_⟩
    simp [Chronicle.after, Store.close, Store.ttl?, Ended]
  | look => exact h

theorem accounted_run (happenings : List Happening) : (start.run happenings).Accounted := by
  suffices hrun : ∀ past : Chronicle, past.Consistent → past.Accounted →
      (past.run happenings).Accounted from hrun start consistent_start accounted_start
  induction happenings with
  | nil => exact fun past _ h => h
  | cons happening happenings ih =>
    exact fun past hconsistent h => ih _ (hconsistent.after happening) (h.after hconsistent happening)

/-- A lease that has ended has ended for good. -/
theorem Ended.after {past : Chronicle} {lease : LeaseId} (h : past.Ended lease) (happening : Happening) :
    (past.after happening).Ended lease := by
  cases happening with
  | request clock request =>
    refine h.imp (fun hrevoked => mem_revoked_append.2 (.inl hrevoked)) fun hclosed => ?_
    simp only [Chronicle.after, Operation.on_perform]
    cases hserve : past.store.serve clock request with
    | ok served => exact (Store.served_of_serve hserve).closed_eq.trans hclosed
    | error e => exact hclosed
  | outage unavailable => exact h
  | close => exact .inr rfl
  | look => exact h

theorem Accounted.isLive_iff {past : Chronicle} (h : past.Accounted) {lease : LeaseId} {ttl : Int}
    (hissued : (lease, ttl) ∈ past.issued) : past.store.isLive lease = true ↔ ¬ past.Ended lease := by
  constructor
  · intro hlive
    obtain ⟨found, hfound⟩ := Option.isSome_iff_exists.1 hlive
    exact ((h.live_iff lease found).1 hfound).2
  · intro hgoes
    rw [Store.isLive, (h.live_iff lease ttl).2 ⟨hissued, hgoes⟩]
    rfl

theorem issued_after {past : Chronicle} {entry : LeaseId × Int} (h : entry ∈ past.issued)
    (happening : Happening) : entry ∈ (past.after happening).issued := by
  cases happening with
  | request clock request => exact mem_issued_append.2 (.inl h)
  | outage | close | look => exact h

end Chronicle

/-! ## A reader of the stream -/

/-- A reader of a stream of renewals, and all that was asked of the store. -/
structure Vigil where
  past : Chronicle
  now : Duration
  beat : Heartbeat
  /-- The acknowledgements that the reader was handed, each with the time, oldest first. -/
  handed : List (Ack × Duration)

namespace Vigil

/-- Something that can happen meanwhile. -/
inductive Move where
  /-- Something happens to the store. -/
  | happen (happening : Happening)
  /-- Time passes. -/
  | wait (time : Duration)
  /-- The reader looks at the stream, which tries the given branch first. -/
  | poll (first : Heartbeat.Branch)

/-- What a look at the stream finds now. -/
def look (vigil : Vigil) (first : Heartbeat.Branch) : Pull Heartbeat Ack :=
  vigil.beat.poll vigil.past.store vigil.now first

def after (vigil : Vigil) : Move → Vigil
  | .happen happening => { vigil with past := vigil.past.after happening }
  | .wait time => { vigil with now := ⟨vigil.now.nanos + time.nanos⟩ }
  | .poll first =>
    match vigil.look first with
    | .item (.ok ack) rest => { vigil with beat := rest, handed := vigil.handed ++ [(ack, vigil.now)] }
    | _ => vigil

def run (vigil : Vigil) (moves : List Move) : Vigil := moves.foldl after vigil

@[simp] theorem run_nil (vigil : Vigil) : vigil.run [] = vigil := rfl

@[simp] theorem run_cons (vigil : Vigil) (move : Move) (moves : List Move) :
    vigil.run (move :: moves) = (vigil.after move).run moves := rfl

/-- The stream is where the number of acknowledgements that were handed out puts it, and each of these was
true and came in time. -/
structure Keeps (vigil : Vigil) (lease : LeaseId) (ttl : Int) (opened period : Duration) : Prop where
  consistent : vigil.past.Consistent
  accounted : vigil.past.Accounted
  issued : (lease, ttl) ∈ vigil.past.issued
  beat : vigil.beat = .beaten lease ttl opened period vigil.handed.length
  handed : ∀ number ack time, vigil.handed[number]? = some (ack, time) →
    ack = ⟨lease, ttl⟩ ∧ Heartbeat.due opened period number ≤ time.millis

variable {vigil : Vigil} {lease : LeaseId} {ttl : Int} {opened period : Duration}

/-- A lease that has ended has nothing more to tell. -/
theorem Keeps.look_of_ended (h : vigil.Keeps lease ttl opened period) (hended : vigil.past.Ended lease)
    (first : Heartbeat.Branch) : vigil.look first = .finished := by
  have hgone : ¬ vigil.past.store.isLive lease = true := fun hlive =>
    (h.accounted.isLive_iff h.issued).1 hlive hended
  rw [look, h.beat, Heartbeat.poll_beaten, if_neg hgone]

/-- The next acknowledgement is there from its time on. -/
theorem Keeps.look_of_due (h : vigil.Keeps lease ttl opened period) (hgoes : ¬ vigil.past.Ended lease)
    (hdue : Heartbeat.due opened period vigil.handed.length ≤ vigil.now.millis)
    (first : Heartbeat.Branch) : vigil.look first =
      .item (.ok ⟨lease, ttl⟩) (.beaten lease ttl opened period (vigil.handed.length + 1)) := by
  have hlive := (h.accounted.isLive_iff h.issued).2 hgoes
  rw [look, h.beat, Heartbeat.poll_beaten, if_pos hlive, if_pos hdue]

theorem Keeps.look_of_not_due (h : vigil.Keeps lease ttl opened period) (hgoes : ¬ vigil.past.Ended lease)
    (hdue : vigil.now.millis < Heartbeat.due opened period vigil.handed.length)
    (first : Heartbeat.Branch) : vigil.look first = .waiting := by
  have hlive := (h.accounted.isLive_iff h.issued).2 hgoes
  rw [look, h.beat, Heartbeat.poll_beaten, if_pos hlive, if_neg (not_le.2 hdue)]

/-- A reader who opened the stream at a whole millisecond finds what the store finds. -/
theorem Keeps.look_eq_pullRenewal {interval : Duration} {clock : Nat}
    (h : vigil.Keeps lease ttl (Duration.ofMillis clock) (interval.longer Renewal.shortestInterval))
    (first : Heartbeat.Branch) : vigil.look first = Heartbeat.ofPull lease (vigil.past.store.pullRenewal
      { Renewal.start lease ttl clock interval with taken := vigil.handed.length } vigil.now.millis) := by
  rw [look, h.beat]
  exact Heartbeat.poll_ofRenewal _
    { Renewal.start lease ttl clock interval with taken := vigil.handed.length } _ first

/-- The reader is handed an acknowledgement just if one is due and the lease has not ended. -/
theorem Keeps.after_poll (h : vigil.Keeps lease ttl opened period) (first : Heartbeat.Branch) :
    vigil.after (.poll first) =
      if ¬ vigil.past.Ended lease ∧ Heartbeat.due opened period vigil.handed.length ≤ vigil.now.millis then
        { vigil with
          beat := .beaten lease ttl opened period (vigil.handed.length + 1)
          handed := vigil.handed ++ [(⟨lease, ttl⟩, vigil.now)] }
      else vigil := by
  by_cases hended : vigil.past.Ended lease
  · simp only [after, h.look_of_ended hended, hended, not_true, false_and, if_false]
  · by_cases hdue : Heartbeat.due opened period vigil.handed.length ≤ vigil.now.millis
    · simp only [after, h.look_of_due hended hdue, hended, hdue, not_false_eq_true, and_self, if_true]
    · simp only [after, h.look_of_not_due hended (not_le.1 hdue), hdue, and_false, if_false]

theorem Keeps.after (h : vigil.Keeps lease ttl opened period) (move : Move) :
    (vigil.after move).Keeps lease ttl opened period := by
  cases move with
  | happen happening =>
    exact ⟨h.consistent.after happening, h.accounted.after h.consistent happening,
      Chronicle.issued_after h.issued happening, h.beat, h.handed⟩
  | wait time => exact ⟨h.consistent, h.accounted, h.issued, h.beat, h.handed⟩
  | poll first =>
    rw [h.after_poll]
    split_ifs with hnext
    · refine ⟨h.consistent, h.accounted, h.issued, by simp, fun number ack time hentry => ?_⟩
      rw [List.getElem?_append] at hentry
      split_ifs at hentry with hbefore
      · exact h.handed number ack time hentry
      · obtain ⟨hlast, hsame⟩ := List.getElem?_eq_some_iff.1 hentry
        rw [List.length_singleton] at hlast
        have hnumber : number = vigil.handed.length := by omega
        rw [List.getElem_singleton] at hsame
        cases hsame
        exact ⟨rfl, hnumber ▸ hnext.2⟩
    · exact h

theorem Keeps.run (h : vigil.Keeps lease ttl opened period) (moves : List Move) :
    (vigil.run moves).Keeps lease ttl opened period := by
  induction moves generalizing vigil with
  | nil => exact h
  | cons move moves ih => exact ih (h.after move)

/-- Whatever comes after the end of the lease, the reader is handed nothing more. -/
theorem Keeps.run_of_ended (h : vigil.Keeps lease ttl opened period) (hended : vigil.past.Ended lease)
    (moves : List Move) :
    (vigil.run moves).past.Ended lease ∧ (vigil.run moves).handed = vigil.handed := by
  induction moves generalizing vigil with
  | nil => exact ⟨hended, rfl⟩
  | cons move moves ih =>
    obtain ⟨hended', hsame⟩ : (vigil.after move).past.Ended lease ∧
        (vigil.after move).handed = vigil.handed := by
      cases move with
      | happen happening => exact ⟨hended.after happening, rfl⟩
      | wait time => exact ⟨hended, rfl⟩
      | poll first =>
        rw [h.after_poll, if_neg fun hnext => hnext.1 hended]
        exact ⟨hended, rfl⟩
    rw [← hsame]
    exact ih (h.after move) hended'

/-- Looks one after the other hand out what is due by now, as far as they reach. -/
theorem Keeps.run_polls (h : vigil.Keeps lease ttl opened period) (hgoes : ¬ vigil.past.Ended lease)
    (firsts : List Heartbeat.Branch) (number : Nat) :
    number < (vigil.run (firsts.map .poll)).handed.length ↔ number < vigil.handed.length ∨
      number < vigil.handed.length + firsts.length ∧
        Heartbeat.due opened period number ≤ vigil.now.millis := by
  induction firsts generalizing vigil with
  | nil =>
    simp only [List.map_nil, run_nil, List.length_nil]
    omega
  | cons first firsts ih =>
    have hnext := ih (h.after (.poll first))
    rw [List.map_cons, run_cons]
    rw [h.after_poll] at hnext ⊢
    by_cases hdue : Heartbeat.due opened period vigil.handed.length ≤ vigil.now.millis
    · rw [if_pos ⟨hgoes, hdue⟩] at hnext ⊢
      rw [hnext hgoes]
      simp only [List.length_append, List.length_cons, List.length_nil]
      -- the first look brings the renewal whose number is that of those handed out before
      by_cases hnumber : number = vigil.handed.length
      · subst hnumber
        omega
      · omega
    · rw [if_neg fun hnext => hdue hnext.2] at hnext ⊢
      rw [hnext hgoes]
      -- nothing is due: not the next renewal, and so none after it
      by_cases hnumber : number < vigil.handed.length
      · omega
      · have hmono := Heartbeat.due_mono opened period (not_lt.1 hnumber)
        simp only [List.length_cons]
        omega

end Vigil

/-- Heartbeats tell the truth. A live lease of a store that answers was granted once, with one time-to-live,
and its stream can be opened. Whatever happens then, whenever and however often the reader looks, and
whichever branch each look tries first:

* before the lease is revoked or the store closed, a look finds an acknowledgement with that time-to-live
  just from the millisecond on in which the next renewal is due, counted from the opening by the number of
  those handed out before;
* looks one after the other hand out what is due by then, each renewal once and none left out;
* once the lease is revoked or the store closed, every look finds the end of the stream, and nothing more is
  handed out.

Where the stream was opened at a whole millisecond, `Store.pullRenewal` finds the same. -/
theorem heartbeat_tells_truth {before : List Happening} {lease : LeaseId} (opened interval : Duration)
    (hcheck : (Chronicle.start.run before).store.check = .ok ())
    (hlive : (Chronicle.start.run before).store.isLive lease = true) :
    let past := Chronicle.start.run before
    let due := Heartbeat.due opened (interval.longer Renewal.shortestInterval)
    ∃ ttl beat, (∀ other, (lease, other) ∈ past.issued ↔ other = ttl) ∧
      Heartbeat.openAt past.store opened lease interval = .ok beat ∧
      ∀ moves, let vigil := Vigil.run ⟨past, opened, beat, []⟩ moves
        (¬ vigil.past.Ended lease →
          (∀ first, due vigil.handed.length ≤ vigil.now.millis →
            ∃ rest, vigil.look first = .item (.ok ⟨lease, ttl⟩) rest) ∧
          (∀ first, vigil.now.millis < due vigil.handed.length → vigil.look first = .waiting) ∧
          ∀ (firsts : List Heartbeat.Branch) (number : Nat),
            number < (vigil.run (firsts.map .poll)).handed.length ↔ number < vigil.handed.length ∨
              number < vigil.handed.length + firsts.length ∧ due number ≤ vigil.now.millis) ∧
        (∀ number ack time, vigil.handed[number]? = some (ack, time) →
          ack = ⟨lease, ttl⟩ ∧ due number ≤ time.millis) ∧
        (vigil.past.Ended lease → (∀ first, vigil.look first = .finished) ∧
          ∀ later, (vigil.run later).past.Ended lease ∧ (vigil.run later).handed = vigil.handed) ∧
        ∀ clock, opened = Duration.ofMillis clock →
          ∃ renewal, past.store.keepAlive clock lease interval = .ok renewal ∧
            ∀ first, vigil.look first = Heartbeat.ofPull lease (vigil.past.store.pullRenewal
              { renewal with taken := vigil.handed.length } vigil.now.millis) := by
  intro past due
  have hconsistent : past.Consistent := Chronicle.consistent_run before
  have haccounted : past.Accounted := Chronicle.accounted_run before
  obtain ⟨ttl, httl⟩ := Option.isSome_iff_exists.1 hlive
  have hissued := ((haccounted.live_iff lease ttl).1 httl).1
  refine ⟨ttl, _, fun other => ⟨fun hother => ?_, fun hother => hother ▸ hissued⟩,
    Heartbeat.openAt_eq hcheck httl opened interval, fun moves => ?_⟩
  · exact hconsistent.issued_unique hissued hother
  · intro vigil
    have hkeeps : vigil.Keeps lease ttl opened (interval.longer Renewal.shortestInterval) :=
      Vigil.Keeps.run ⟨hconsistent, haccounted, hissued, rfl, by simp⟩ moves
    refine ⟨fun hgoes => ⟨fun first hdue => ⟨_, hkeeps.look_of_due hgoes hdue first⟩,
      fun first hdue => hkeeps.look_of_not_due hgoes hdue first, hkeeps.run_polls hgoes⟩, hkeeps.handed,
      fun hended => ⟨hkeeps.look_of_ended hended, hkeeps.run_of_ended hended⟩, fun clock hclock => ?_⟩
    subst hclock
    exact ⟨_, Store.keepAlive_of_check hcheck httl clock interval, hkeeps.look_eq_pullRenewal⟩

/-- A store that has granted a lease for thirty seconds. -/
def oneLease : List Happening := [.request 0 (.grant 30)]

/-- A reader comes late, and the lease is revoked while two more renewals are due. -/
def lateReading : List Vigil.Move :=
  [.wait (Duration.ofSecs 25), .poll .tick, .poll .ending, .poll .tick, .poll .ending,
    .wait (Duration.ofSecs 20), .happen (.request 45007 (.revoke ⟨1⟩))]

/-- What has come meanwhile is handed out at once, whichever branch the looks try first. With the
revocation the stream has ended all the same. -/
theorem heartbeat_tells_truth_late :
    ∃ beat, Heartbeat.openAt (Chronicle.start.run oneLease).store (Duration.ofMillis 7) ⟨1⟩
        (Duration.ofSecs 10) = .ok beat ∧
      let vigil := Vigil.run ⟨Chronicle.start.run oneLease, Duration.ofMillis 7, beat, []⟩ lateReading
      vigil.handed.map (·.2) = List.replicate 3 (Duration.ofMillis 25007) ∧
        ∀ first, vigil.look first = .finished := by
  have hcheck : (Chronicle.start.run oneLease).store.check = .ok () := by decide +kernel
  have hlive : (Chronicle.start.run oneLease).store.isLive ⟨1⟩ = true := by decide +kernel
  obtain ⟨ttl, beat, -, hopen, hruns⟩ := heartbeat_tells_truth (Duration.ofMillis 7) (Duration.ofSecs 10)
    hcheck hlive
  have httl : (Chronicle.start.run oneLease).store.ttl? ⟨1⟩ = some 30 := by decide +kernel
  cases hopen.symm.trans (Heartbeat.openAt_eq hcheck httl _ _)
  exact ⟨_, hopen, by decide +kernel, ((hruns lateReading).2.2.1 (by decide +kernel)).1⟩

end ServiceRegistry
