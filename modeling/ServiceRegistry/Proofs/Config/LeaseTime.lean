import ServiceRegistry.Config.LeaseTime
import ServiceRegistry.Proofs.Registry.Requests

/-!
# Lease times

The time-to-live of a lease and the interval of its renewals follow from the duration in the configuration by
exact arithmetic, whatever that duration is, and machine words hold every number on the way. The interval is
a third of the time-to-live, rounded down to a nanosecond, so three renewals fall into every such span.
-/
namespace ServiceRegistry

/-! ## Machine words -/

namespace Word

theorem toNat_lt_count (a : UInt64) : a.toNat < count := a.toNat_lt

theorem add?_eq_some {a b : UInt64} (h : a.toNat + b.toNat < count) :
    ∃ c, add? a b = some c ∧ c.toNat = a.toNat + b.toNat :=
  ⟨a + b, if_pos h, by rw [UInt64.toNat_add]; exact Nat.mod_eq_of_lt h⟩

theorem mul?_eq_some {a b : UInt64} (h : a.toNat * b.toNat < count) :
    ∃ c, mul? a b = some c ∧ c.toNat = a.toNat * b.toNat :=
  ⟨a * b, if_pos h, by rw [UInt64.toNat_mul]; exact Nat.mod_eq_of_lt h⟩

theorem addHalves?_eq_some {a b : UInt32} (h : a.toNat + b.toNat < UInt32.size) :
    ∃ c, addHalves? a b = some c ∧ c.toNat = a.toNat + b.toNat :=
  ⟨a + b, if_pos h, by rw [UInt32.toNat_add]; exact Nat.mod_eq_of_lt h⟩

theorem toInt_toSigned (a : UInt64) : (toSigned a).toInt = min a.toNat maxSigned := by
  unfold toSigned
  split
  · rename_i hle
    rw [Int64.toInt_ofInt_of_le (by omega) (by unfold maxSigned at hle; omega)]
    omega
  · rename_i hlt
    rw [Int64.toInt_maxValue]
    unfold maxSigned at hlt ⊢
    omega

theorem toNat_toUnsigned? (a : Int64) :
    ((toUnsigned? a).getD 1).toNat = if 0 ≤ a.toInt then a.toInt.toNat else 1 := by
  unfold toUnsigned?
  split
  · have hlt := a.toInt_lt
    rw [Option.getD_some, UInt64.toNat_ofNat_of_lt']
    rw [UInt64.size]
    omega
  · rfl

end Word

namespace Duration.Words

variable (d e : Words)

theorem nanos_value : d.value.nanos = d.secs.toNat * perSecond + d.nanos.toNat := rfl

theorem secs_value : d.value.secs = d.secs.toNat := by
  have hnanos := d.nanos_lt
  simp only [Duration.secs, nanos_value, perSecond] at hnanos ⊢
  omega

theorem value_ofSecs (secs : UInt64) : (ofSecs secs).value = Duration.ofSecs secs.toNat :=
  congrArg Duration.mk (Nat.add_zero _)

theorem longer_iff : d.secs < e.secs ∨ d.secs = e.secs ∧ d.nanos ≤ e.nanos ↔
    d.value.nanos ≤ e.value.nanos := by
  have hd := d.nanos_lt
  have he := e.nanos_lt
  have hdValue := d.nanos_value
  have heValue := e.nanos_value
  rw [UInt64.lt_iff_toNat_lt, ← UInt64.toNat_inj, UInt32.le_iff_toNat_le]
  unfold perSecond at hd he hdValue heValue
  omega

theorem value_longer : (d.longer e).value = d.value.longer e.value := by
  unfold longer Duration.longer
  by_cases h : d.value.nanos ≤ e.value.nanos
  · rw [if_pos h, if_pos ((longer_iff d e).2 h)]
  · rw [if_neg h, if_neg (mt (longer_iff d e).1 h)]

/-- Fewer nanoseconds than make a second leave the seconds as they are. -/
theorem carry?_eq_some {secs : UInt64} {nanos : UInt32} (h : nanos.toNat < perSecond) :
    ∃ d, carry? secs nanos = some d ∧
      d.value.nanos = secs.toNat * perSecond + nanos.toNat := by
  have hzero : (nanos / 1000000000).toUInt64.toNat = 0 := by
    rw [UInt32.toNat_toUInt64, UInt32.toNat_div]
    exact Nat.div_eq_of_lt h
  obtain ⟨sum, hsum, hvalue⟩ := Word.add?_eq_some (a := secs)
    (by rw [hzero]; exact Word.toNat_lt_count secs)
  refine ⟨_, congrArg _ hsum, ?_⟩
  rw [nanos_value]
  simp only [hvalue, hzero, UInt32.toNat_mod]
  rw [Nat.add_zero]
  exact congrArg _ (Nat.mod_eq_of_lt h)

/-- Seconds and nanoseconds are divided apart: what is left of the seconds makes fewer than a second of
nanoseconds, together with the quotient of these. -/
theorem div_apart {secs nanos n : Nat} (hn : 0 < n) (hnanos : nanos < perSecond) :
    nanos / n + (secs % n * perSecond + nanos % n) / n < perSecond ∧
      secs / n * perSecond + (nanos / n + (secs % n * perSecond + nanos % n) / n) =
        (secs * perSecond + nanos) / n := by
  have hjoin : nanos / n + (secs % n * perSecond + nanos % n) / n =
      (secs % n * perSecond + nanos) / n := by
    rw [← Nat.mul_add_div hn]
    congr 1
    have := Nat.div_add_mod nanos n
    omega
  rw [hjoin]
  constructor
  · have hleft : secs % n + 1 ≤ n := Nat.mod_lt _ hn
    refine Nat.div_lt_of_lt_mul ?_
    calc secs % n * perSecond + nanos < (secs % n + 1) * perSecond := by rw [Nat.add_mul]; omega
      _ ≤ n * perSecond := Nat.mul_le_mul_right _ hleft
  · rw [← Nat.mul_add_div hn]
    congr 1
    have hsecs := congrArg (· * perSecond) (Nat.div_add_mod secs n)
    simp only [Nat.add_mul, Nat.mul_assoc] at hsecs
    omega

/-- Nothing overflows when a duration is divided. -/
theorem dividedBy?_eq_some {n : UInt32} (hn : n ≠ 0) :
    ∃ q, d.dividedBy? n = some q ∧ q.value.nanos = d.value.nanos / n.toNat := by
  have hpos : 0 < n.toNat := by
    rcases Nat.eq_zero_or_pos n.toNat with hzero | hpos
    · exact absurd (UInt32.toNat_inj.1 hzero) hn
    · exact hpos
  have hn32 : n.toNat < UInt32.size := n.toNat_lt
  obtain ⟨hless, hquotient⟩ := @div_apart d.secs.toNat d.nanos.toNat n.toNat hpos d.nanos_lt
  have hmoreLess := (Nat.le_add_left _ _).trans_lt hless
  have hsecond : perSecond < UInt32.size := by decide
  have hsecs : (d.secs % n.toUInt64).toNat = d.secs.toNat % n.toNat := by
    rw [UInt64.toNat_mod, UInt32.toNat_toUInt64]
  have hnanos : (d.nanos % n).toUInt64.toNat = d.nanos.toNat % n.toNat := by
    rw [UInt32.toNat_toUInt64, UInt32.toNat_mod]
  have hfits : d.secs.toNat % n.toNat * perSecond + d.nanos.toNat % n.toNat < Word.count := by
    have hsecsLess := Nat.mod_lt d.secs.toNat hpos
    have hnanosLess := Nat.mod_lt d.nanos.toNat hpos
    unfold UInt32.size at hn32
    unfold perSecond Word.count
    omega
  -- What is left of the seconds is counted in nanoseconds.
  obtain ⟨scaled, hscaled, hvalue⟩ := @Word.mul?_eq_some (d.secs % n.toUInt64) 1000000000 (by
    rw [hsecs]
    exact (Nat.le_add_right _ _).trans_lt hfits)
  obtain ⟨left, hleft, hvalue'⟩ := @Word.add?_eq_some scaled (d.nanos % n).toUInt64 (by
    rw [hvalue, hsecs, hnanos]
    exact hfits)
  have hmore : (left / n.toUInt64).toUInt32.toNat =
      (d.secs.toNat % n.toNat * perSecond + d.nanos.toNat % n.toNat) / n.toNat := by
    rw [UInt64.toNat_toUInt32, UInt64.toNat_div, UInt32.toNat_toUInt64, hvalue', hvalue, hsecs, hnanos]
    exact Nat.mod_eq_of_lt (hmoreLess.trans hsecond)
  obtain ⟨nanos, hsum, hvalue''⟩ := @Word.addHalves?_eq_some (d.nanos / n) (left / n.toUInt64).toUInt32
    (by
      rw [UInt32.toNat_div, hmore]
      exact hless.trans hsecond)
  rw [UInt32.toNat_div, hmore] at hvalue''
  obtain ⟨q, hq, hqValue⟩ := @carry?_eq_some (d.secs / n.toUInt64) nanos (hvalue'' ▸ hless)
  refine ⟨q, ?_, ?_⟩
  · simp only [dividedBy?, if_neg hn, hscaled, hleft, hsum, hq, Option.bind_eq_bind, Option.bind_some]
  · rw [hqValue, hvalue'', UInt64.toNat_div, UInt32.toNat_toUInt64, hquotient, nanos_value]

end Duration.Words

/-! ## Time-to-live and interval -/

namespace Config

theorem nanos_renewalInterval (ttl : Nat) :
    (renewalInterval ttl).nanos = max 1 ttl * Duration.perSecond / 3 := rfl

/-- What the setter makes of a duration. -/
theorem nanos_longer_shortest (ttl : Duration) :
    (ttl.longer shortestLeaseTtl).nanos = max Duration.perSecond ttl.nanos := by
  have hshortest : shortestLeaseTtl.nanos = Duration.perSecond := by decide
  rw [Duration.longer, hshortest]
  split
  · rw [hshortest, Nat.max_eq_left (by assumption)]
  · rw [Nat.max_eq_right (by omega)]

theorem secs_longer_shortest (ttl : Duration) : (ttl.longer shortestLeaseTtl).secs = max 1 ttl.secs := by
  rw [Duration.secs, Duration.secs, nanos_longer_shortest, Duration.perSecond]
  omega

/-- Three intervals make up the time-to-live but for two nanoseconds at most. -/
theorem renewalInterval_bounds (ttl : Nat) :
    3 * (renewalInterval ttl).nanos ≤ max 1 ttl * Duration.perSecond ∧
      max 1 ttl * Duration.perSecond < 3 * (renewalInterval ttl).nanos + 3 := by
  rw [nanos_renewalInterval]
  omega

/-- No time-to-live makes the store renew a lease as often as it can. -/
theorem shortestInterval_lt (ttl : Nat) :
    Renewal.shortestInterval.nanos < (renewalInterval ttl).nanos := by
  have hshortest : Renewal.shortestInterval.nanos = 1000000 := by decide
  rw [nanos_renewalInterval, hshortest, Duration.perSecond]
  omega

theorem toInt_ttlWord (leaseTtl : Duration.Words) :
    (ttlWord leaseTtl).toInt = min leaseTtl.value.secs Word.maxSigned := by
  rw [ttlWord, Word.toInt_toSigned, Duration.Words.secs_value]

/-- The interval is computed without overflow, also from a time-to-live that is not positive. -/
theorem intervalWords?_eq_some (ttl : Int64) :
    ∃ interval, intervalWords? ttl = some interval ∧ interval.value = renewalInterval ttl.toInt.toNat := by
  have hcount : (if 1 < (Word.toUnsigned? ttl).getD 1 then (Word.toUnsigned? ttl).getD 1 else 1).toNat =
      max 1 ttl.toInt.toNat := by
    have hone : (1 : UInt64).toNat = 1 := rfl
    have hsecs := Word.toNat_toUnsigned? ttl
    split
    · rename_i hlt
      rw [UInt64.lt_iff_toNat_lt, hone] at hlt
      split at hsecs <;> omega
    · rename_i hle
      rw [UInt64.lt_iff_toNat_lt, hone] at hle
      split at hsecs <;> omega
  obtain ⟨interval, hinterval, hvalue⟩ :=
    (Duration.Words.ofSecs (if 1 < (Word.toUnsigned? ttl).getD 1
      then (Word.toUnsigned? ttl).getD 1 else 1)).dividedBy?_eq_some (n := 3) (by decide)
  refine ⟨interval, hinterval, congrArg Duration.mk (hvalue.trans ?_)⟩
  rw [Duration.Words.value_ofSecs, hcount]
  rfl

end Config

/-! ## Renewals -/

/-- In every span of some seconds from the first renewal on, three renewals at least are due. -/
def Renewal.DueThrice (renewal : Renewal) (secs : Nat) : Prop :=
  ∀ time, renewal.opened ≤ time → ∃ first, ∀ n, first ≤ n → n < first + 3 →
    time < { renewal with taken := n }.due ∧ { renewal with taken := n }.due ≤ time + secs * 1000

theorem Renewal.dueThrice_of_le {renewal : Renewal} {secs : Nat} (hpos : 0 < renewal.interval.nanos)
    (hle : 3 * renewal.interval.nanos ≤ secs * Duration.perSecond) : renewal.DueThrice secs := by
  intro time hopened
  have hdue : ∀ n t, { renewal with taken := n }.due ≤ t ↔
      renewal.opened * Duration.perMilli + n * renewal.interval.nanos ≤ t * Duration.perMilli :=
    fun n t => Duration.ceilMillis_le_iff
  -- The first renewal that is due after the time is not the first of all.
  have hlate : ∃ n, time < { renewal with taken := n }.due := by
    refine ⟨time * Duration.perMilli + 1, not_le.1 fun hearly => ?_⟩
    have hmany := Nat.le_mul_of_pos_right (time * Duration.perMilli + 1) hpos
    rw [hdue] at hearly
    omega
  obtain ⟨past, hpast⟩ : ∃ past, Nat.find hlate = past + 1 := by
    refine Nat.exists_eq_succ_of_ne_zero fun hzero => ?_
    have hfirst := Nat.find_spec hlate
    rw [hzero] at hfirst
    refine absurd ((hdue 0 time).2 ?_) (not_le.2 hfirst)
    rw [Nat.zero_mul, Nat.add_zero]
    exact Nat.mul_le_mul_right _ hopened
  have hbefore : { renewal with taken := past }.due ≤ time :=
    not_lt.1 (Nat.find_min hlate (hpast ▸ Nat.lt_succ_self past))
  refine ⟨past + 1, fun n hfirst hlast => ⟨?_, ?_⟩⟩
  · have hafter := Nat.find_spec hlate
    rw [hpast] at hafter
    have hmono : (past + 1) * renewal.interval.nanos ≤ n * renewal.interval.nanos :=
      Nat.mul_le_mul_right _ hfirst
    refine not_le.1 fun hearly => absurd ((hdue (past + 1) time).2 ?_) (not_le.2 hafter)
    rw [hdue] at hearly
    omega
  · have hmono : n * renewal.interval.nanos ≤ (past + 3) * renewal.interval.nanos :=
      Nat.mul_le_mul_right _ (by omega)
    rw [hdue] at hbefore ⊢
    unfold Duration.perSecond at hle
    unfold Duration.perMilli at hbefore ⊢
    rw [Nat.add_mul] at hmono
    omega

/-- The interval of a registry is that at which its lease is renewed. -/
theorem Renewal.interval_start (lease : LeaseId) (granted : Int) (opened ttl : Nat) :
    (start lease granted opened (Config.renewalInterval ttl)).interval = Config.renewalInterval ttl :=
  if_neg (not_le.2 (Config.shortestInterval_lt ttl))

/-- The time-to-live that a registry asks for its leases and the interval at which it has them renewed are
numbers that the store can take, and machine words hold all numbers from which they are computed. If the
setter has set the duration in the configuration, the time-to-live is that in whole seconds, one at least and
no more than the store can count, and three intervals make up all of it but two nanoseconds at most. So three
renewals are due in every span of the time-to-live. -/
theorem lease_time_safe {store : Store} {config : Config} {dialer : Dialer} {faults : Faults}
    {moves : List Move} {final : Site}
    (hrun : (Site.start store config dialer faults).run moves = some final) :
    (∀ ttl, .request (.grant ttl) ∈ final.client.log → ttl = config.leaseTtlSecs) ∧
    (∀ lease interval, .request (.keepAlive lease interval) ∈ final.client.log →
      interval = Config.renewalInterval config.leaseTtlSecs) ∧
    config.leaseTtlSecs ≤ Word.maxSigned ∧
    0 < (Config.renewalInterval config.leaseTtlSecs).nanos ∧
    (∀ words : Duration.Words, words.value = config.leaseTtl →
      (Config.ttlWord words).toInt = config.leaseTtlSecs ∧
      ∃ interval, Config.intervalWords? (Config.ttlWord words) = some interval ∧
        interval.value = Config.renewalInterval config.leaseTtlSecs) ∧
    ∀ (base : Config) (d : Duration), config.leaseTtl = (base.withLeaseTtl d).leaseTtl →
      1 ≤ config.leaseTtlSecs ∧ config.leaseTtlSecs = min Word.maxSigned (max 1 d.secs) ∧
      3 * (Config.renewalInterval config.leaseTtlSecs).nanos ≤
        (Duration.ofSecs config.leaseTtlSecs).nanos ∧
      (Duration.ofSecs config.leaseTtlSecs).nanos <
        3 * (Config.renewalInterval config.leaseTtlSecs).nanos + 3 ∧
      (∀ words : Duration.Words, words.value = d →
        (words.longer (.ofSecs 1)).value = config.leaseTtl) ∧
      ∀ lease granted opened, (Renewal.start lease granted opened
        (Config.renewalInterval config.leaseTtlSecs)).DueThrice config.leaseTtlSecs := by
  have hinterval : 0 < (Config.renewalInterval config.leaseTtlSecs).nanos :=
    (Nat.zero_le _).trans_lt (Config.shortestInterval_lt config.leaseTtlSecs)
  refine ⟨fun ttl hmem => ?_, fun lease interval hmem => ?_, Nat.min_le_right _ _, hinterval,
    fun words hwords => ?_, fun base d hset => ?_⟩
  · cases Site.asks_of_run hrun hmem
    rfl
  · cases Site.asks_of_run hrun hmem
    rfl
  · have httl : (Config.ttlWord words).toInt = config.leaseTtlSecs := by
      rw [Config.toInt_ttlWord, hwords]
      rfl
    refine ⟨httl, ?_⟩
    have hwords := Config.intervalWords?_eq_some (Config.ttlWord words)
    rwa [httl] at hwords
  · have httl : config.leaseTtlSecs = min (max 1 d.secs) Word.maxSigned := by
      rw [Config.leaseTtlSecs, hset, Config.withLeaseTtl, Config.secs_longer_shortest]
    have hone : 1 ≤ config.leaseTtlSecs := by
      rw [httl]
      exact Nat.le_min.2 ⟨Nat.le_max_left _ _, by decide⟩
    obtain ⟨hle, hlt⟩ := Config.renewalInterval_bounds config.leaseTtlSecs
    rw [Nat.max_eq_right hone] at hle hlt
    refine ⟨hone, httl.trans (Nat.min_comm _ _), hle, hlt, fun words hwords => ?_,
      fun lease granted opened => ?_⟩
    · rw [Duration.Words.value_longer, Duration.Words.value_ofSecs, hwords, hset]
      rfl
    · refine Renewal.dueThrice_of_le ?_ ?_
      · rw [Renewal.interval_start]
        exact hinterval
      · rw [Renewal.interval_start]
        exact hle

/-- A configuration with the longest duration that machine words hold. -/
def Config.longestLease : Config := (make "svc" []).withLeaseTtl (.ofParts 18446744073709551615 999999999)

/-- A registration, up to where its lease is about to be renewed. -/
def registersForLong : List Move := .call (.register "chat" "10.0.0.1" 9000) :: List.replicate 4 (.step 1)

/-- The site at which the lease that is asked for the longest time is about to be renewed. -/
def heldForLong : Site := ((Site.start .empty .longestLease .onFirstUse .none).run registersForLong).get rfl

theorem lease_time_safe_longest :
    (Site.start .empty .longestLease .onFirstUse .none).run registersForLong = some heldForLong ∧
      .request (.grant 9223372036854775807) ∈ heldForLong.client.log ∧
      .request (.keepAlive ⟨1⟩ ⟨3074457345618258602333333333⟩) ∈ heldForLong.client.log ∧
      Config.longestLease.leaseTtlSecs = 9223372036854775807 ∧
      Config.renewalInterval 9223372036854775807 = ⟨3074457345618258602333333333⟩ ∧
      (Renewal.start ⟨1⟩ 9223372036854775807 0 ⟨3074457345618258602333333333⟩).DueThrice
        9223372036854775807 := by
  have hrun : (Site.start .empty .longestLease .onFirstUse .none).run registersForLong =
      some heldForLong := (Option.some_get _).symm
  have hgrant : .request (.grant 9223372036854775807) ∈ heldForLong.client.log :=
    List.mem_cons_of_mem _ (List.mem_cons_of_mem _ List.mem_cons_self)
  have hrenew : .request (.keepAlive ⟨1⟩ ⟨3074457345618258602333333333⟩) ∈ heldForLong.client.log :=
    List.mem_cons_self
  obtain ⟨hgrants, hintervals, -, -, -, hset⟩ := lease_time_safe hrun
  have httl : Config.longestLease.leaseTtlSecs = 9223372036854775807 := by
    exact_mod_cast (hgrants _ hgrant).symm
  have hinterval := hintervals _ _ hrenew
  obtain ⟨-, -, -, -, -, hthrice⟩ := hset (Config.make "svc" []) _ rfl
  rw [httl] at hinterval hthrice
  rw [← hinterval] at hthrice
  exact ⟨hrun, hgrant, hrenew, httl, hinterval.symm, hthrice _ _ _⟩

end ServiceRegistry
