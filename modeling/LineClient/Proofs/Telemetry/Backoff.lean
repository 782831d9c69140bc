import LineClient.Proofs.Telemetry.Retry

/-!
# The pauses between attempts

A pause is computed in words: whole seconds in 64 bits and nanoseconds in 32, times a power of two
in 32 bits. The power and the product stop at their limits, and no other step overflows, so the
pause is exact below the longest duration.

* `add64?`, `mul64?`, `mul32?`, arithmetic that must fit; `saturatingPow`;
* `Duration.Words`, a duration in words; `Duration.Words.scale?_spec`,
  `Duration.Words.backoff?_spec`, no step overflows;
* `Duration.scale_ofSecs`, seconds and nanoseconds are multiplied with a carry;
* `Settings.BacksOff`; **`Settings.backsOff`**, the pauses of a reader.
-/

namespace LineClient

/-! ## Words -/

/-- A sum in 64 bits; none if it does not fit. -/
def add64? (a b : UInt64) : Option UInt64 :=
  if a.toNat + b.toNat < 2 ^ 64 then some (a + b) else none

/-- A product in 64 bits; none if it does not fit. -/
def mul64? (a b : UInt64) : Option UInt64 :=
  if a.toNat * b.toNat < 2 ^ 64 then some (a * b) else none

/-- A product in 32 bits; none if it does not fit. -/
def mul32? (a b : UInt32) : Option UInt32 :=
  if a.toNat * b.toNat < 2 ^ 32 then some (a * b) else none

/-- A power in 32 bits, or the greatest number of 32 bits if it does not fit. -/
def saturatingPow (base : UInt32) : Nat → UInt32
  | 0 => 1
  | k + 1 => (mul32? (saturatingPow base k) base).getD 0xFFFFFFFF

theorem exists_add64 {a b : UInt64} (h : a.toNat + b.toNat < 2 ^ 64) :
    ∃ c, add64? a b = some c ∧ c.toNat = a.toNat + b.toNat :=
  ⟨a + b, if_pos h, by rw [UInt64.toNat_add, Nat.mod_eq_of_lt h]⟩

theorem exists_mul64 {a b : UInt64} (h : a.toNat * b.toNat < 2 ^ 64) :
    ∃ c, mul64? a b = some c ∧ c.toNat = a.toNat * b.toNat :=
  ⟨a * b, if_pos h, by rw [UInt64.toNat_mul, Nat.mod_eq_of_lt h]⟩

theorem exists_mulAdd64 {a b c : UInt64} (h : a.toNat * b.toNat + c.toNat < 2 ^ 64) :
    ∃ d, (mul64? a b).bind (add64? · c) = some d ∧ d.toNat = a.toNat * b.toNat + c.toNat := by
  obtain ⟨product, hproduct, hvalue⟩ := exists_mul64 ((Nat.le_add_right _ _).trans_lt h)
  rw [← hvalue] at h ⊢
  rw [hproduct]
  exact exists_add64 h

theorem mulAdd64_eq_none {a b c : UInt64} (h : ¬ a.toNat * b.toNat + c.toNat < 2 ^ 64) :
    (mul64? a b).bind (add64? · c) = none := by
  by_cases hmul : a.toNat * b.toNat < 2 ^ 64
  · obtain ⟨product, hproduct, hvalue⟩ := exists_mul64 hmul
    rw [hproduct]
    exact if_neg (hvalue ▸ h)
  · rw [mul64?, if_neg hmul]
    rfl

theorem exists_mul32 {a b : UInt32} (h : a.toNat * b.toNat < 2 ^ 32) :
    ∃ c, mul32? a b = some c ∧ c.toNat = a.toNat * b.toNat :=
  ⟨a * b, if_pos h, by rw [UInt32.toNat_mul, Nat.mod_eq_of_lt h]⟩

/-- **The power of two**, as far as 32 bits can hold it. -/
theorem toNat_saturatingPow (k : Nat) : (saturatingPow 2 k).toNat = backoffFactor k := by
  rw [Supervision.backoffFactor_eq]
  induction k with
  | zero => rfl
  | succ k ih =>
    have htwo : (2 : UInt32).toNat = 2 := rfl
    rw [saturatingPow, Nat.pow_succ]
    by_cases h : (saturatingPow 2 k).toNat * (2 : UInt32).toNat < 2 ^ 32
    · obtain ⟨c, hc, hvalue⟩ := exists_mul32 h
      rw [htwo] at h hvalue
      rw [hc, Option.getD_some, hvalue]
      omega
    · have hgreatest : (0xFFFFFFFF : UInt32).toNat = 2 ^ 32 - 1 := rfl
      rw [mul32?, if_neg h, Option.getD_none, hgreatest]
      rw [htwo] at h
      omega

/-! ## Durations in words -/

namespace Duration

/-- A duration in words: whole seconds, and the nanoseconds of another one. -/
structure Words where
  secs : UInt64
  nanos : UInt32
  deriving DecidableEq, Repr

namespace Words

/-- The duration that is kept. -/
def duration (d : Words) : Duration := .ofSecs d.secs.toNat d.nanos.toNat

def longest : Words := ⟨0xFFFFFFFFFFFFFFFF, 999999999⟩

/-- A duration of seconds and nanoseconds, of which a whole second is carried; none if the carry
overflows. -/
def new? (secs : UInt64) (nanos : UInt32) : Option Words :=
  if nanos < 1000000000 then some ⟨secs, nanos⟩
  else (add64? secs (nanos / 1000000000).toUInt64).map (⟨·, nanos % 1000000000⟩)

/-- A duration of whole milliseconds; none if a step overflows. -/
def ofMillis? (ms : UInt64) : Option Words := do
  let nanos ← mul32? (ms % 1000).toUInt32 1000000
  return ⟨ms / 1000, nanos⟩

/-- The duration `factor` times as long, or the longest one if there are too many seconds; none if
any other step overflows. -/
def scale? (d : Words) (factor : UInt32) : Option Words := do
  let total ← mul64? d.nanos.toUInt64 factor.toUInt64
  match (mul64? d.secs factor.toUInt64).bind (add64? · (total / 1000000000)) with
  | some secs => new? secs (total % 1000000000).toUInt32
  | none => return longest

/-- The pause after `attempt` failed attempts in a row, with the first one of `ms` milliseconds;
none if a step overflows. -/
def backoff? (ms : UInt64) (attempt : UInt32) : Option Words := do
  (← ofMillis? ms).scale? (saturatingPow 2 attempt.toNat)

end Words

/-- **Seconds and nanoseconds are multiplied with a carry**, unless there are too many seconds. -/
theorem scale_ofSecs (secs nanos factor : Nat) : (ofSecs secs nanos).scale factor =
    if secs * factor + nanos * factor / 10 ^ 9 < 2 ^ 64 then
      ofSecs (secs * factor + nanos * factor / 10 ^ 9) (nanos * factor % 10 ^ 9)
    else max := by
  have hvalue : (secs * 10 ^ 9 + nanos) * factor =
      (secs * factor + nanos * factor / 10 ^ 9) * 10 ^ 9 + nanos * factor % 10 ^ 9 := by
    rw [Nat.add_mul, Nat.add_mul, Nat.mul_right_comm, Nat.add_assoc, Nat.div_add_mod']
  have hmod : nanos * factor % 10 ^ 9 < 10 ^ 9 := Nat.mod_lt _ (by decide)
  rw [scale, ofSecs, hvalue]
  generalize secs * factor + nanos * factor / 10 ^ 9 = q
  generalize nanos * factor % 10 ^ 9 = r at hmod ⊢
  split_ifs with hq
  · refine congrArg mk (Nat.min_eq_left ?_)
    rw [max]
    dsimp only
    omega
  · refine congrArg mk (Nat.min_eq_right ?_)
    rw [max]
    dsimp only
    omega

namespace Words

theorem duration_longest : longest.duration = max := by decide

theorem ofMillis?_spec (ms : UInt64) : ∃ d, ofMillis? ms = some d ∧ d.nanos.toNat < 10 ^ 9 ∧
    d.duration = .ofMillis ms.toNat := by
  have hrest : (ms % 1000).toUInt32.toNat = ms.toNat % 1000 := by
    rw [UInt64.toNat_toUInt32, UInt64.toNat_mod]
    exact Nat.mod_eq_of_lt ((Nat.mod_lt _ (by decide)).trans (by decide))
  have hmillion : (1000000 : UInt32).toNat = 10 ^ 6 := rfl
  have hless : (ms % 1000).toUInt32.toNat * (1000000 : UInt32).toNat < 2 ^ 32 := by
    rw [hrest, hmillion]
    omega
  obtain ⟨nanos, hnanos, hvalue⟩ := exists_mul32 hless
  rw [hrest, hmillion] at hvalue
  refine ⟨⟨ms / 1000, nanos⟩, by rw [ofMillis?, hnanos]; rfl, ?_, ?_⟩
  · dsimp only
    omega
  · have hsecs : (ms / 1000).toNat = ms.toNat / 1000 := UInt64.toNat_div ms 1000
    rw [duration, ofMillis, ofSecs, hsecs, hvalue]
    refine congrArg Duration.mk ?_
    omega

/-- **Only the seconds can overflow** in a product, and then it is the longest duration. -/
theorem scale?_spec {d : Words} (hd : d.nanos.toNat < 10 ^ 9) (factor : UInt32) :
    ∃ d', d.scale? factor = some d' ∧ d'.nanos.toNat < 10 ^ 9 ∧
      d'.duration = d.duration.scale factor.toNat := by
  have hwide : factor.toUInt64.toNat = factor.toNat := UInt32.toNat_toUInt64 factor
  have hless : d.nanos.toUInt64.toNat * factor.toUInt64.toNat < 2 ^ 64 := by
    rw [UInt32.toNat_toUInt64, hwide]
    exact (Nat.mul_lt_mul'' hd factor.toNat_lt).trans (by decide)
  obtain ⟨total, htotal, hvalue⟩ := exists_mul64 hless
  rw [UInt32.toNat_toUInt64, hwide] at hvalue
  -- the nanoseconds of the product, as the seconds that are carried and the rest
  have hcarry : (total / 1000000000).toNat = d.nanos.toNat * factor.toNat / 10 ^ 9 := by
    rw [UInt64.toNat_div, hvalue]
    rfl
  have hrest : (total % 1000000000).toUInt32.toNat = d.nanos.toNat * factor.toNat % 10 ^ 9 := by
    rw [UInt64.toNat_toUInt32, UInt64.toNat_mod, hvalue]
    exact Nat.mod_eq_of_lt ((Nat.mod_lt _ (by decide)).trans (by decide))
  have hlt : (total % 1000000000).toUInt32.toNat < 10 ^ 9 := by
    rw [hrest]
    exact Nat.mod_lt _ (by decide)
  have hscale : d.duration.scale factor.toNat = _ := scale_ofSecs _ _ _
  rw [← hcarry, ← hrest] at hscale
  rw [scale?, htotal, hscale, Option.bind_eq_bind, Option.bind_some]
  by_cases hsum : d.secs.toNat * factor.toNat + (total / 1000000000).toNat < 2 ^ 64
  · obtain ⟨secs, hsecs, hvalue⟩ :=
      exists_mulAdd64 (a := d.secs) (b := factor.toUInt64) (c := total / 1000000000)
        (by rwa [hwide])
    rw [hwide] at hvalue
    rw [hsecs, if_pos hsum]
    refine ⟨⟨secs, (total % 1000000000).toUInt32⟩, if_pos hlt, hlt, ?_⟩
    rw [duration, hvalue]
  · rw [mulAdd64_eq_none (by rwa [hwide]), if_neg hsum]
    exact ⟨longest, rfl, by decide, duration_longest⟩

theorem backoff?_spec (ms : UInt64) (attempt : UInt32) : ∃ d, backoff? ms attempt = some d ∧
    d.nanos.toNat < 10 ^ 9 ∧
      d.duration = (Duration.ofMillis ms.toNat).scale (backoffFactor attempt.toNat) := by
  obtain ⟨d, hd, hnanos, hduration⟩ := ofMillis?_spec ms
  obtain ⟨d', hd', hnanos', hduration'⟩ := scale?_spec hnanos (saturatingPow 2 attempt.toNat)
  refine ⟨d', ?_, hnanos', ?_⟩
  · rw [backoff?, hd]
    exact hd'
  · rw [hduration', hduration, toNat_saturatingPow]

end Words

end Duration

/-! ## Pauses -/

/-- The time in milliseconds that the pause after `k` attempts is meant to last. -/
def Settings.backoffMs (s : Settings) (k : Nat) : Nat :=
  s.telemetry.reconnectBackoffMs * min (2 ^ k) (2 ^ 32 - 1)

/-- **The exact pause**, below the longest duration. -/
theorem Settings.backoffAfter_eq_ite (s : Settings) (k : Nat) :
    (Reader.ofSettings s).backoffAfter k =
      if s.backoffMs k / 1000 < 2 ^ 64 then .ofMillis (s.backoffMs k) else .max := by
  have hbackoff : (Reader.ofSettings s).backoff.nanos = s.telemetry.reconnectBackoffMs * 10 ^ 6 :=
    rfl
  rw [Reader.backoffAfter, Duration.scale, hbackoff, Supervision.backoffFactor_eq,
    Nat.mul_right_comm, ← Settings.backoffMs]
  have hmax : Duration.max.nanos = 2 ^ 64 * 10 ^ 9 - 1 := by decide
  split_ifs with h
  · exact congrArg Duration.mk (Nat.min_eq_left (by omega))
  · have hle : Duration.max.nanos ≤ s.backoffMs k * 10 ^ 6 := by omega
    exact congrArg Duration.mk (Nat.min_eq_right hle)

/-- What the pauses of a reader are like, when its first pause and the number of attempts fit into
words. -/
structure Settings.BacksOff (s : Settings) (k : Nat) : Prop where
  exact : s.backoffMs k / 1000 ≤ 2 ^ 64 - 1 →
    (Reader.ofSettings s).backoffAfter k = .ofMillis (s.backoffMs k)
  longest : 2 ^ 64 - 1 < s.backoffMs k / 1000 → (Reader.ofSettings s).backoffAfter k = .max
  /-- No step overflows, and the nanoseconds are less than a second. -/
  words : ∃ d, Duration.Words.backoff? (.ofNat s.telemetry.reconnectBackoffMs) (.ofNat k) = some d ∧
    d.nanos.toNat < 10 ^ 9 ∧ d.duration = (Reader.ofSettings s).backoffAfter k
  mono (s' : Settings) (k' : Nat)
    (hs : s.telemetry.reconnectBackoffMs ≤ s'.telemetry.reconnectBackoffMs) (hk : k ≤ k') :
    ((Reader.ofSettings s).backoffAfter k).nanos ≤ ((Reader.ofSettings s').backoffAfter k').nanos
  first_le : (Duration.ofMillis s.telemetry.reconnectBackoffMs).nanos ≤
    ((Reader.ofSettings s).backoffAfter k).nanos
  /-- Another attempt doubles the pause, unless a limit is reached. -/
  doubled : k < 31 → s.backoffMs (k + 1) / 1000 ≤ 2 ^ 64 - 1 →
    ((Reader.ofSettings s).backoffAfter (k + 1)).nanos =
      2 * ((Reader.ofSettings s).backoffAfter k).nanos
  /-- The number of attempts in the row does not overflow when this one is counted. -/
  counter (hattempts : s.telemetry.reconnectAttempts < 2 ^ 32) (attempt roundTrips : Nat)
    (hnext : nextAttempt? s.telemetry.reconnectAttempts attempt roundTrips = some k) :
    k + 1 < 2 ^ 32

theorem Settings.backoffMs_mono {s s' : Settings} {k k' : Nat}
    (hs : s.telemetry.reconnectBackoffMs ≤ s'.telemetry.reconnectBackoffMs) (hk : k ≤ k') :
    s.backoffMs k ≤ s'.backoffMs k' := by
  have hpow : 2 ^ k ≤ 2 ^ k' := Nat.pow_le_pow_right Nat.two_pos hk
  exact Nat.mul_le_mul hs (by omega)

theorem Settings.backoffMs_zero (s : Settings) : s.backoffMs 0 = s.telemetry.reconnectBackoffMs :=
  Nat.mul_one _

theorem Settings.backoffMs_succ (s : Settings) {k : Nat} (hk : k < 31) :
    s.backoffMs (k + 1) = 2 * s.backoffMs k := by
  have hpow : 2 ^ (k + 1) ≤ 2 ^ 31 := Nat.pow_le_pow_right Nat.two_pos (by omega)
  have hsucc : 2 ^ (k + 1) = 2 * 2 ^ k := Nat.pow_succ'
  rw [backoffMs, backoffMs, Nat.min_eq_left (by omega), Nat.min_eq_left (by omega), hsucc,
    Nat.mul_left_comm]

/-- The pauses do not get shorter, whether the first one is longer or there are more attempts. -/
theorem Settings.backoffAfter_mono {s s' : Settings} {k k' : Nat}
    (hle : s.backoffMs k ≤ s'.backoffMs k') :
    ((Reader.ofSettings s).backoffAfter k).nanos ≤
      ((Reader.ofSettings s').backoffAfter k').nanos := by
  have hmax : Duration.max.nanos = 2 ^ 64 * 10 ^ 9 - 1 := by decide
  rw [backoffAfter_eq_ite, backoffAfter_eq_ite]
  split_ifs with h h'
  · exact Nat.mul_le_mul_right _ hle
  · rw [Duration.ofMillis, hmax]
    dsimp only
    omega
  · omega
  · exact Nat.le_refl _

/-- **Pauses are exact, get no shorter, and end at the longest duration**, for every first pause in
64 bits and every attempt in 32 bits, and nothing overflows on the way. -/
theorem Settings.backsOff {s : Settings} (hs : s.telemetry.reconnectBackoffMs < 2 ^ 64) {k : Nat}
    (hk : k < 2 ^ 32) : s.BacksOff k where
  exact h := by rw [backoffAfter_eq_ite, if_pos (by omega)]
  longest h := by rw [backoffAfter_eq_ite, if_neg (by omega)]
  words := by
    obtain ⟨d, hd, hnanos, hduration⟩ :=
      Duration.Words.backoff?_spec (.ofNat s.telemetry.reconnectBackoffMs) (.ofNat k)
    rw [UInt64.toNat_ofNat_of_lt' hs, UInt32.toNat_ofNat_of_lt' hk] at hduration
    exact ⟨d, hd, hnanos, hduration⟩
  mono s' k' hs' hk' := backoffAfter_mono (backoffMs_mono hs' hk')
  first_le := by
    have hfirst := backoffAfter_mono (backoffMs_mono (Nat.le_refl _) (Nat.zero_le k) (s := s))
    rwa [backoffAfter_eq_ite, backoffMs_zero, if_pos (by omega)] at hfirst
  doubled hlt h := by
    rw [backoffAfter_eq_ite, if_pos (by omega)]
    rw [backoffMs_succ s hlt] at h ⊢
    rw [backoffAfter_eq_ite, if_pos (by omega), Duration.ofMillis, Duration.ofMillis]
    exact Nat.mul_assoc _ _ _
  counter hattempts attempt roundTrips hnext := by
    have hlt := Supervision.nextAttempt?_lt hnext
    omega

/-- The fourth pause of the default settings, and the last exact one and the longest one of those
that start with the greatest number of milliseconds. -/
theorem Settings.backsOff_bounds :
    let greatest : Settings := { telemetry.reconnectBackoffMs := 2 ^ 64 - 1 }
    (Reader.ofSettings {}).backoffAfter 3 = .ofMillis 4000 ∧
      (Reader.ofSettings greatest).backoffAfter 9 = .ofMillis ((2 ^ 64 - 1) * 512) ∧
      (Reader.ofSettings greatest).backoffAfter 10 = .max := by
  intro greatest
  have hdefault : ({} : Settings).BacksOff 3 := backsOff (by decide) (by decide)
  have hexact : greatest.BacksOff 9 := backsOff (by decide) (by decide)
  have hlongest : greatest.BacksOff 10 := backsOff (by decide) (by decide)
  exact ⟨hdefault.exact (by decide), hexact.exact (by decide), hlongest.longest (by decide)⟩

end LineClient
