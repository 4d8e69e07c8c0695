import BrokerAdmin.Proofs.Binary64.Nearest
import BrokerAdmin.Proofs.Bridge.Resolution

/-!
# Waits between attempts

A wait is computed in seconds, in binary floating point, and given in whole nanoseconds. Up to three roundings
lie between the ceiling in milliseconds and the number of seconds that a wait is compared with, and the
power of the multiplier may leave the finite numbers. All the same every wait of a resolved bridge is a
duration and is at most the ceiling: a number below the rounded ceiling is not beyond the exact one, since
rounding does not pass over it.

A wait is not always the one before times the multiplier. Zero times a power that has become infinite is no
number, which is taken for a wait beyond the ceiling.
-/

namespace BrokerAdmin

namespace Binary64

/-! ### Numbers that are not below zero -/

variable {x y : Binary64} {v : ℚ}

/-- What denotes a size is not below zero. -/
theorem Denotes.nonnegative (h : x.Denotes v) : x.Nonnegative := by
  cases h with
  | intro hsign => exact ⟨_, _, _, rfl, hsign⟩

/-- What is not below zero is finite. -/
theorem Nonnegative.isFinite (h : x.Nonnegative) : x.isFinite = true := by
  obtain ⟨_, _, _, rfl, -⟩ := h
  rfl

/-- A product is finite only if both factors are, and if these are not below zero, it denotes a size. -/
theorem exists_denotes_mul (hx : x.isFinite = true → x.Nonnegative) (hy : y.isFinite = true → y.Nonnegative)
    (hfinite : (x.mul y).isFinite = true) : ∃ size, (x.mul y).Denotes size := by
  have hzero : ∀ (negative infinity : Bool) (m : Nat),
      (if m = 0 then nan else infinite (negative != infinity)).isFinite = false := by
    intro negative infinity m
    split <;> rfl
  cases x with
  | finite s m q =>
    cases y with
    | finite t n r =>
      obtain ⟨_, _, _, hx, hs⟩ := hx rfl
      obtain ⟨_, _, _, hy, ht⟩ := hy rfl
      cases hx
      cases hy
      rcases mul_cases q r hs ht with ⟨hlarge, -⟩ | ⟨size, hsize, -⟩
      · rw [hlarge] at hfinite
        contradiction
      · exact ⟨size, hsize⟩
    | infinite t =>
      rw [mul, hzero] at hfinite
      contradiction
    | nan => contradiction
  | infinite s =>
    cases y with
    | finite t n r =>
      rw [mul, hzero] at hfinite
      contradiction
    | infinite t => contradiction
    | nan => contradiction
  | nan => contradiction

/-- A power of a number that is not below zero is not below zero either. -/
theorem nonnegative_powTimes {result base : Binary64} {n : Nat}
    (hresult : result.isFinite = true → result.Nonnegative) (hbase : base.isFinite = true → base.Nonnegative)
    (hfinite : (powTimes result base n).isFinite = true) : (powTimes result base n).Nonnegative := by
  have hmul : ∀ {x y : Binary64}, (x.isFinite = true → x.Nonnegative) → (y.isFinite = true → y.Nonnegative) →
      (x.mul y).isFinite = true → (x.mul y).Nonnegative := by
    intro x y hx hy hxy
    obtain ⟨size, hsize⟩ := exists_denotes_mul hx hy hxy
    exact hsize.nonnegative
  induction result, base, n using powTimes.induct with
  | case1 result base =>
    rw [powTimes, if_pos rfl] at hfinite ⊢
    exact hresult hfinite
  | case2 result base =>
    rw [powTimes, if_neg one_ne_zero, if_pos rfl] at hfinite ⊢
    exact hmul hresult hbase hfinite
  | case3 result base n hzero hone ih =>
    rw [powTimes, if_neg hzero, if_neg hone] at hfinite ⊢
    refine ih ?_ (hmul hbase hbase) hfinite
    split
    · exact hmul hresult hbase
    · exact hresult

/-! ### Zero -/

/-- A number is one of the two zeros. -/
def IsZero (x : Binary64) : Prop :=
  ∃ negative exponent, x = finite negative 0 exponent

/-- Zero is finite. -/
theorem IsZero.isFinite (h : x.IsZero) : x.isFinite = true := by
  obtain ⟨_, _, rfl⟩ := h
  rfl

/-- Zero times a finite number is zero. -/
theorem IsZero.mul (hx : x.IsZero) (hy : y.isFinite = true) :
    ∃ negative, x.mul y = finite negative 0 leastExponent := by
  obtain ⟨s, q, rfl⟩ := hx
  cases y with
  | finite t n r =>
    refine ⟨s != t, ?_⟩
    rw [Binary64.mul, ofScaled, ofRatio, Nat.zero_mul, Nat.zero_mul, if_pos rfl]
  | infinite | nan => contradiction

/-- A finite number times zero is zero. -/
theorem IsZero.mul_right (hx : x.isFinite = true) (hy : y.IsZero) :
    ∃ negative, x.mul y = finite negative 0 leastExponent := by
  obtain ⟨t, r, rfl⟩ := hy
  cases x with
  | finite s m q =>
    refine ⟨s != t, ?_⟩
    rw [Binary64.mul, ofScaled, ofRatio, Nat.mul_zero, Nat.zero_mul, if_pos rfl]
  | infinite | nan => contradiction

/-- Zero times what is not finite is no number. -/
theorem IsZero.isFinite_mul (hx : x.IsZero) (hy : y.isFinite = false) : (x.mul y).isFinite = false := by
  obtain ⟨s, q, rfl⟩ := hx
  cases y with
  | finite => contradiction
  | infinite | nan => rfl

/-- A power of zero is zero. -/
theorem IsZero.powTimes {result base : Binary64} {n : Nat} (hn : 0 < n) (hresult : result.isFinite = true)
    (hbase : base.IsZero) : ∃ negative, powTimes result base n = finite negative 0 leastExponent := by
  induction result, base, n using powTimes.induct with
  | case1 => contradiction
  | case2 result base =>
    rw [Binary64.powTimes, if_neg one_ne_zero, if_pos rfl]
    exact hbase.mul_right hresult
  | case3 result base n hzero hone ih =>
    rw [Binary64.powTimes, if_neg hzero, if_neg hone]
    obtain ⟨s, hsquare⟩ := hbase.mul hbase.isFinite
    refine ih (by omega) ?_ ⟨s, _, hsquare⟩
    split
    · obtain ⟨t, hproduct⟩ := hbase.mul_right hresult
      rw [hproduct]
      rfl
    · exact hresult

/-! ### Numbers up to one -/

/-- A number is finite, not below zero and at most one. -/
def AtMostOne (x : Binary64) : Prop :=
  ∃ negative m q, x = finite negative m q ∧ (negative = true → m = 0) ∧ worth m q ≤ 1

/-- A product of numbers up to one is one of them. -/
theorem AtMostOne.mul (hx : x.AtMostOne) (hy : y.AtMostOne) : (x.mul y).AtMostOne := by
  obtain ⟨s, m, q, rfl, hs, hm⟩ := hx
  obtain ⟨t, n, r, rfl, ht, hn⟩ := hy
  have hproduct : worth m q * worth n r ≤ 1 := mul_le_one₀ hm (worth_nonneg n r) hn
  have hlarge : (1 : ℚ) < 2 ^ (1000 : Int) := one_lt_zpow₀ one_lt_two (by decide)
  rcases mul_cases q r hs ht with ⟨-, hsize⟩ | ⟨size, hsize, hnearest⟩
  · exact absurd (hsize.trans hproduct) (not_le.mpr hlarge)
  · have hle := hnearest.le_of_le isBinary_one hproduct
    generalize (finite s m q).mul (finite t n r) = product at hsize
    cases hsize with
    | intro hsign => exact ⟨_, _, _, rfl, hsign, hle⟩

/-- A power of a number up to one is one of them. -/
theorem AtMostOne.powTimes {result base : Binary64} (hresult : result.AtMostOne) (hbase : base.AtMostOne)
    (n : Nat) : (powTimes result base n).AtMostOne := by
  induction result, base, n using powTimes.induct with
  | case1 result base =>
    rw [Binary64.powTimes, if_pos rfl]
    exact hresult
  | case2 result base =>
    rw [Binary64.powTimes, if_neg one_ne_zero, if_pos rfl]
    exact hresult.mul hbase
  | case3 result base n hzero hone ih =>
    rw [Binary64.powTimes, if_neg hzero, if_neg hone]
    refine ih ?_ (hbase.mul hbase)
    split
    · exact hresult.mul hbase
    · exact hresult

end Binary64

namespace Bridge

open Binary64

/-! ### Milliseconds in seconds -/

section

variable {seconds : Nat} {fraction whole rounded sum v : ℚ}

/-- From `2 ^ 53` on, where a number may have been rounded up from the seconds, a fraction that is added does
not lead to the next one. -/
theorem rounded_sum_le (hlarge : 2 ^ (53 : Int) ≤ (seconds : ℚ)) (hwhole : IsNearest seconds whole)
    (hhigh : rounded < 1) (hsum : IsNearest (whole + rounded) sum) (hv : IsBinary v) (hbeyond : seconds < v)
    (hexact : v < whole + rounded) : sum ≤ v := by
  by_contra hless
  rw [not_le] at hless
  have hpower : IsBinary (2 ^ (53 : Int)) := ⟨1, 53, by decide, by decide, by simp [worth]⟩
  have hle : whole ≤ v := hwhole.le_of_le hv hbeyond.le
  -- all three numbers are even, so the second is the first and the third is at least by two greater
  obtain ⟨a, ha⟩ := hwhole.isBinary.exists_eq_two_mul (hwhole.le_of_ge hpower hlarge)
  obtain ⟨b, hb⟩ := hv.exists_eq_two_mul (hlarge.trans hbeyond.le)
  obtain ⟨c, hc⟩ := hsum.isBinary.exists_eq_two_mul (hlarge.trans (hbeyond.le.trans hless.le))
  have hsame : a = b := by
    have hab : (2 * a : ℚ) ≤ 2 * b := by linarith
    have hba : (2 * b : ℚ) < 2 * a + 1 := by linarith
    have hab' : 2 * a ≤ 2 * b := by exact_mod_cast hab
    have hba' : 2 * b < 2 * a + 1 := by exact_mod_cast hba
    omega
  have hnext : (2 * a + 2 : ℚ) ≤ 2 * c := by
    have hbc : (2 * b : ℚ) < 2 * c := by linarith
    have hbc' : 2 * b < 2 * c := by exact_mod_cast hbc
    exact_mod_cast (by omega : 2 * a + 2 ≤ 2 * c)
  have hdist := hsum.abs_sub_le whole hwhole.isBinary
  rw [abs_of_nonneg (by linarith), abs_of_nonpos (by linarith)] at hdist
  linarith

/-- A whole number of seconds and a rounded fraction are rounded once more. What is less than the result is
at most what the whole number and the exact fraction make. -/
theorem le_add_of_lt_rounded (hlow : 0 ≤ fraction) (hhigh : fraction ≤ 1023 / 1024)
    (hwhole : IsNearest seconds whole) (hrounded : IsNearest fraction rounded)
    (hsum : IsNearest (whole + rounded) sum) (hv : IsBinary v) (hless : v < sum) : v ≤ seconds + fraction := by
  by_contra hbeyond
  rw [not_le] at hbeyond
  have hbound : rounded ≤ 1023 / 1024 := by
    refine hrounded.le_of_le ⟨1023, -10, by decide, by decide, ?_⟩ hhigh
    rw [worth]
    norm_num
  have hexact : v < whole + rounded := by
    by_contra hge
    exact absurd (hsum.le_of_le hv (not_lt.mp hge)) (not_le.mpr hless)
  rcases Nat.lt_or_ge (2 ^ 53) seconds with hlarge | hsmall
  · have hlarge' : (2 : ℚ) ^ (53 : Int) ≤ seconds := by
      have hcast : ((2 ^ 53 : Nat) : ℚ) ≤ seconds := by exact_mod_cast hlarge.le
      rwa [cast_two_pow] at hcast
    have hle := rounded_sum_le hlarge' hwhole (by linarith) hsum hv (by linarith) hexact
    exact absurd hle (not_le.mpr hless)
  · -- the seconds are kept, and so is what is left of the number without them
    have hkept := hwhole.eq_of_isBinary (isBinary_natCast hsmall)
    rw [hkept] at hexact
    have hrest : IsBinary (v - seconds) := hv.sub_natCast (by linarith) (by linarith)
    have hle := hrounded.le_of_le hrest (by linarith)
    linarith

end

/-- Milliseconds are whole seconds and nanoseconds. -/
theorem millis_div_eq (millis : Nat) : (millis / 1000 : ℚ) =
    (millis / 1000 : Nat) + (nanosOfMillis (millis % 1000) : ℚ) / (1000000000 : Nat) := by
  have hcast : (millis : ℚ) = (1000 * (millis / 1000) + millis % 1000 : Nat) := by
    rw [Nat.div_add_mod]
  rw [hcast, nanosOfMillis]
  push_cast
  ring

/-- A whole number up to `2 ^ 53` becomes a number that denotes it. -/
theorem denotes_ofInt {n : Nat} (hn : n ≤ 2 ^ 53) : (ofInt n).Denotes n := by
  obtain ⟨size, hsize, hnearest⟩ := exists_denotes_ofInt (hn.trans (by decide))
  rwa [hnearest.eq_of_isBinary (isBinary_natCast hn)] at hsize

/-- The seconds of a number of milliseconds are rounded from the whole seconds and the rest, each of which is
rounded before. -/
theorem exists_secondsOfMillis {millis : Nat} (hmillis : millis < 2 ^ 63) :
    ∃ whole rounded sum, (secondsOfMillis millis).Denotes sum ∧ IsNearest (millis / 1000 : Nat) whole ∧
      IsNearest (nanosOfMillis (millis % 1000) / (1000000000 : Nat)) rounded ∧
      IsNearest (whole + rounded) sum := by
  have hrange : nanosOfMillis (millis % 1000) ≤ 1000000000 := by
    rw [nanosOfMillis]
    omega
  have hfraction : (nanosOfMillis (millis % 1000) / (1000000000 : Nat) : ℚ) ≤ 1 := by
    rw [div_le_one (by norm_num)]
    exact_mod_cast hrange
  have hlarge : (2 : ℚ) ^ (65 : Int) < 2 ^ (1000 : Int) := zpow_lt_zpow_right₀ one_lt_two (by decide)
  obtain ⟨whole, hwhole, hwholeNearest⟩ := exists_denotes_ofInt (by omega : millis / 1000 ≤ 2 ^ 64)
  have hnumerator := denotes_ofInt (hrange.trans (by decide))
  have hdenominator := denotes_ofInt (by decide : 1000000000 ≤ 2 ^ 53)
  obtain ⟨rounded, hrounded, hroundedNearest⟩ := hnumerator.div hdenominator (by norm_num)
    ((hfraction.trans (by norm_num)).trans_lt hlarge)
  have hwholeBound : whole ≤ 2 ^ (64 : Int) := by
    refine hwholeNearest.le_of_le ⟨1, 64, by decide, by decide, by simp [worth]⟩ ?_
    have hcast : ((millis / 1000 : Nat) : ℚ) ≤ ((2 ^ 64 : Nat) : ℚ) := by
      exact_mod_cast (by omega : millis / 1000 ≤ 2 ^ 64)
    rwa [cast_two_pow] at hcast
  have hroundedBound : rounded ≤ 1 := hroundedNearest.le_of_le isBinary_one hfraction
  have hbound : whole + rounded ≤ 2 ^ (65 : Int) := by
    rw [show (65 : Int) = 64 + 1 from rfl, zpow_add_one₀ two_ne_zero]
    have hone : (1 : ℚ) ≤ 2 ^ (64 : Int) := one_le_zpow₀ one_le_two (by decide)
    linarith
  obtain ⟨sum, hsum, hsumNearest⟩ := hwhole.add hrounded (hbound.trans_lt hlarge)
  have hparts : secondsOfMillis millis = (ofInt (millis / 1000 : Nat)).add
      ((ofInt (nanosOfMillis (millis % 1000))).div (ofInt (1000000000 : Nat))) := rfl
  rw [hparts]
  exact ⟨whole, rounded, sum, hsum, hwholeNearest, hroundedNearest, hsumNearest⟩

/-- A number of milliseconds becomes a number of seconds so near that no number below it is beyond the
milliseconds. It is zero only for none. -/
theorem exists_denotes_secondsOfMillis {millis : Nat} (hmillis : millis < 2 ^ 63) :
    ∃ size, (secondsOfMillis millis).Denotes size ∧
      (∀ v, IsBinary v → v < size → v ≤ millis / 1000) ∧ (0 < millis → 0 < size) := by
  obtain ⟨whole, rounded, sum, hsum, hwhole, hrounded, hsumNearest⟩ := exists_secondsOfMillis hmillis
  have hzero : IsBinary 0 := (denotes_zero false).isBinary
  have hunit : IsBinary (1 / 1024) := ⟨1, -10, by decide, by decide, by norm_num [worth]⟩
  have hlow : (0 : ℚ) ≤ nanosOfMillis (millis % 1000) / (1000000000 : Nat) := by positivity
  have hhigh : (nanosOfMillis (millis % 1000) / (1000000000 : Nat) : ℚ) ≤ 1023 / 1024 := by
    have hcast : (nanosOfMillis (millis % 1000) : ℚ) ≤ (999000000 : Nat) := by
      rw [nanosOfMillis]
      exact_mod_cast (by omega : millis % 1000 * 10 ^ 6 ≤ 999000000)
    rw [div_le_iff₀ (by norm_num)]
    exact hcast.trans (by norm_num)
  refine ⟨sum, hsum, fun v hv hless => ?_, fun hpositive => ?_⟩
  · rw [millis_div_eq]
    exact le_add_of_lt_rounded hlow hhigh hwhole hrounded hsumNearest hv hless
  -- a millisecond is more than a 1024th of a second
  · have hwholeLow := hwhole.le_of_ge hzero (Nat.cast_nonneg _)
    have hroundedLow := hrounded.le_of_ge hzero hlow
    refine lt_of_lt_of_le (by norm_num) (hsumNearest.le_of_ge hunit ?_)
    rcases Nat.eq_zero_or_pos (millis / 1000) with hnone | hsome
    · have hmilli : (1 / 1024 : ℚ) ≤ nanosOfMillis (millis % 1000) / (1000000000 : Nat) := by
        have hcast : ((1000000 : Nat) : ℚ) ≤ nanosOfMillis (millis % 1000) := by
          rw [nanosOfMillis]
          exact_mod_cast (by omega : 1000000 ≤ millis % 1000 * 10 ^ 6)
        rw [le_div_iff₀ (by norm_num)]
        exact le_trans (by norm_num) hcast
      have hle := hrounded.le_of_ge hunit hmilli
      linarith
    · have hle := hwhole.le_of_ge isBinary_one (by exact_mod_cast hsome)
      linarith

/-- No milliseconds become zero seconds. -/
theorem isZero_secondsOfMillis : (secondsOfMillis 0).IsZero :=
  ⟨false, leastExponent, rfl⟩

/-! ### Seconds in nanoseconds -/

/-- A quotient that is at most a whole number is rounded to no more than that. -/
theorem roundQuotient_le {n d k : Nat} (hd : 0 < d) (h : n ≤ k * d) : roundQuotient n d ≤ k := by
  have hcases := roundQuotient_cases (k * d) d
  rw [Nat.mul_div_cancel k hd, Nat.mul_mod_left] at hcases
  have hmono := roundQuotient_mono h d
  omega

/-- Seconds that make at most a number of nanoseconds which fits become no more than that number, and the
nearest whole number of them. -/
theorem exists_nanosOfSeconds? {x : Binary64} {v : ℚ} (hx : x.Denotes v) {bound : Nat}
    (hv : v * (10 ^ 9 : Nat) ≤ bound) (hbound : bound < 2 ^ 64 * 10 ^ 9) :
    ∃ nanos ≤ bound, nanosOfSeconds? x = some nanos ∧
      ∀ k : Nat, |(nanos : ℚ) - v * (10 ^ 9 : Nat)| ≤ |(k : ℚ) - v * (10 ^ 9 : Nat)| := by
  obtain @⟨negative, m, q, hsign, -, -⟩ := hx
  have hpower : 0 < 2 ^ (-q).toNat := Nat.two_pow_pos _
  have hpos : (0 : ℚ) < (2 ^ (-q).toNat : Nat) := by exact_mod_cast hpower
  have hquotient : worth m q * (10 ^ 9 : Nat) =
      ((m * 2 ^ q.toNat * 10 ^ 9 : Nat) : ℚ) / ((2 ^ (-q).toNat : Nat) : ℚ) := by
    have hratio := div_scaled m 1 (-q)
    rw [neg_neg, Nat.one_mul, Nat.cast_one, div_one, zpow_neg, div_inv_eq_mul] at hratio
    rw [worth, ← hratio, div_mul_eq_mul_div, ← Nat.cast_mul]
  rw [hquotient] at hv ⊢
  have hscaled : m * 2 ^ q.toNat * 10 ^ 9 ≤ bound * 2 ^ (-q).toNat := by
    rw [div_le_iff₀ hpos] at hv
    exact_mod_cast hv
  have hle := roundQuotient_le hpower hscaled
  have hnegative : (negative && m != 0) = false := by
    cases negative with
    | true => simp [hsign rfl]
    | false => rfl
  refine ⟨_, hle, ?_, abs_roundQuotient_sub_le hpower⟩
  simp only [nanosOfSeconds?, hnegative, Bool.false_or, decide_eq_true_eq]
  rw [if_neg (by omega)]

/-! ### Retry policies -/

namespace RetryPolicy

/-- The power of the multiplier by which the wait before an attempt is scaled. -/
def power (p : RetryPolicy) (attempt : Nat) : Binary64 :=
  p.multiplier.pow (min attempt greatestExponent)

/-- The scaled wait is the first one times the power of the multiplier. -/
theorem scaledSeconds_eq_mul_power (p : RetryPolicy) (attempt : Nat) :
    p.scaledSeconds attempt = (secondsOfMillis p.interval).mul (p.power attempt) :=
  rfl

/-- A retry policy with numbers that have been checked. -/
structure Checked (p : RetryPolicy) : Prop where
  multiplier : p.multiplier.Nonnegative
  interval : p.interval < 2 ^ 63
  maxInterval : p.maxInterval < 2 ^ 63

variable {p : RetryPolicy}

/-- A power that has not left the finite numbers is not below zero. -/
theorem Checked.nonnegative_power (hp : p.Checked) {attempt : Nat}
    (hfinite : (p.power attempt).isFinite = true) : (p.power attempt).Nonnegative :=
  nonnegative_powTimes (fun _ => ⟨false, _, _, rfl, nofun⟩) (fun _ => hp.multiplier) hfinite

/-- A wait that does not exceed the ceiling denotes seconds that make no more nanoseconds than the ceiling. -/
theorem Checked.of_not_exceeds (hp : p.Checked) {attempt : Nat}
    (hbelow : p.exceeds (p.scaledSeconds attempt) = false) :
    ∃ size, (p.scaledSeconds attempt).Denotes size ∧
      size * (10 ^ 9 : Nat) ≤ nanosOfMillis p.maxInterval := by
  obtain ⟨ceiling, hceiling, hnear, -⟩ := exists_denotes_secondsOfMillis hp.maxInterval
  obtain ⟨first, hfirst, -⟩ := exists_denotes_secondsOfMillis hp.interval
  rw [exceeds, Bool.or_eq_false_iff, Bool.not_eq_false'] at hbelow
  rw [scaledSeconds_eq_mul_power] at hbelow ⊢
  obtain ⟨hfinite, hcompare⟩ := hbelow
  obtain ⟨size, hsize⟩ := exists_denotes_mul (fun _ => hfirst.nonnegative) hp.nonnegative_power hfinite
  refine ⟨size, hsize, ?_⟩
  have hless : size < ceiling := by
    rw [hsize.compare? hceiling] at hcompare
    by_contra hge
    rcases lt_or_eq_of_le (not_lt.mp hge) with hgt | heq
    · rw [compare_gt_iff_gt.mpr hgt] at hcompare
      contradiction
    · rw [compare_eq_iff_eq.mpr heq.symm] at hcompare
      contradiction
  have hle := hnear size hsize.isBinary hless
  rw [nanosOfMillis]
  push_cast
  linarith

/-- A wait that does not exceed the ceiling is the nearest number of nanoseconds, which is at most the
ceiling. -/
theorem Checked.waitBefore?_of_not_exceeds (hp : p.Checked) {attempt : Nat} (hattempt : 0 < attempt)
    (hbelow : p.exceeds (p.scaledSeconds attempt) = false) :
    ∃ size, (p.scaledSeconds attempt).Denotes size ∧
      size * (10 ^ 9 : Nat) ≤ nanosOfMillis p.maxInterval ∧
      ∃ wait ≤ nanosOfMillis p.maxInterval, p.waitBefore? attempt = some wait ∧
        ∀ k : Nat, |(wait : ℚ) - size * (10 ^ 9 : Nat)| ≤ |(k : ℚ) - size * (10 ^ 9 : Nat)| := by
  obtain ⟨size, hsize, hle⟩ := hp.of_not_exceeds hbelow
  have hbound : nanosOfMillis p.maxInterval < 2 ^ 64 * 10 ^ 9 := by
    have hmax := hp.maxInterval
    rw [nanosOfMillis]
    omega
  refine ⟨size, hsize, hle, ?_⟩
  rw [waitBefore?, if_neg (by omega), hbelow, if_neg Bool.false_ne_true]
  exact exists_nanosOfSeconds? hsize hle hbound

/-- A wait that exceeds the ceiling is the ceiling. -/
theorem waitBefore?_of_exceeds {attempt : Nat} (hattempt : 0 < attempt)
    (hexceeds : p.exceeds (p.scaledSeconds attempt) = true) :
    p.waitBefore? attempt = some (nanosOfMillis p.maxInterval) := by
  rw [waitBefore?, if_neg (by omega), if_pos hexceeds]

/-- Every wait after the first is a number of nanoseconds that is at most the ceiling. -/
theorem Checked.exists_waitBefore? (hp : p.Checked) {attempt : Nat} (hattempt : 0 < attempt) :
    ∃ wait ≤ nanosOfMillis p.maxInterval, p.waitBefore? attempt = some wait := by
  cases hexceeds : p.exceeds (p.scaledSeconds attempt) with
  | true => exact ⟨_, le_rfl, waitBefore?_of_exceeds hattempt hexceeds⟩
  | false =>
    obtain ⟨_, -, -, wait, hle, hwait, -⟩ := hp.waitBefore?_of_not_exceeds hattempt hexceeds
    exact ⟨wait, hle, hwait⟩

/-- A wait of zero seconds is a wait of no nanoseconds, whatever the ceiling is. -/
theorem Checked.waitBefore?_of_zero (hp : p.Checked) {attempt : Nat} (hattempt : 0 < attempt)
    {negative : Bool} (hzero : p.scaledSeconds attempt = finite negative 0 leastExponent) :
    p.waitBefore? attempt = some 0 := by
  obtain ⟨ceiling, hceiling, -, hpositive⟩ := exists_denotes_secondsOfMillis hp.maxInterval
  have hnanos : nanosOfSeconds? (finite negative 0 leastExponent) = some 0 := by
    simp [nanosOfSeconds?, roundQuotient]
  rw [waitBefore?, if_neg (by omega), hzero, hnanos]
  rcases Nat.eq_zero_or_pos p.maxInterval with hmax | hmax
  · rw [hmax]
    exact ite_self _
  · have hbelow : p.exceeds (finite negative 0 leastExponent) = false := by
      rw [exceeds, (denotes_zero negative).compare? hceiling, compare_lt_iff_lt.mpr (hpositive hmax)]
      rfl
    rw [hbelow, if_neg Bool.false_ne_true]

/-- Without a first wait, or with a multiplier of zero, there is no wait before a later attempt as long as
the power is finite. Where it is not, zero times the power is no number, and the wait is the ceiling. -/
theorem Checked.waitBefore?_of_isZero (hp : p.Checked) (hzero : p.interval = 0 ∨ p.multiplier.IsZero)
    {attempt : Nat} (hattempt : 0 < attempt) :
    p.waitBefore? attempt =
      some (if (p.power attempt).isFinite then 0 else nanosOfMillis p.maxInterval) := by
  have hexponent : 0 < min attempt greatestExponent := Nat.lt_min.mpr ⟨hattempt, by decide⟩
  have hone : one.isFinite = true := rfl
  obtain ⟨first, hfirst, -⟩ := exists_denotes_secondsOfMillis hp.interval
  cases hfinite : (p.power attempt).isFinite with
  | true =>
    rw [if_pos rfl]
    obtain ⟨negative, hnone⟩ : ∃ negative,
        p.scaledSeconds attempt = finite negative 0 leastExponent := by
      rw [scaledSeconds_eq_mul_power]
      rcases hzero with hinterval | hmultiplier
      · rw [hinterval]
        exact isZero_secondsOfMillis.mul hfinite
      · obtain ⟨s, hpower⟩ := hmultiplier.powTimes hexponent hone
        exact IsZero.mul_right hfirst.nonnegative.isFinite ⟨s, _, hpower⟩
    exact hp.waitBefore?_of_zero hattempt hnone
  | false =>
    rw [if_neg Bool.false_ne_true]
    have hinterval : p.interval = 0 := by
      refine hzero.resolve_right fun hmultiplier => ?_
      obtain ⟨s, hpower⟩ := hmultiplier.powTimes hexponent hone
      rw [power, pow, hpower] at hfinite
      contradiction
    have hexceeds : p.exceeds (p.scaledSeconds attempt) = true := by
      rw [exceeds, scaledSeconds_eq_mul_power, hinterval, isZero_secondsOfMillis.isFinite_mul hfinite]
      rfl
    exact waitBefore?_of_exceeds hattempt hexceeds

end RetryPolicy

/-- The numbers of a resolved retry policy have been checked. -/
theorem checked_of_resolve {o : Overrides} {d : Declared} {spec : Spec} (hspec : resolve o d = .ok spec) :
    spec.retry.Checked := by
  have hgoes := resolve_goesBy d o
  rw [resolve, mapError_eq_ok_iff] at hspec
  have hcarries := hgoes.good_of_eq_ok hspec
  have hrules := hgoes.exists_eq_ok_iff.mp ⟨spec, hspec⟩
  have hbound : ∀ value : Int64, value.toInt < 2 ^ 63 := fun value => value.toInt_lt
  refine ⟨?_, ?_, ?_⟩
  · rw [hcarries.retry.multiplier]
    exact hrules ⟨d.retryIntervalMultiplier.Nonnegative, .multiplier d.retryIntervalMultiplier⟩
      (by simp [Declared.rules])
  · have hinterval := hcarries.retry.interval
    have hlt := hbound d.retryInterval
    omega
  · have hmax := hcarries.retry.maxInterval
    have hlt := hbound d.maxRetryInterval
    omega

/-- Waits are capped. Before the first attempt a resolved bridge waits for its interval. Before every later one
there is a wait, and it is at most the ceiling: it is the ceiling where the wait in seconds is beyond it, and else
these seconds are a number that is not below zero and makes no more nanoseconds than the ceiling, and the wait
is the nearest whole number of them. -/
theorem wait_is_capped {o : Overrides} {d : Declared} {spec : Spec} (hspec : resolve o d = .ok spec) :
    spec.retry.waitBefore? 0 = some (nanosOfMillis spec.retry.interval) ∧
      ∀ attempt, 0 < attempt →
        (spec.retry.exceeds (spec.retry.scaledSeconds attempt) = true →
          spec.retry.waitBefore? attempt = some (nanosOfMillis spec.retry.maxInterval)) ∧
        (spec.retry.exceeds (spec.retry.scaledSeconds attempt) = false →
          ∃ size, (spec.retry.scaledSeconds attempt).Denotes size ∧
            size * (10 ^ 9 : Nat) ≤ nanosOfMillis spec.retry.maxInterval ∧
            ∃ wait ≤ nanosOfMillis spec.retry.maxInterval, spec.retry.waitBefore? attempt = some wait ∧
              ∀ k : Nat, |(wait : ℚ) - size * (10 ^ 9 : Nat)| ≤ |(k : ℚ) - size * (10 ^ 9 : Nat)|) ∧
        ∃ wait ≤ nanosOfMillis spec.retry.maxInterval, spec.retry.waitBefore? attempt = some wait := by
  have hchecked := checked_of_resolve hspec
  exact ⟨rfl, fun attempt hattempt => ⟨RetryPolicy.waitBefore?_of_exceeds hattempt,
    hchecked.waitBefore?_of_not_exceeds hattempt, hchecked.exists_waitBefore? hattempt⟩⟩

/-- A bridge that waits as long as can be, also when its waits grow. -/
def longestWaits : Declared :=
  { Declared.withConnectors "a" "q" ["c"] with
    retryInterval := .maxValue, retryIntervalMultiplier := .ofInt 2, maxRetryInterval := .maxValue }

/-- The longest waits are capped as well. -/
theorem wait_is_capped_longest : ∃ spec, resolve {} longestWaits = .ok spec ∧
    spec.retry.maxInterval = 2 ^ 63 - 1 ∧
      ∃ wait ≤ nanosOfMillis spec.retry.maxInterval, spec.retry.waitBefore? 4294967295 = some wait := by
  have hmax : (resolve {} longestWaits).map (fun spec => spec.retry.maxInterval) = .ok (2 ^ 63 - 1) := by
    decide +kernel
  obtain ⟨spec, hspec, hmax⟩ := map_eq_ok_iff.mp hmax
  exact ⟨spec, hspec, hmax, ((wait_is_capped hspec).2 4294967295 (by decide)).2.2⟩

/-- Without a first wait, or with a multiplier of zero, a resolved bridge does not wait before a later attempt
either, exactly when the ceiling is zero or the power of the multiplier is finite. So it never waits with a
multiplier up to one. -/
theorem wait_stays_zero_iff {o : Overrides} {d : Declared} {spec : Spec} (hspec : resolve o d = .ok spec)
    (hzero : spec.retry.interval = 0 ∨ spec.retry.multiplier.IsZero) {attempt : Nat} (hattempt : 0 < attempt) :
    (spec.retry.waitBefore? attempt = some 0 ↔
      spec.retry.maxInterval = 0 ∨ (spec.retry.power attempt).isFinite = true) ∧
    (spec.retry.multiplier.AtMostOne → spec.retry.waitBefore? attempt = some 0) := by
  have hwait := (checked_of_resolve hspec).waitBefore?_of_isZero hzero hattempt
  have hiff : spec.retry.waitBefore? attempt = some 0 ↔
      spec.retry.maxInterval = 0 ∨ (spec.retry.power attempt).isFinite = true := by
    rw [hwait, Option.some.injEq]
    cases (spec.retry.power attempt).isFinite with
    | true => simp
    | false => simp [nanosOfMillis]
  refine ⟨hiff, fun hmultiplier => hiff.mpr (.inr ?_)⟩
  have hone : one.AtMostOne := ⟨false, 2 ^ 52, -52, rfl, nofun, by norm_num [worth]⟩
  obtain ⟨_, _, _, hpower, -⟩ := hone.powTimes hmultiplier (min attempt RetryPolicy.greatestExponent)
  rw [RetryPolicy.power, pow, hpower]
  rfl

/-- A bridge whose waits are doubled, without a first wait and with a ceiling of a second. -/
def doubledWaits : Declared :=
  { Declared.withConnectors "a" "q" ["c"] with
    retryInterval := 0, retryIntervalMultiplier := .ofInt 2, maxRetryInterval := 1000 }

/-- Doubled waits stay zero up to the greatest power of two that is finite. -/
theorem wait_stays_zero_iff_doubled : ∃ spec, resolve {} doubledWaits = .ok spec ∧
    spec.retry.interval = 0 ∧ spec.retry.waitBefore? 1023 = some 0 := by
  have hnumbers : (resolve {} doubledWaits).map (fun spec => (spec.retry.interval,
      (spec.retry.power 1023).isFinite)) = .ok (0, true) := by decide +kernel
  obtain ⟨spec, hspec, hnumbers⟩ := map_eq_ok_iff.mp hnumbers
  obtain ⟨hinterval, hpower⟩ := Prod.mk.inj hnumbers
  have hiff := (wait_stays_zero_iff hspec (.inl hinterval) (by decide : 0 < 1023)).1
  exact ⟨spec, hspec, hinterval, hiff.mpr (.inr hpower)⟩

/-- Where every wait was zero, one of a second follows as soon as the power is too large. -/
theorem wait_leaves_zero : ¬ ∀ (o : Overrides) (d : Declared) (spec : Spec), resolve o d = .ok spec →
    spec.retry.interval = 0 ∨ spec.retry.multiplier.IsZero →
      ∀ attempt, 0 < attempt → attempt < 2 ^ 32 → spec.retry.waitBefore? attempt = some 0 := by
  intro h
  have hnumbers : (resolve {} doubledWaits).map (fun spec => (spec.retry.interval,
      spec.retry.waitBefore? 1024)) = .ok (0, some 1000000000) := by decide +kernel
  obtain ⟨spec, hspec, hnumbers⟩ := map_eq_ok_iff.mp hnumbers
  obtain ⟨hinterval, hwait⟩ := Prod.mk.inj hnumbers
  have hzero := h {} doubledWaits spec hspec (.inl hinterval) 1024 (by decide) (by decide)
  exact absurd (hwait.symm.trans hzero) (by decide)

end Bridge

end BrokerAdmin
