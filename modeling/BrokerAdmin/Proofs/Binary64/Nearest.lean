import BrokerAdmin.Proofs.Binary64.Integers
import Mathlib.Algebra.Order.Field.Power
import Mathlib.Algebra.Order.Ring.Abs
import Mathlib.Data.Rat.Cast.Order
import Mathlib.Tactic.FieldSimp
import Mathlib.Tactic.Linarith
import Mathlib.Tactic.Positivity
import Mathlib.Tactic.Ring

/-!
# Rounding to the nearest number

What an operation on binary floating point numbers gives is the nearest of the sizes that are kept, which have
at most 53 binary digits and no place below the last one. So rounding does not pass over a size that is kept,
and leaves it as it is. All that is known of rounding is told in this way, by rational numbers, for numbers
that are not below zero. The negative zero is one of these, and a result that is too large is an infinity.
-/

namespace BrokerAdmin.Binary64

/-! ### Sizes -/

/-- What a mantissa and an exponent stand for. -/
def worth (mantissa : Nat) (exponent : Int) : ℚ :=
  mantissa * 2 ^ exponent

/-- The mantissa zero stands for zero at any place. -/
theorem worth_zero (q : Int) : worth 0 q = 0 := by
  simp [worth]

/-- A mantissa and an exponent stand for no number below zero. -/
theorem worth_nonneg (m : Nat) (q : Int) : 0 ≤ worth m q := by
  unfold worth
  positivity

/-- Mantissas at one place are added. -/
theorem worth_add (m n : Nat) (q : Int) : worth (m + n) q = worth m q + worth n q := by
  unfold worth
  push_cast
  ring

/-- Sizes with a mantissa of at most 53 binary digits and no place below the last one. -/
def IsBinary (x : ℚ) : Prop :=
  ∃ mantissa exponent, mantissa ≤ 2 ^ 53 ∧ leastExponent ≤ exponent ∧ x = worth mantissa exponent

/-- No such size is nearer. -/
structure IsNearest (x y : ℚ) : Prop where
  isBinary : IsBinary y
  abs_sub_le : ∀ z, IsBinary z → |y - x| ≤ |z - x|

/-- Powers of two are the same among whole and among rational numbers. -/
theorem cast_two_pow (k : Nat) : ((2 ^ k : Nat) : ℚ) = 2 ^ (k : Int) := by
  rw [zpow_natCast]
  exact Nat.cast_pow 2 k

/-- Powers of two are above zero, whatever the sign of the exponent. -/
theorem two_zpow_pos (q : Int) : (0 : ℚ) < 2 ^ q := zpow_pos two_pos q

/-- At one place the mantissas tell which size is less. -/
theorem worth_lt_worth_iff {m n : Nat} (q : Int) : worth m q < worth n q ↔ m < n := by
  unfold worth
  rw [mul_lt_mul_iff_left₀ (two_zpow_pos q), Nat.cast_lt]

/-- A power of two with an exponent of either sign is told by powers of whole numbers. -/
theorem two_zpow_toNat (q : Int) : (2 : ℚ) ^ (q.toNat : Int) = 2 ^ q * 2 ^ ((-q).toNat : Int) := by
  rw [← zpow_add₀ two_ne_zero]
  congr 1
  omega

/-- A quotient in units of a place. -/
theorem div_scaled (n d : Nat) (place : Int) :
    ((n * 2 ^ (-place).toNat : Nat) : ℚ) / ((d * 2 ^ place.toNat : Nat) : ℚ) = n / d / 2 ^ place := by
  rw [Nat.cast_mul, Nat.cast_mul, cast_two_pow, cast_two_pow, two_zpow_toNat place]
  have hpower := two_zpow_pos ((-place).toNat : Int)
  rw [← mul_assoc, mul_div_mul_right _ _ hpower.ne', div_div]

section

variable {x y z : ℚ}

/-- Rounding does not go up past a size that is kept. -/
theorem IsNearest.le_of_le (h : IsNearest x y) (hz : IsBinary z) (hle : x ≤ z) : y ≤ z := by
  by_contra hless
  rw [not_le] at hless
  have hdist := h.abs_sub_le z hz
  rw [abs_of_nonneg (by linarith), abs_of_nonneg (by linarith)] at hdist
  linarith

/-- Rounding does not go down past a size that is kept. -/
theorem IsNearest.le_of_ge (h : IsNearest x y) (hz : IsBinary z) (hle : z ≤ x) : z ≤ y := by
  by_contra hless
  rw [not_le] at hless
  have hdist := h.abs_sub_le z hz
  rw [abs_of_nonpos (by linarith), abs_of_nonpos (by linarith)] at hdist
  linarith

/-- A size that is kept is rounded to itself. -/
theorem IsNearest.eq_of_isBinary (h : IsNearest x y) (hx : IsBinary x) : y = x :=
  le_antisymm (h.le_of_le hx le_rfl) (h.le_of_ge hx le_rfl)

/-- A size that is kept is its own nearest one. -/
theorem isNearest_self (h : IsBinary x) : IsNearest x x where
  isBinary := h
  abs_sub_le z _ := by
    rw [sub_self, abs_zero]
    exact abs_nonneg _

/-- Small whole numbers are kept. -/
theorem isBinary_natCast {n : Nat} (hn : n ≤ 2 ^ 53) : IsBinary n :=
  ⟨n, 0, hn, by decide, by simp [worth]⟩

/-- One is kept. -/
theorem isBinary_one : IsBinary 1 :=
  ⟨1, 0, by decide, by decide, by simp [worth]⟩

end

/-! ### The last place -/

/-- A whole number has as many binary digits as its logarithm tells, and one more. -/
theorem two_zpow_log2_le {n : Nat} (hn : n ≠ 0) : (2 : ℚ) ^ (n.log2 : Int) ≤ n := by
  rw [← cast_two_pow]
  exact_mod_cast Nat.log2_self_le hn

/-- A whole number is less than the power of two after the one that its logarithm tells. -/
theorem lt_two_zpow_log2 (n : Nat) : (n : ℚ) < 2 ^ ((n.log2 : Int) + 1) := by
  have hlog : (n : ℚ) < ((2 ^ (n.log2 + 1) : Nat) : ℚ) := by exact_mod_cast Nat.lt_log2_self
  rwa [cast_two_pow] at hlog

/-- The logarithms of numerator and denominator tell the size of a quotient up to two binary places. -/
theorem div_bounds_of_log2 {n d : Nat} (hn : n ≠ 0) (hd : d ≠ 0) {guess : Int}
    (hguess : guess = (n.log2 : Int) - d.log2 - 53) :
    2 ^ (52 : Int) * 2 ^ guess ≤ (n / d : ℚ) ∧ (n / d : ℚ) < 2 ^ (53 : Int) * 2 ^ (guess + 1) := by
  have hpos : (0 : ℚ) < d := by exact_mod_cast Nat.pos_of_ne_zero hd
  constructor
  · rw [le_div_iff₀ hpos]
    calc (2 : ℚ) ^ (52 : Int) * 2 ^ guess * d
        ≤ 2 ^ (52 : Int) * 2 ^ guess * 2 ^ ((d.log2 : Int) + 1) := by
          gcongr
          exact (lt_two_zpow_log2 d).le
      _ = 2 ^ (n.log2 : Int) := by
        rw [← zpow_add₀ two_ne_zero, ← zpow_add₀ two_ne_zero]
        congr 1
        omega
      _ ≤ n := two_zpow_log2_le hn
  · rw [div_lt_iff₀ hpos]
    calc (n : ℚ) < 2 ^ ((n.log2 : Int) + 1) := lt_two_zpow_log2 n
      _ = 2 ^ (53 : Int) * 2 ^ (guess + 1) * 2 ^ (d.log2 : Int) := by
        rw [← zpow_add₀ two_ne_zero, ← zpow_add₀ two_ne_zero]
        congr 1
        omega
      _ ≤ 2 ^ (53 : Int) * 2 ^ (guess + 1) * d := by
        gcongr
        exact two_zpow_log2_le hd

/-- A quotient of whole numbers falls short of a number where the exact quotient does. -/
theorem natDiv_lt_iff (n : Nat) {d : Nat} (hd : d ≠ 0) (place : Int) (k : Nat) :
    n * 2 ^ (-place).toNat / (d * 2 ^ place.toNat) < k ↔ (n / d : ℚ) < k * 2 ^ place := by
  have hpos : 0 < d * 2 ^ place.toNat := by positivity
  rw [← div_lt_iff₀ (two_zpow_pos place), ← div_scaled, Nat.div_lt_iff_lt_mul hpos,
    div_lt_iff₀ (by exact_mod_cast hpos)]
  exact_mod_cast Iff.rfl

/-- The last place is such that a quotient has at most 53 binary digits in front of it, and it has as many
unless there is no lower place. -/
theorem lastPlace_bounds {n d : Nat} (hn : n ≠ 0) (hd : d ≠ 0) :
    leastExponent ≤ lastPlace n d ∧ (n / d : ℚ) < 2 ^ (53 : Int) * 2 ^ lastPlace n d ∧
      (lastPlace n d = leastExponent ∨ 2 ^ (52 : Int) * 2 ^ lastPlace n d ≤ (n / d : ℚ)) := by
  obtain ⟨guess, hguess⟩ : ∃ guess : Int, guess = (n.log2 : Int) - d.log2 - 53 := ⟨_, rfl⟩
  obtain ⟨hlow, hhigh⟩ := div_bounds_of_log2 hn hd hguess
  have htest := natDiv_lt_iff n hd guess (2 ^ 53)
  rw [cast_two_pow] at htest
  obtain ⟨place, hplace, hlow', hhigh'⟩ : ∃ place : Int, lastPlace n d = max place leastExponent ∧
      2 ^ (52 : Int) * 2 ^ place ≤ (n / d : ℚ) ∧ (n / d : ℚ) < 2 ^ (53 : Int) * 2 ^ place := by
    by_cases hfits : (n / d : ℚ) < 2 ^ (53 : Int) * 2 ^ guess
    · refine ⟨guess, ?_, hlow, hfits⟩
      simp only [lastPlace, ← hguess, if_pos (htest.mpr hfits)]
    · refine ⟨guess + 1, ?_, ?_, hhigh⟩
      · simp only [lastPlace, ← hguess, if_neg (mt htest.mp hfits)]
      · calc (2 : ℚ) ^ (52 : Int) * 2 ^ (guess + 1) = 2 ^ (53 : Int) * 2 ^ guess := by
              rw [← zpow_add₀ two_ne_zero, ← zpow_add₀ two_ne_zero]
              congr 1
              omega
          _ ≤ n / d := not_lt.mp hfits
  rw [hplace]
  rcases le_total place leastExponent with hle | hle
  · rw [max_eq_right hle]
    refine ⟨le_rfl, hhigh'.trans_le ?_, Or.inl rfl⟩
    gcongr
    exact one_le_two
  · rw [max_eq_left hle]
    exact ⟨hle, hhigh', Or.inr hlow'⟩

/-! ### Rounding -/

/-- A rounded quotient is at least as near as any other whole number. -/
theorem abs_roundQuotient_sub_le {n d : Nat} (hd : 0 < d) (k : Nat) :
    |(roundQuotient n d : ℚ) - n / d| ≤ |(k : ℚ) - n / d| := by
  have hpos : (0 : ℚ) < d := by exact_mod_cast hd
  have hdist : ∀ a : Nat, |(a : ℚ) - n / d| = (Nat.dist n (a * d) : Nat) / d := by
    intro a
    have hsub : (a : ℚ) - n / d = ((a * d : Nat) - (n : ℚ)) / d := by
      rw [Nat.cast_mul]
      field_simp
    rw [hsub, abs_div, abs_of_pos hpos]
    congr 1
    rcases le_total n (a * d) with hle | hle
    · rw [Nat.dist_eq_sub_of_le hle, Nat.cast_sub hle, abs_of_nonneg]
      exact sub_nonneg.mpr (by exact_mod_cast hle)
    · rw [Nat.dist_eq_sub_of_le_right hle, Nat.cast_sub hle, abs_of_nonpos, neg_sub]
      exact sub_nonpos.mpr (by exact_mod_cast hle)
  rw [hdist, hdist]
  gcongr
  exact dist_roundQuotient_le hd n k

/-- A mantissa that gives its last place away stands for the same size as before. Past the largest numbers
lies an infinity. -/
theorem ofMantissa_cases (negative : Bool) {mantissa : Nat} {place : Int} (hmantissa : mantissa ≤ 2 ^ 53)
    (hlow : leastExponent ≤ place) :
    (ofMantissa negative mantissa place = infinite negative ∧ greatestExponent ≤ place) ∨
      ∃ m q, ofMantissa negative mantissa place = finite negative m q ∧ m ≤ 2 ^ 53 ∧ leastExponent ≤ q ∧
        worth m q = worth mantissa place := by
  unfold ofMantissa
  split_ifs with hcarry hlarge hlarge
  · exact .inl ⟨rfl, by omega⟩
  · refine .inr ⟨2 ^ 52, place + 1, rfl, by decide, by omega, ?_⟩
    rw [worth, worth, hcarry, zpow_add_one₀ two_ne_zero]
    norm_num
    ring
  · exact .inl ⟨rfl, by omega⟩
  · exact .inr ⟨mantissa, place, rfl, hmantissa, hlow, rfl⟩

/-- The rounded quotient in units of the last place is the nearest size. -/
theorem isNearest_roundQuotient {n d : Nat} (hn : n ≠ 0) (hd : d ≠ 0) :
    IsNearest (n / d) (worth (roundQuotient (n * 2 ^ (-lastPlace n d).toNat) (d * 2 ^ (lastPlace n d).toNat))
      (lastPlace n d)) ∧
    roundQuotient (n * 2 ^ (-lastPlace n d).toNat) (d * 2 ^ (lastPlace n d).toNat) ≤ 2 ^ 53 := by
  obtain ⟨hleast, hhigh, hlow⟩ := lastPlace_bounds hn hd
  generalize lastPlace n d = place at hleast hhigh hlow
  obtain ⟨num, hnum⟩ : ∃ num, num = n * 2 ^ (-place).toNat := ⟨_, rfl⟩
  obtain ⟨den, hden⟩ : ∃ den, den = d * 2 ^ place.toNat := ⟨_, rfl⟩
  have hpos : 0 < den := by
    rw [hden]
    positivity
  have hunit := two_zpow_pos place
  have hscaled : (num / den : ℚ) = n / d / 2 ^ place := by
    rw [hnum, hden]
    exact div_scaled n d place
  -- among the multiples of the last place the rounded quotient is the nearest one
  have hmultiple : ∀ k : Nat, |worth (roundQuotient num den) place - n / d| ≤ |worth k place - n / d| := by
    intro k
    have hfactor : ∀ a : Nat, |worth a place - n / d| = |(a : ℚ) - num / den| * 2 ^ place := by
      intro a
      rw [hscaled, ← abs_of_pos hunit, ← abs_mul, abs_of_pos hunit, sub_mul, div_mul_cancel₀ _ hunit.ne',
        worth]
    rw [hfactor, hfactor]
    exact mul_le_mul_of_nonneg_right (abs_roundQuotient_sub_le hpos k) hunit.le
  have hmantissa : roundQuotient num den ≤ 2 ^ 53 := by
    have hquotient : num / den < 2 ^ 53 := by
      rw [hnum, hden, natDiv_lt_iff n hd, cast_two_pow]
      exact hhigh
    have hcases := roundQuotient_cases num den
    omega
  rw [← hnum, ← hden]
  refine ⟨⟨⟨_, place, hmantissa, hleast, rfl⟩, ?_⟩, hmantissa⟩
  rintro z ⟨m, q, hm, hq, rfl⟩
  rcases lt_or_ge q place with hless | hge
  · -- a size with a finer place lies below the least multiple with as many digits as there can be
    have hpower := hmultiple (2 ^ 52)
    have hbelow : worth (2 ^ 52) place ≤ n / d := by
      rw [worth, cast_two_pow]
      exact hlow.resolve_left (by omega)
    have hfiner : worth m q ≤ worth (2 ^ 52) place := by
      rw [worth, worth, cast_two_pow]
      calc (m : ℚ) * 2 ^ q ≤ 2 ^ (53 : Int) * 2 ^ q := by
            gcongr
            exact_mod_cast hm
        _ = 2 ^ (52 : Int) * 2 ^ (q + 1) := by
            rw [← zpow_add₀ two_ne_zero, ← zpow_add₀ two_ne_zero]
            congr 1
            omega
        _ ≤ 2 ^ (52 : Int) * 2 ^ place := by
            gcongr
            · exact one_le_two
            · omega
    rw [abs_of_nonpos (sub_nonpos.mpr hbelow)] at hpower
    rw [abs_of_nonpos (sub_nonpos.mpr (hfiner.trans hbelow))]
    exact hpower.trans (neg_le_neg (sub_le_sub_right hfiner _))
  · have hsplit : worth m q = worth (m * 2 ^ (q - place).toNat) place := by
      rw [worth, worth, Nat.cast_mul, cast_two_pow, mul_assoc, ← zpow_add₀ two_ne_zero]
      congr 2
      omega
    rw [hsplit]
    exact hmultiple _

/-! ### Operations -/

/-- A finite number that is not below zero, in the form in which numbers are kept, denotes a size. -/
inductive Denotes : Binary64 → ℚ → Prop where
  | intro {negative : Bool} {m : Nat} {q : Int} (hsign : negative = true → m = 0) (hm : m ≤ 2 ^ 53)
    (hq : leastExponent ≤ q) : Denotes (finite negative m q) (worth m q)

variable {x y : Binary64} {v w : ℚ}

/-- What a number denotes is a size that is kept. -/
theorem Denotes.isBinary (h : x.Denotes v) : IsBinary v := by
  cases h with
  | intro _ hm hq => exact ⟨_, _, hm, hq, rfl⟩

/-- Zero is a size, with either sign. -/
theorem denotes_zero (negative : Bool) : (finite negative 0 leastExponent).Denotes 0 := by
  rw [← worth_zero leastExponent]
  exact .intro (fun _ => rfl) (Nat.zero_le _) (le_refl leastExponent)

/-- A quotient is rounded to the nearest size, or it is too large. -/
theorem ofRatio_cases {negative : Bool} {n d : Nat} (hsign : negative = true → n = 0) (hd : d ≠ 0) :
    (ofRatio negative n d = infinite false ∧ 2 ^ (1000 : Int) ≤ (n / d : ℚ)) ∨
      ∃ size, (ofRatio negative n d).Denotes size ∧ IsNearest (n / d) size := by
  by_cases hn : n = 0
  · right
    have hzero := denotes_zero negative
    subst hn
    refine ⟨0, hzero, ?_⟩
    rw [Nat.cast_zero, zero_div]
    exact isNearest_self hzero.isBinary
  · obtain ⟨hnearest, hmantissa⟩ := isNearest_roundQuotient hn hd
    obtain ⟨hleast, -, hlow⟩ := lastPlace_bounds hn hd
    have hpositive : negative = false := Bool.eq_false_iff.mpr (mt hsign hn)
    rcases ofMantissa_cases negative hmantissa hleast with ⟨heq, hlarge⟩ | ⟨m, q, heq, hm, hq, hworth⟩
    · left
      refine ⟨?_, ?_⟩
      · rw [← hpositive, ← heq]
        simp only [ofRatio, if_neg hn]
      · refine le_trans ?_ (hlow.resolve_left ?_)
        · rw [← zpow_add₀ two_ne_zero]
          refine zpow_le_zpow_right₀ one_le_two ?_
          unfold greatestExponent at hlarge
          omega
        · unfold greatestExponent at hlarge
          unfold leastExponent
          omega
    · right
      refine ⟨worth m q, ?_, hworth ▸ hnearest⟩
      have hratio : ofRatio negative n d = finite negative m q := by
        rw [← heq]
        simp only [ofRatio, if_neg hn]
      rw [hratio]
      exact .intro (by simp [hpositive]) hm hq

/-- A mantissa with any exponent is rounded to the nearest size, or it is too large. -/
theorem ofScaled_cases {negative : Bool} {m : Nat} (q : Int) (hsign : negative = true → m = 0) :
    (ofScaled negative m q = infinite false ∧ 2 ^ (1000 : Int) ≤ worth m q) ∨
      ∃ size, (ofScaled negative m q).Denotes size ∧ IsNearest (worth m q) size := by
  have hratio : ((m * 2 ^ q.toNat : Nat) / (2 ^ (-q).toNat : Nat) : ℚ) = worth m q := by
    have h := div_scaled m 1 (-q)
    rwa [neg_neg, Nat.one_mul, Nat.cast_one, div_one, zpow_neg, div_inv_eq_mul] at h
  have hzero : negative = true → m * 2 ^ q.toNat = 0 := fun h => by rw [hsign h, Nat.zero_mul]
  have hcases := ofRatio_cases hzero (Nat.two_pow_pos (-q).toNat).ne'
  rwa [hratio] at hcases

/-- The product of two finite numbers that are not below zero is rounded to the nearest size, or it is too
large. -/
theorem mul_cases {s t : Bool} {m n : Nat} (q r : Int) (hs : s = true → m = 0) (ht : t = true → n = 0) :
    ((finite s m q).mul (finite t n r) = infinite false ∧ 2 ^ (1000 : Int) ≤ worth m q * worth n r) ∨
      ∃ size, ((finite s m q).mul (finite t n r)).Denotes size ∧ IsNearest (worth m q * worth n r) size := by
  have hsign : (s != t) = true → m * n = 0 := by
    intro hdiffer
    cases s with
    | true => rw [hs rfl, Nat.zero_mul]
    | false =>
      cases t with
      | true => rw [ht rfl, Nat.mul_zero]
      | false => contradiction
  have hworth : worth (m * n) (q + r) = worth m q * worth n r := by
    unfold worth
    rw [Nat.cast_mul, zpow_add₀ two_ne_zero]
    ring
  rw [← hworth]
  exact ofScaled_cases (q + r) hsign

/-- A whole number of 64 bits is rounded to the nearest size. -/
theorem exists_denotes_ofInt {n : Nat} (hn : n ≤ 2 ^ 64) :
    ∃ size, (ofInt n).Denotes size ∧ IsNearest n size := by
  have hratio : ofInt n = ofRatio false n 1 := by
    have hnegative : decide ((n : Int) < 0) = false := decide_eq_false (by omega)
    rw [ofInt, hnegative, Int.natAbs_natCast]
  rw [hratio]
  rcases @ofRatio_cases false n 1 nofun one_ne_zero with ⟨-, hlarge⟩ | h
  · rw [Nat.cast_one, div_one] at hlarge
    have hsmall : (n : ℚ) ≤ 2 ^ (64 : Int) := by
      rw [show (64 : Int) = (64 : Nat) from rfl, ← cast_two_pow]
      exact_mod_cast hn
    have hpowers : (2 : ℚ) ^ (64 : Int) < 2 ^ (1000 : Int) := zpow_lt_zpow_right₀ one_lt_two (by decide)
    exact absurd (hlarge.trans hsmall) (not_le.mpr hpowers)
  · simpa using h

/-- A quotient is rounded to the nearest size, if it is not too large. -/
theorem Denotes.div (hx : x.Denotes v) (hy : y.Denotes w) (hw : 0 < w) (hsize : v / w < 2 ^ (1000 : Int)) :
    ∃ size, (x.div y).Denotes size ∧ IsNearest (v / w) size := by
  obtain @⟨s, m, q, hs, -, -⟩ := hx
  obtain @⟨t, n, r, ht, -, -⟩ := hy
  have hn : n ≠ 0 := by
    rintro rfl
    rw [worth_zero] at hw
    exact lt_irrefl _ hw
  have hpositive : t = false := Bool.eq_false_iff.mpr (mt ht hn)
  have hratio : ((m * 2 ^ (q - r).toNat : Nat) / (n * 2 ^ (r - q).toNat : Nat) : ℚ) = worth m q / worth n r := by
    have h := div_scaled m n (r - q)
    rw [neg_sub] at h
    rw [h, worth, worth, zpow_sub₀ two_ne_zero]
    field_simp
  have hzero : (s != t) = true → m * 2 ^ (q - r).toNat = 0 := by
    intro hdiffer
    rw [hpositive, Bool.bne_false] at hdiffer
    rw [hs hdiffer, Nat.zero_mul]
  have hcases := ofRatio_cases hzero (Nat.mul_ne_zero hn (Nat.two_pow_pos (r - q).toNat).ne')
  rw [hratio] at hcases
  have hdiv : (finite s m q).div (finite t n r) =
      ofRatio (s != t) (m * 2 ^ (q - r).toNat) (n * 2 ^ (r - q).toNat) := by
    rw [Binary64.div, if_neg hn]
  rw [hdiv]
  exact hcases.resolve_left fun hlarge => absurd hlarge.2 (not_le.mpr hsize)

/-- In units of the smallest positive number, a number that is not below zero is a natural number. -/
theorem exists_units_eq {s : Bool} {m : Nat} {q : Int} (hs : s = true → m = 0) (hq : leastExponent ≤ q) :
    ∃ k : Nat, units s m q = k ∧ worth m q = worth k leastExponent := by
  refine ⟨m * 2 ^ (q - leastExponent).toNat, ?_, ?_⟩
  · unfold units
    cases s with
    | true => simp [hs rfl]
    | false => simp
  · unfold worth
    rw [Nat.cast_mul, cast_two_pow, mul_assoc, ← zpow_add₀ two_ne_zero]
    congr 2
    omega

/-- A sum is rounded to the nearest size, if it is not too large. -/
theorem Denotes.add (hx : x.Denotes v) (hy : y.Denotes w) (hsize : v + w < 2 ^ (1000 : Int)) :
    ∃ size, (x.add y).Denotes size ∧ IsNearest (v + w) size := by
  obtain @⟨s, m, q, hs, -, hq⟩ := hx
  obtain @⟨t, n, r, ht, -, hr⟩ := hy
  obtain ⟨k, hk, hkworth⟩ := exists_units_eq hs hq
  obtain ⟨l, hl, hlworth⟩ := exists_units_eq ht hr
  have hsum : units s m q + units t n r = (k + l : Nat) := by
    rw [hk, hl, Nat.cast_add]
  have hworth : worth m q + worth n r = worth (k + l) leastExponent := by
    rw [hkworth, hlworth, worth_add]
  rw [hworth] at hsize ⊢
  by_cases hzero : k + l = 0
  · have hadd : (finite s m q).add (finite t n r) = finite (s && t) 0 leastExponent := by
      simp only [Binary64.add, hsum, hzero, Nat.cast_zero, if_true]
    rw [hadd, hzero, worth_zero]
    exact ⟨0, denotes_zero _, isNearest_self (denotes_zero false).isBinary⟩
  · have hadd : (finite s m q).add (finite t n r) = ofScaled false (k + l) leastExponent := by
      have hne : ((k + l : Nat) : Int) ≠ 0 := by exact_mod_cast hzero
      have hnegative : decide (((k + l : Nat) : Int) < 0) = false := decide_eq_false (by omega)
      simp only [Binary64.add, hsum, if_neg hne, hnegative, Int.natAbs_natCast]
    rw [hadd]
    have hsign : false = true → k + l = 0 := nofun
    exact (ofScaled_cases leastExponent hsign).resolve_left fun hlarge => absurd hlarge.2 (not_le.mpr hsize)

/-- Numbers that are not below zero compare as their sizes. -/
theorem Denotes.compare? (hx : x.Denotes v) (hy : y.Denotes w) : x.compare? y = some (compare v w) := by
  obtain @⟨s, m, q, hs, -, hq⟩ := hx
  obtain @⟨t, n, r, ht, -, hr⟩ := hy
  obtain ⟨k, hk, hkworth⟩ := exists_units_eq hs hq
  obtain ⟨l, hl, hlworth⟩ := exists_units_eq ht hr
  rw [Binary64.compare?, hk, hl, hkworth, hlworth]
  congr 1
  rcases Nat.lt_trichotomy k l with h | h | h
  · rw [compare_lt_iff_lt.mpr (Int.ofNat_lt.mpr h), compare_lt_iff_lt.mpr ((worth_lt_worth_iff _).mpr h)]
  · rw [compare_eq_iff_eq.mpr (congrArg Nat.cast h), compare_eq_iff_eq.mpr (congrArg (worth · _) h)]
  · rw [compare_gt_iff_gt.mpr (Int.ofNat_lt.mpr h), compare_gt_iff_gt.mpr ((worth_lt_worth_iff _).mpr h)]

/-! ### Sizes and whole numbers -/

/-- What lies between a whole number and the next one is kept also when the whole number is taken away. -/
theorem IsBinary.sub_natCast (hv : IsBinary v) {n : Nat} (hlow : (n : ℚ) ≤ v) (hhigh : v < n + 1) :
    IsBinary (v - n) := by
  obtain ⟨m, q, hm, hq, rfl⟩ := hv
  rcases le_or_gt 0 q with hwhole | hfraction
  · -- a whole number in this range is the lower end
    have hcast : worth m q = (m * 2 ^ q.toNat : Nat) := by
      rw [worth, Nat.cast_mul, cast_two_pow, Int.toNat_of_nonneg hwhole]
    rw [hcast] at hlow hhigh ⊢
    have hequal : m * 2 ^ q.toNat = n := by
      have hlow' : n ≤ m * 2 ^ q.toNat := by exact_mod_cast hlow
      have hhigh' : m * 2 ^ q.toNat < n + 1 := by exact_mod_cast hhigh
      omega
    rw [hequal, sub_self]
    exact (denotes_zero false).isBinary
  · have hunits : (n : ℚ) = worth (n * 2 ^ (-q).toNat) q := by
      rw [worth, Nat.cast_mul, cast_two_pow, Int.toNat_of_nonneg (by omega), mul_assoc,
        ← zpow_add₀ two_ne_zero, neg_add_cancel, zpow_zero, mul_one]
    have hle : n * 2 ^ (-q).toNat ≤ m := by
      by_contra hless
      have hlt := (worth_lt_worth_iff q).mpr (not_le.mp hless)
      rw [← hunits] at hlt
      exact absurd hlow (not_le.mpr hlt)
    refine ⟨m - n * 2 ^ (-q).toNat, q, (Nat.sub_le _ _).trans hm, hq, ?_⟩
    have hsum := worth_add (m - n * 2 ^ (-q).toNat) (n * 2 ^ (-q).toNat) q
    rw [Nat.sub_add_cancel hle, ← hunits] at hsum
    rw [hsum, add_sub_cancel_right]

/-- From `2 ^ 53` on only even numbers are kept. -/
theorem IsBinary.exists_eq_two_mul (hv : IsBinary v) (hlarge : 2 ^ (53 : Int) ≤ v) :
    ∃ half : Nat, v = 2 * half := by
  obtain ⟨m, q, hm, -, rfl⟩ := hv
  rcases le_or_gt q 0 with hfine | hcoarse
  · -- with no zeros at its end only the least of them has few enough digits
    refine ⟨2 ^ 52, ?_⟩
    have hle : worth m q ≤ 2 ^ (53 : Int) := by
      calc (m : ℚ) * 2 ^ q ≤ 2 ^ (53 : Int) * 2 ^ (0 : Int) := by
            gcongr
            · exact_mod_cast hm
            · exact one_le_two
        _ = 2 ^ (53 : Int) := by rw [zpow_zero, mul_one]
    rw [le_antisymm hle hlarge, cast_two_pow]
    norm_num
  · refine ⟨m * 2 ^ (q - 1).toNat, ?_⟩
    rw [worth, Nat.cast_mul, cast_two_pow, Int.toNat_of_nonneg (by omega), zpow_sub_one₀ two_ne_zero]
    ring

end BrokerAdmin.Binary64
