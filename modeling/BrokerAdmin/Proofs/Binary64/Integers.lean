import BrokerAdmin.Proofs.Binary64.Numeral
import Mathlib.Data.Nat.Dist
import Mathlib.Data.Nat.Log

/-!
# Integers in binary floating point

An integer becomes the nearest of those with at most 53 binary digits in front of the zeros at its end,
of two equally near ones that with the even mantissa. So integers up to `2 ^ 53` are kept, and beyond that
different ones may become the same. None changes places with another: rounding does not pass over an
integer that is kept, and between two such it is a rounding of quotients.
-/

namespace BrokerAdmin.Binary64

/-! ### Rounded quotients -/

/-- A rounded quotient is the quotient or the next number, whichever is nearer. -/
theorem roundQuotient_cases (n d : Nat) :
    (roundQuotient n d = n / d ∧ 2 * (n % d) ≤ d) ∨
      (roundQuotient n d = n / d + 1 ∧ d ≤ 2 * (n % d)) := by
  unfold roundQuotient
  split <;> omega

/-- No multiple of the divisor is nearer than that by the rounded quotient. -/
theorem dist_roundQuotient_le {d : Nat} (hd : 0 < d) (n k : Nat) :
    Nat.dist n (roundQuotient n d * d) ≤ Nat.dist n (k * d) := by
  have hdivision : n / d * d + n % d = n := Nat.div_add_mod' n d
  have hrest := Nat.mod_lt n hd
  have hside : k * d ≤ n / d * d ∨ n / d * d + d ≤ k * d := by
    rcases Nat.lt_or_ge (n / d) k with hk | hk
    · have hmul := Nat.mul_le_mul_right d hk
      rw [Nat.succ_mul] at hmul
      exact Or.inr hmul
    · exact Or.inl (Nat.mul_le_mul_right d hk)
  unfold Nat.dist
  rcases roundQuotient_cases n d with ⟨hround, hnear⟩ | ⟨hround, hnear⟩
  · rw [hround]
    omega
  · rw [hround, Nat.succ_mul]
    omega

/-- A greater number has no smaller rounded quotient. -/
theorem roundQuotient_mono {n n' : Nat} (h : n ≤ n') (d : Nat) :
    roundQuotient n d ≤ roundQuotient n' d := by
  have hdivision := Nat.div_add_mod n d
  have hdivision' := Nat.div_add_mod n' d
  have hquotient : n / d ≤ n' / d := Nat.div_le_div_right h
  rcases Nat.lt_or_ge (n / d) (n' / d) with hlt | hge
  · have hcases := roundQuotient_cases n d
    have hcases' := roundQuotient_cases n' d
    omega
  · obtain hequal : n / d = n' / d := Nat.le_antisymm hquotient hge
    rw [← hequal] at hdivision'
    unfold roundQuotient
    rw [← hequal]
    split <;> split <;> omega

/-! ### Whole numbers -/

/-- Whole numbers with at most 53 binary digits in front of the zeros at their end. -/
def IsExact (n : Nat) : Prop :=
  ∃ mantissa place : Nat, mantissa ≤ 2 ^ 53 ∧ n = mantissa * 2 ^ place

/-- How far apart such numbers lie at the size of a number: a unit of its 53rd binary digit, or one. -/
def spacing (n : Nat) : Nat :=
  2 ^ (n.log2 - 52)

/-- The nearest whole number with at most 53 binary digits in front of the zeros at its end. -/
def nearestNat (n : Nat) : Nat :=
  roundQuotient n (spacing n) * spacing n

/-- Such numbers lie apart. -/
theorem spacing_pos (n : Nat) : 0 < spacing n := Nat.two_pow_pos _

/-- Small numbers are kept. -/
theorem isExact_of_le {n : Nat} (h : n ≤ 2 ^ 53) : IsExact n :=
  ⟨n, 0, h, (Nat.mul_one n).symm⟩

/-- Powers of two are kept. -/
theorem isExact_two_pow (place : Nat) : IsExact (2 ^ place) :=
  ⟨1, place, by decide, (Nat.one_mul _).symm⟩

/-- A number has at most 53 binary digits in units of its spacing. -/
theorem lt_spacing_mul (n : Nat) : n < 2 ^ 53 * spacing n := by
  have hlog : n < 2 ^ (n.log2 + 1) := Nat.lt_log2_self
  have hplaces : n.log2 + 1 ≤ 53 + (n.log2 - 52) := by omega
  rw [spacing, ← Nat.pow_add]
  exact Nat.lt_of_lt_of_le hlog (Nat.pow_le_pow_right (by decide) hplaces)

/-- What a number is rounded to is kept. -/
theorem isExact_nearestNat (n : Nat) : IsExact (nearestNat n) := by
  refine ⟨roundQuotient n (spacing n), n.log2 - 52, ?_, rfl⟩
  have hquotient : n / spacing n < 2 ^ 53 :=
    Nat.div_lt_of_lt_mul (Nat.mul_comm _ _ ▸ lt_spacing_mul n)
  have hcases := roundQuotient_cases n (spacing n)
  omega

/-- No number that is kept is nearer than the one to which a number is rounded. -/
theorem dist_nearestNat_le (n : Nat) {y : Nat} (hy : IsExact y) :
    Nat.dist n (nearestNat n) ≤ Nat.dist n y := by
  obtain ⟨mantissa, place, hmantissa, rfl⟩ := hy
  have hmultiple := dist_roundQuotient_le (spacing_pos n) n
  rcases Nat.lt_or_ge place (n.log2 - 52) with hplace | hplace
  · -- below the last power of two the multiples are nearer than anything with a finer place
    have hpower := hmultiple (2 ^ 52)
    have hbelow : 2 ^ 52 * spacing n ≤ n := by
      rw [spacing, ← Nat.pow_add]
      have hn : n ≠ 0 := by
        rintro rfl
        simp at hplace
      calc 2 ^ (52 + (n.log2 - 52)) = 2 ^ n.log2 := by congr 1; omega
        _ ≤ n := Nat.log2_self_le hn
    have hfiner : mantissa * 2 ^ place ≤ 2 ^ 52 * spacing n := by
      calc mantissa * 2 ^ place ≤ 2 ^ 53 * 2 ^ place := Nat.mul_le_mul_right _ hmantissa
        _ = 2 ^ 52 * 2 ^ (place + 1) := by rw [← Nat.pow_add, ← Nat.pow_add]; congr 1; omega
        _ ≤ 2 ^ 52 * spacing n :=
          Nat.mul_le_mul_left _ (Nat.pow_le_pow_right (by decide) hplace)
    unfold nearestNat
    unfold Nat.dist at hpower ⊢
    omega
  · have hsplit : mantissa * 2 ^ place = mantissa * 2 ^ (place - (n.log2 - 52)) * spacing n := by
      rw [spacing, Nat.mul_assoc, ← Nat.pow_add]
      congr 2
      omega
    rw [hsplit]
    exact hmultiple _

/-- Rounding does not go down past a number that is kept. -/
theorem le_nearestNat {n y : Nat} (hy : IsExact y) (h : y ≤ n) : y ≤ nearestNat n := by
  have hdist := dist_nearestNat_le n hy
  unfold Nat.dist at hdist
  omega

/-- Rounding does not go up past a number that is kept. -/
theorem nearestNat_le {n y : Nat} (hy : IsExact y) (h : n ≤ y) : nearestNat n ≤ y := by
  have hdist := dist_nearestNat_le n hy
  unfold Nat.dist at hdist
  omega

/-- A number that is kept is rounded to itself. -/
theorem nearestNat_eq_self {n : Nat} (h : IsExact n) : nearestNat n = n :=
  Nat.le_antisymm (nearestNat_le h (Nat.le_refl n)) (le_nearestNat h (Nat.le_refl n))

/-- Rounding keeps the order of whole numbers. -/
theorem nearestNat_mono {n n' : Nat} (h : n ≤ n') : nearestNat n ≤ nearestNat n' := by
  have hlog : n.log2 ≤ n'.log2 := by
    simpa only [Nat.log2_eq_log_two] using Nat.log_mono_right h
  rcases Nat.eq_or_lt_of_le hlog with hequal | hless
  · unfold nearestNat spacing
    rw [hequal]
    exact Nat.mul_le_mul_right _ (roundQuotient_mono h _)
  · -- a power of two lies between the two numbers
    have hbelow : n ≤ 2 ^ (n.log2 + 1) := Nat.le_of_lt Nat.lt_log2_self
    have hpositive : n' ≠ 0 := by
      rintro rfl
      simp at hless
    have habove : 2 ^ (n.log2 + 1) ≤ n' := (Nat.le_log2 hpositive).mp hless
    exact (nearestNat_le (isExact_two_pow _) hbelow).trans (le_nearestNat (isExact_two_pow _) habove)

/-! ### Integers -/

/-- The nearest integer with at most 53 binary digits in front of the zeros at its end. -/
def nearestInt (z : Int) : Int :=
  if z < 0 then -nearestNat z.natAbs else nearestNat z.natAbs

/-- An integer is rounded to one that is kept, and none that is kept is nearer. -/
theorem nearestInt_isNearest (z : Int) : IsExact (nearestInt z).natAbs ∧
    ∀ y : Int, IsExact y.natAbs → (z - nearestInt z).natAbs ≤ (z - y).natAbs := by
  constructor
  · have hkept := isExact_nearestNat z.natAbs
    unfold nearestInt
    split
    · rwa [Int.natAbs_neg, Int.natAbs_natCast]
    · rwa [Int.natAbs_natCast]
  · intro y hy
    have hdist := dist_nearestNat_le z.natAbs hy
    unfold Nat.dist at hdist
    unfold nearestInt
    split <;> omega

/-- An integer that is kept is rounded to itself. -/
theorem nearestInt_eq_self {z : Int} (h : IsExact z.natAbs) : nearestInt z = z := by
  have hnearest := (nearestInt_isNearest z).2 z h
  omega

/-- Rounding keeps the order of integers. -/
theorem nearestInt_mono {a b : Int} (h : a ≤ b) : nearestInt a ≤ nearestInt b := by
  unfold nearestInt
  split <;> split
  · have hsizes : nearestNat b.natAbs ≤ nearestNat a.natAbs := nearestNat_mono (by omega)
    omega
  · omega
  · omega
  · have hsizes : nearestNat a.natAbs ≤ nearestNat b.natAbs := nearestNat_mono (by omega)
    omega

/-! ### The number that an integer becomes -/

/-- The last binary place of a whole number is that of its spacing, or lies behind the point. -/
theorem lastPlace_one {n : Nat} (hn : n ≠ 0) : lastPlace n 1 = (n.log2 : Int) - 52 := by
  have hdigits : 2 ^ 53 ≤ n * 2 ^ (-((n.log2 : Int) - 53)).toNat / 2 ^ ((n.log2 : Int) - 53).toNat := by
    rw [Nat.le_div_iff_mul_le (Nat.two_pow_pos _)]
    calc 2 ^ 53 * 2 ^ ((n.log2 : Int) - 53).toNat
        = 2 ^ n.log2 * 2 ^ (-((n.log2 : Int) - 53)).toNat := by
          rw [← Nat.pow_add, ← Nat.pow_add]
          congr 1
          omega
      _ ≤ n * 2 ^ (-((n.log2 : Int) - 53)).toNat := Nat.mul_le_mul_right _ (Nat.log2_self_le hn)
  have hlog : Nat.log2 1 = 0 := by decide
  have hguess : ((n.log2 : Int) - (Nat.log2 1 : Nat) - 53) = (n.log2 : Int) - 53 := by
    rw [hlog]
    omega
  simp only [lastPlace, hguess, Nat.one_mul, if_neg (Nat.not_lt.mpr hdigits), leastExponent]
  omega

/-- A mantissa keeps what it stands for when its last place is given away. -/
theorem exists_ofMantissa (negative : Bool) (mantissa : Nat) {place : Int}
    (hlow : leastExponent ≤ place) (hhigh : place < greatestExponent) :
    ∃ m q, ofMantissa negative mantissa place = finite negative m q ∧
      m * 2 ^ (q - leastExponent).toNat = mantissa * 2 ^ (place - leastExponent).toNat := by
  unfold ofMantissa
  split
  next hcarry =>
    rw [if_neg (by omega)]
    refine ⟨2 ^ 52, place + 1, rfl, ?_⟩
    have hplace : (place + 1 - leastExponent).toNat = (place - leastExponent).toNat + 1 := by omega
    rw [hcarry, hplace, Nat.pow_succ]
    omega
  next =>
    rw [if_neg (by omega)]
    exact ⟨mantissa, place, rfl, rfl⟩

/-- The mantissa that a whole number gets stands for the nearest whole number that is kept. -/
theorem mantissa_mul_eq (n : Nat) {place : Int} (hplace : place = (n.log2 : Int) - 52) :
    roundQuotient (n * 2 ^ (-place).toNat) (2 ^ place.toNat) * 2 ^ (place - leastExponent).toNat =
      nearestNat n * 2 ^ (-leastExponent).toNat := by
  rcases Nat.le_total n.log2 52 with hlog | hlog
  · -- all digits fit into a mantissa
    have hexact : nearestNat n = n := by
      apply nearestNat_eq_self
      apply isExact_of_le
      exact (Nat.le_of_lt Nat.lt_log2_self).trans (Nat.pow_le_pow_right (by decide) (by omega))
    have hwhole : ∀ k, roundQuotient k 1 = k := fun k => by
      have hcases := roundQuotient_cases k 1
      omega
    have hpoint : place.toNat = 0 := by omega
    have hplaces : (-place).toNat + (place - leastExponent).toNat = (-leastExponent).toNat := by
      unfold leastExponent
      omega
    rw [hexact, hpoint, Nat.pow_zero, hwhole, Nat.mul_assoc, ← Nat.pow_add, hplaces]
  · have hpoint : (-place).toNat = 0 := by omega
    have hspacing : place.toNat = n.log2 - 52 := by omega
    have hplaces : (place - leastExponent).toNat = place.toNat + (-leastExponent).toNat := by
      unfold leastExponent
      omega
    rw [hplaces, hpoint, Nat.pow_zero, Nat.mul_one, Nat.pow_add, ← Nat.mul_assoc, hspacing]
    rfl

/-- An integer of 64 bits becomes the nearest integer that is kept. -/
theorem exists_ofInt {z : Int} (hz : z.natAbs ≤ 2 ^ 63) :
    ∃ negative m q, ofInt z = finite negative m q ∧
      units negative m q = nearestInt z * 2 ^ (-leastExponent).toNat := by
  obtain ⟨m, q, hfinite, hvalue⟩ : ∃ m q, ofInt z = finite (decide (z < 0)) m q ∧
      m * 2 ^ (q - leastExponent).toNat = nearestNat z.natAbs * 2 ^ (-leastExponent).toNat := by
    unfold ofInt ofRatio
    split
    next hzero =>
      refine ⟨0, leastExponent, rfl, ?_⟩
      rw [hzero, nearestNat_eq_self (isExact_of_le (Nat.zero_le _)), Nat.zero_mul, Nat.zero_mul]
    next hpositive =>
      have hlog : z.natAbs.log2 ≤ 63 := by
        have hless := (Nat.log2_lt hpositive).mpr (Nat.lt_of_le_of_lt hz (by decide : 2 ^ 63 < 2 ^ 64))
        omega
      have hplace := lastPlace_one hpositive
      have hmantissa := mantissa_mul_eq z.natAbs hplace
      simp only [← hmantissa, Nat.one_mul]
      apply exists_ofMantissa
      · unfold leastExponent
        omega
      · unfold greatestExponent
        omega
  refine ⟨_, m, q, hfinite, ?_⟩
  have hsize : (m : Int) * 2 ^ (q - leastExponent).toNat =
      nearestNat z.natAbs * 2 ^ (-leastExponent).toNat := by
    exact_mod_cast hvalue
  unfold units nearestInt
  simp only [hsize, decide_eq_true_eq]
  split
  · rw [Int.neg_mul]
  · rfl

/-- Integers of 64 bits compare as the nearest integers that are kept. -/
theorem compare?_ofInt {a b : Int} (ha : a.natAbs ≤ 2 ^ 63) (hb : b.natAbs ≤ 2 ^ 63) :
    (ofInt a).compare? (ofInt b) = some (compare (nearestInt a) (nearestInt b)) := by
  obtain ⟨s, m, q, hfinite, hunits⟩ := exists_ofInt ha
  obtain ⟨t, n, r, hfinite', hunits'⟩ := exists_ofInt hb
  have hscale : (0 : Int) < 2 ^ (-leastExponent).toNat := Int.pow_pos (by decide)
  rw [hfinite, hfinite', compare?, hunits, hunits']
  generalize (2 : Int) ^ (-leastExponent).toNat = scale at hscale
  congr 1
  rcases Int.lt_trichotomy (nearestInt a) (nearestInt b) with h | h | h
  · rw [compare_lt_iff_lt.mpr h, compare_lt_iff_lt.mpr (Int.mul_lt_mul_of_pos_right h hscale)]
  · rw [compare_eq_iff_eq.mpr h, compare_eq_iff_eq.mpr (congrArg (· * scale) h)]
  · rw [compare_gt_iff_gt.mpr h, compare_gt_iff_gt.mpr (Int.mul_lt_mul_of_pos_right h hscale)]

/-! ### Integers as numerals -/

/-- The numeral of an integer: its digits, behind a minus sign if it is negative. -/
def Numeral.ofInt (z : Int) : Numeral where
  negative := decide (z < 0)
  whole := Nat.toDigits 10 z.natAbs
  fraction := none
  whole_ne_nil := Nat.toDigits_ne_nil
  isDigit_of_mem_whole _ hc := Nat.isDigit_of_mem_toDigits (by decide) (by decide) hc
  isDigit_of_mem_fraction := nofun

/-- The numeral of an integer is written as the integer is. -/
theorem Numeral.chars_ofInt (z : Int) : (Numeral.ofInt z).chars = Text.numeral z := by
  unfold chars unsigned Text.numeral
  simp only [Numeral.ofInt, pointed, List.append_nil, decide_eq_true_eq]

/-- The numeral of an integer denotes the number that the integer becomes. -/
theorem Numeral.value_ofInt (z : Int) : (Numeral.ofInt z).value = Binary64.ofInt z := by
  have hdigits : Text.digitsValue 0 (Nat.toDigits 10 z.natAbs) = z.natAbs :=
    Nat.ofDigitChars_toDigits (by decide) (by decide)
  unfold value
  simp only [Numeral.ofInt, Option.getD_none, List.append_nil, hdigits, List.length_nil]
  unfold ofDecimal Binary64.ofInt
  split
  next hzero =>
    rw [hzero]
    rfl
  next =>
    rw [if_neg (by decide), if_neg (by omega)]
    simp

end BrokerAdmin.Binary64
