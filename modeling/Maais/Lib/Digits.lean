import Maais.Lib.Decimal

/-!
# The order of rounding to digits

* `halfEven_le_iff`  what is rounded to at most an integer: everything below its upper midpoint, the
  midpoint itself when the integer is even;
* `toDigits_mono`, `toDigits_neg`  rounding keeps the order and the sign;
* `HasDigits`  the values with so many digits: `toDigits` gives one and leaves it alone;
* `Arith.Signed`  a context whose rounding keeps the sign.
-/

namespace Lib

/-! ## integers -/

/-- which numbers are rounded to `k` or below -/
theorem halfEven_le_iff {x : ℚ} {k : ℤ} : halfEven x ≤ k ↔ x < k + 1 / 2 ∨ x = k + 1 / 2 ∧
    k % 2 = 0 := by
  have hlow := Int.floor_le x
  have hhigh := Int.lt_floor_add_one x
  unfold halfEven
  simp only
  rcases lt_trichotomy ⌊x⌋ k with h | h | h
  · -- the value lies below the integer itself
    have hcast : (⌊x⌋ : ℚ) + 1 ≤ k := by exact_mod_cast h
    refine iff_of_true ?_ (.inl (by linarith))
    split
    · exact h.le
    · exact h
  · subst h
    constructor
    · intro hle
      split at hle
      case isTrue hcase =>
        rcases hcase with hlt | ⟨heq, heven⟩
        · exact .inl (by linarith)
        · exact .inr ⟨by linarith, heven⟩
      case isFalse hcase => omega
    · intro hcase
      rw [if_pos]
      rcases hcase with hlt | ⟨heq, heven⟩
      · exact .inl (by linarith)
      · exact .inr ⟨by linarith, heven⟩
  · have hcast : (k : ℚ) + 1 ≤ ⌊x⌋ := by exact_mod_cast h
    refine iff_of_false ?_ ?_
    · split
      · exact not_le.mpr h
      · omega
    · rintro (hlt | ⟨heq, -⟩)
      · linarith
      · linarith

theorem halfEven_mono {x y : ℚ} (h : x ≤ y) : halfEven x ≤ halfEven y := by
  rw [halfEven_le_iff]
  rcases halfEven_le_iff.mp (le_refl (halfEven y)) with hlt | ⟨heq, heven⟩
  · exact .inl (h.trans_lt hlt)
  · rcases h.lt_or_eq with hlt | rfl
    · exact .inl (heq ▸ hlt)
    · exact .inr ⟨heq, heven⟩

theorem halfEven_neg (x : ℚ) : halfEven (-x) = -halfEven x := by
  have hiff : ∀ k : ℤ, halfEven (-x) ≤ k ↔ -halfEven x ≤ k := by
    intro k
    have hrev : -halfEven x ≤ k ↔ ¬ halfEven x ≤ -k - 1 := by omega
    rw [hrev, halfEven_le_iff, halfEven_le_iff]
    push_cast
    constructor
    · rintro (hlt | ⟨heq, heven⟩) (hlt' | ⟨heq', heven'⟩)
      · linarith
      · linarith
      · linarith
      · omega
    · intro h
      rw [not_or] at h
      rcases lt_trichotomy (-x) ((k : ℚ) + 1 / 2) with hlt | heq | hgt
      · exact .inl hlt
      · refine .inr ⟨heq, ?_⟩
        by_contra hodd
        exact h.2 ⟨by linarith, by omega⟩
      · exact absurd (by linarith) h.1
  exact le_antisymm ((hiff _).mpr le_rfl) ((hiff _).mp le_rfl)

theorem halfEven_error (x : ℚ) : |(halfEven x : ℚ) - x| ≤ 1 / 2 := by
  have hup := halfEven_le_iff.mp (le_refl (halfEven x))
  have hlow : ¬ halfEven x ≤ halfEven x - 1 := by omega
  rw [halfEven_le_iff] at hlow
  push_cast at hlow
  rw [abs_le]
  constructor
  · rcases hup with h | ⟨h, -⟩
    · linarith
    · linarith
  · by_contra hgt
    exact hlow (.inl (by linarith))

/-! ## digits -/

/-- the place value of the last digit kept -/
def lastUnit (digits : ℕ) (x : ℚ) : ℚ := 10 ^ (Int.log 10 |x| - digits + 1)

section

variable {digits : ℕ} {x y : ℚ}

theorem lastUnit_pos : 0 < lastUnit digits x := zpow_pos (by norm_num) _

theorem toDigits_zero (digits : ℕ) : toDigits digits 0 = 0 := if_pos rfl

theorem toDigits_of_ne (h : x ≠ 0) :
    toDigits digits x = halfEven (x / lastUnit digits x) * lastUnit digits x :=
  if_neg h

/-- rounding moves a number by at most half a unit of its last digit -/
theorem toDigits_error (digits : ℕ) (h : x ≠ 0) :
    |toDigits digits x - x| ≤ lastUnit digits x / 2 := by
  have hunit : 0 < lastUnit digits x := lastUnit_pos
  have heq : toDigits digits x - x =
      (halfEven (x / lastUnit digits x) - x / lastUnit digits x) * lastUnit digits x := by
    rw [toDigits_of_ne h, sub_mul, div_mul_cancel₀ x hunit.ne']
  rw [heq, abs_mul, abs_of_pos hunit]
  have := mul_le_mul_of_nonneg_right (halfEven_error (x / lastUnit digits x)) hunit.le
  linarith

theorem toDigits_neg (digits : ℕ) (x : ℚ) : toDigits digits (-x) = -toDigits digits x := by
  rcases eq_or_ne x 0 with rfl | h
  · rw [neg_zero, toDigits_zero, neg_zero]
  · have hunit : lastUnit digits (-x) = lastUnit digits x := by rw [lastUnit, lastUnit, abs_neg]
    rw [toDigits_of_ne h, toDigits_of_ne (neg_ne_zero.mpr h), hunit, neg_div, halfEven_neg]
    push_cast
    ring

theorem zpow_log_le (h : 0 < x) : (10 : ℚ) ^ Int.log 10 x ≤ x :=
  Int.zpow_log_le_self (by norm_num) h

theorem lt_zpow_log (x : ℚ) : x < (10 : ℚ) ^ (Int.log 10 x + 1) := by
  have h := Int.lt_zpow_succ_log_self (b := 10) (by norm_num) x
  exact_mod_cast h

theorem lastUnit_mul_pow (hd : 0 < digits) (x : ℚ) :
    lastUnit digits x * 10 ^ (digits - 1) = (10 : ℚ) ^ Int.log 10 |x| := by
  rw [lastUnit, ← zpow_natCast, ← zpow_add₀ (by norm_num)]
  congr 1
  omega

theorem zpow_log_le_toDigits (hd : 0 < digits) (h : 0 < x) :
    (10 : ℚ) ^ Int.log 10 x ≤ toDigits digits x := by
  have hscale := lastUnit_mul_pow hd x
  rw [abs_of_pos h] at hscale
  have hquot : (((10 ^ (digits - 1) : ℤ)) : ℚ) ≤ x / lastUnit digits x := by
    rw [le_div_iff₀ lastUnit_pos, mul_comm]
    push_cast
    rw [hscale]
    exact zpow_log_le h
  have hround : ((10 ^ (digits - 1) : ℤ) : ℚ) ≤ halfEven (x / lastUnit digits x) := by
    exact_mod_cast halfEven_intCast (10 ^ (digits - 1)) ▸ halfEven_mono hquot
  rw [toDigits_of_ne h.ne', ← hscale, mul_comm]
  refine mul_le_mul_of_nonneg_right ?_ lastUnit_pos.le
  exact_mod_cast hround

theorem toDigits_le_zpow_log (hd : 0 < digits) (h : 0 < x) :
    toDigits digits x ≤ (10 : ℚ) ^ (Int.log 10 x + 1) := by
  have hscale := lastUnit_mul_pow hd x
  rw [abs_of_pos h] at hscale
  have hnext : lastUnit digits x * 10 ^ digits = (10 : ℚ) ^ (Int.log 10 x + 1) := by
    rw [zpow_add_one₀ (by norm_num), ← hscale, mul_assoc, ← pow_succ, Nat.sub_add_cancel hd]
  have hquot : x / lastUnit digits x ≤ ((10 ^ digits : ℤ) : ℚ) := by
    rw [div_le_iff₀ lastUnit_pos, mul_comm]
    push_cast
    rw [hnext]
    exact (lt_zpow_log x).le
  have hround : (halfEven (x / lastUnit digits x) : ℚ) ≤ ((10 ^ digits : ℤ) : ℚ) := by
    exact_mod_cast halfEven_intCast (10 ^ digits) ▸ halfEven_mono hquot
  rw [toDigits_of_ne h.ne', ← hnext, mul_comm]
  refine mul_le_mul_of_nonneg_left ?_ lastUnit_pos.le
  exact_mod_cast hround

theorem toDigits_pos (hd : 0 < digits) (h : 0 < x) : 0 < toDigits digits x :=
  lt_of_lt_of_le (zpow_pos (by norm_num) _) (zpow_log_le_toDigits hd h)

theorem toDigits_nonneg (hd : 0 < digits) (h : 0 ≤ x) : 0 ≤ toDigits digits x := by
  rcases h.eq_or_lt with rfl | h
  · rw [toDigits_zero]
  · exact (toDigits_pos hd h).le

theorem toDigits_nonpos (hd : 0 < digits) (h : x ≤ 0) : toDigits digits x ≤ 0 := by
  have hneg := toDigits_nonneg hd (neg_nonneg.mpr h)
  rw [toDigits_neg] at hneg
  linarith

theorem toDigits_le_of_pos (hd : 0 < digits) (hx : 0 < x) (h : x ≤ y) :
    toDigits digits x ≤ toDigits digits y := by
  have hy := hx.trans_le h
  have hlog : Int.log 10 x ≤ Int.log 10 y := Int.log_mono_right hx h
  rcases hlog.eq_or_lt with heq | hlt
  · have hunit : lastUnit digits x = lastUnit digits y := by
      rw [lastUnit, lastUnit, abs_of_pos hx, abs_of_pos hy, heq]
    rw [toDigits_of_ne hx.ne', toDigits_of_ne hy.ne', hunit]
    refine mul_le_mul_of_nonneg_right ?_ lastUnit_pos.le
    exact_mod_cast halfEven_mono (div_le_div_of_nonneg_right h lastUnit_pos.le)
  · calc toDigits digits x ≤ (10 : ℚ) ^ (Int.log 10 x + 1) := toDigits_le_zpow_log hd hx
      _ ≤ (10 : ℚ) ^ Int.log 10 y := zpow_le_zpow_right₀ (by norm_num) hlt
      _ ≤ toDigits digits y := zpow_log_le_toDigits hd hy

/-- rounding keeps the order -/
theorem toDigits_mono (hd : 0 < digits) : Monotone (toDigits digits) := by
  intro x y h
  rcases lt_or_ge 0 x with hx | hx
  · exact toDigits_le_of_pos hd hx h
  · rcases lt_or_ge y 0 with hy | hy
    · have hneg := toDigits_le_of_pos hd (neg_pos.mpr hy) (neg_le_neg h)
      rw [toDigits_neg, toDigits_neg] at hneg
      linarith
    · exact (toDigits_nonpos hd hx).trans (toDigits_nonneg hd hy)

/-! ## values with so many digits -/

/-- an integer of so many digits, times a power of ten -/
def HasDigits (digits : ℕ) (x : ℚ) : Prop := ∃ k e : ℤ, |k| < 10 ^ digits ∧ x = k * 10 ^ e

theorem HasDigits.neg (h : HasDigits digits x) : HasDigits digits (-x) := by
  obtain ⟨k, e, hk, rfl⟩ := h
  exact ⟨-k, e, by rwa [abs_neg], by push_cast; ring⟩

/-- a number with few enough digits is left as it is -/
theorem toDigits_of_hasDigits (h : HasDigits digits x) : toDigits digits x = x := by
  obtain ⟨k, e, hk, rfl⟩ := h
  rcases eq_or_ne ((k : ℚ) * 10 ^ e) 0 with h0 | h0
  · rw [h0, toDigits_zero]
  · set x : ℚ := k * 10 ^ e with hx
    have hbound : |x| < (10 : ℚ) ^ (digits + e : ℤ) := by
      rw [hx, abs_mul, abs_of_pos (zpow_pos (by norm_num : (0 : ℚ) < 10) e),
        zpow_add₀ (by norm_num), zpow_natCast]
      refine mul_lt_mul_of_pos_right ?_ (zpow_pos (by norm_num) e)
      exact_mod_cast hk
    have hlog : Int.log 10 |x| < digits + e :=
      (zpow_lt_zpow_iff_right₀ (by norm_num : (1 : ℚ) < 10)).mp
        (lt_of_le_of_lt (zpow_log_le (abs_pos.mpr h0)) hbound)
    -- the unit of the last digit divides the value
    obtain ⟨j, hj⟩ : ∃ j : ℕ, e - (Int.log 10 |x| - digits + 1) = j :=
      Int.eq_ofNat_of_zero_le (by omega)
    have hquot : x / lastUnit digits x = ((k * 10 ^ j : ℤ) : ℚ) := by
      have hexp : (10 : ℚ) ^ e = 10 ^ j * lastUnit digits x := by
        rw [lastUnit, ← zpow_natCast, ← zpow_add₀ (by norm_num), ← hj, sub_add_cancel]
      rw [div_eq_iff lastUnit_pos.ne']
      push_cast
      rw [mul_assoc, ← hexp]
    rw [toDigits_of_ne h0, hquot, halfEven_intCast, ← hquot, div_mul_cancel₀ x lastUnit_pos.ne']

theorem hasDigits_toDigits (hd : 0 < digits) (x : ℚ) : HasDigits digits (toDigits digits x) := by
  have hpow : (1 : ℤ) < 10 ^ digits := one_lt_pow₀ (by norm_num) hd.ne'
  have hpositive : ∀ {x : ℚ}, 0 < x → HasDigits digits (toDigits digits x) := by
    intro x h
    set k := halfEven (x / lastUnit digits x) with hk
    have heq : toDigits digits x = k * lastUnit digits x := toDigits_of_ne h.ne'
    have hle : toDigits digits x ≤ 10 ^ digits * lastUnit digits x := by
      refine (toDigits_le_zpow_log hd h).trans (le_of_eq ?_)
      rw [lastUnit, abs_of_pos h, ← zpow_natCast, ← zpow_add₀ (by norm_num)]
      congr 1
      omega
    have hnonneg := (toDigits_pos hd h).le
    rw [heq] at hle hnonneg
    have hk0 : 0 ≤ k := by exact_mod_cast nonneg_of_mul_nonneg_left hnonneg lastUnit_pos
    have hk1 : k ≤ 10 ^ digits := by exact_mod_cast le_of_mul_le_mul_right hle lastUnit_pos
    rcases hk1.lt_or_eq with hlt | hmax
    · exact ⟨k, _, by rwa [abs_of_nonneg hk0], heq⟩
    · -- rounded up to the next power
      refine ⟨1, digits + (Int.log 10 |x| - digits + 1), by rwa [abs_one], ?_⟩
      rw [heq, hmax, lastUnit, zpow_add₀ (by norm_num) (digits : ℤ), zpow_natCast]
      push_cast
      ring
  rcases lt_trichotomy x 0 with h | rfl | h
  · have := (hpositive (neg_pos.mpr h)).neg
    rwa [toDigits_neg, neg_neg] at this
  · exact ⟨0, 0, by rw [abs_zero]; positivity, by rw [toDigits_zero]; norm_num⟩
  · exact hpositive h

end

/-! ## contexts -/

/-- rounding keeps the sign and zero -/
structure Arith.Signed (A : Arith) : Prop where
  pos : ∀ {x}, 0 < x → 0 < A.round x
  neg : ∀ {x}, x < 0 → A.round x < 0
  zero : A.round 0 = 0

namespace Arith.Signed

variable {A : Arith} {x y : ℚ}

theorem exact : Arith.exact.Signed := ⟨id, id, rfl⟩

theorem nonneg (h : A.Signed) (hx : 0 ≤ x) : 0 ≤ A.round x := by
  rcases hx.eq_or_lt with rfl | hx
  · exact h.zero.ge
  · exact (h.pos hx).le

theorem pos_iff (h : A.Signed) : 0 < A.round x ↔ 0 < x := by
  refine ⟨fun hr => ?_, h.pos⟩
  rcases lt_trichotomy x 0 with hx | rfl | hx
  · exact absurd (h.neg hx) hr.not_gt
  · exact absurd hr h.zero.not_gt
  · exact hx

theorem pos_mul (h : A.Signed) (hx : 0 < x) (hy : 0 < y) : 0 < A.mul x y := h.pos (mul_pos hx hy)

theorem nonneg_mul (h : A.Signed) (hx : 0 ≤ x) (hy : 0 ≤ y) : 0 ≤ A.mul x y :=
  h.nonneg (mul_nonneg hx hy)

theorem nonneg_div (h : A.Signed) (hx : 0 ≤ x) (hy : 0 ≤ y) : 0 ≤ A.div x y :=
  h.nonneg (div_nonneg hx hy)

end Arith.Signed

end Lib
