import Mathlib.Algebra.Order.Field.Power
import Mathlib.Data.Rat.Cast.Order
import Mathlib.Tactic.FieldSimp
import Mathlib.Tactic.Linarith
import Mathlib.Tactic.NormNum
import Mathlib.Tactic.Positivity
import Mathlib.Tactic.Ring
import Schemata.Decimal.Binary64

/-!
# Rounding to binary numbers

The exponent at which a quotient is rounded is the only one at which its mantissa has 53 bits, or
the least one if it has fewer (`exponentFor_spec`, `IsExponent.unique`). Hence rounding depends on
the value of a quotient alone (`ofRatio_congr`), and zeros at the end of a decimal can be moved into
its exponent (`ofDecimal_mul_pow`).

What comes of rounding is in normal form (`isCanonical_ofDecimal`), and a number in normal form is
what its own value is rounded to (`ofRatio_of_value`).
-/

namespace Schemata.Binary64

-- powers as the core library defines them, whatever is imported
attribute [local instance (2000)] instPowNat

variable {num den num' den' n d : Nat} {e e' : Int} {r : ℚ}

/-! ## Exponents -/

/-- The exponent at which a positive number is rounded. -/
structure IsExponent (r : ℚ) (e : Int) : Prop where
  /-- It is not below the least one. -/
  min_le : minExponent ≤ e
  /-- The mantissa has no more than 53 bits. -/
  lt_zpow : r < 2 ^ (e + 53)
  /-- The mantissa has 53 bits, unless the exponent is the least one. -/
  zpow_le : e = minExponent ∨ 2 ^ (e + 52) ≤ r

theorem IsExponent.le (h : IsExponent r e) (h' : IsExponent r e') : e ≤ e' := by
  by_contra hlt
  rcases h.zpow_le with rfl | hle
  · exact hlt h'.min_le
  · have hpow : (2 : ℚ) ^ (e' + 53) ≤ 2 ^ (e + 52) := zpow_le_zpow_right₀ (by norm_num) (by omega)
    exact absurd (hle.trans_lt h'.lt_zpow) (not_lt.2 hpow)

/-- **There is one exponent only.** -/
theorem IsExponent.unique (h : IsExponent r e) (h' : IsExponent r e') : e = e' :=
  le_antisymm (h.le h') (h'.le h)

theorem zpow_eq_div (e : Int) : (2 : ℚ) ^ e = (2 ^ e.toNat : Nat) / (2 ^ (-e).toNat : Nat) := by
  rcases Int.le_total 0 e with h | h
  · obtain ⟨k, rfl⟩ := Int.eq_ofNat_of_zero_le h
    simp
  · obtain ⟨k, hk⟩ := Int.eq_ofNat_of_zero_le (Int.neg_nonneg_of_nonpos h)
    obtain rfl : e = -(k : Int) := by omega
    simp

theorem scale_snd_pos (hden : 0 < den) (e : Int) : 0 < (scale num den e).2 :=
  Nat.mul_pos hden (Nat.two_pow_pos _)

/-- Scaling divides by a power of two. -/
theorem scale_value (hden : 0 < den) (e : Int) :
    ((scale num den e).1 : ℚ) / (scale num den e).2 = (num : ℚ) / den / 2 ^ e := by
  have hpos : (den : ℚ) ≠ 0 := by exact_mod_cast hden.ne'
  rw [scale, zpow_eq_div]
  push_cast
  field_simp

theorem div_lt_iff_value (hd : 0 < d) (k : Nat) : n / d < k ↔ (n : ℚ) / d < k := by
  rw [Nat.div_lt_iff_lt_mul hd, div_lt_iff₀ (by exact_mod_cast hd)]
  exact_mod_cast Iff.rfl

theorem le_div_iff_value (hd : 0 < d) (k : Nat) : k ≤ n / d ↔ (k : ℚ) ≤ (n : ℚ) / d := by
  rw [Nat.le_div_iff_mul_le hd, le_div_iff₀ (by exact_mod_cast hd)]
  exact_mod_cast Iff.rfl

theorem zpow_log2_le (hnum : 0 < num) : (2 : ℚ) ^ (num.log2 : Int) ≤ num := by
  rw [zpow_natCast]
  exact_mod_cast Nat.log2_self_le hnum.ne'

theorem lt_zpow_log2 (num : Nat) : (num : ℚ) < 2 ^ ((num.log2 : Int) + 1) := by
  have h := Nat.lt_log2_self (n := num)
  have hcast : ((num.log2 : Int) + 1) = ((num.log2 + 1 : Nat) : Int) := by push_cast; rfl
  rw [hcast, zpow_natCast]
  exact_mod_cast h

/-- The binary logarithms tell the size of a quotient. -/
theorem quotient_bounds (hnum : 0 < num) (hden : 0 < den) :
    (2 : ℚ) ^ ((num.log2 : Int) - den.log2 - 1) ≤ (num : ℚ) / den ∧
      (num : ℚ) / den < 2 ^ ((num.log2 : Int) - den.log2 + 1) := by
  have hpos : (0 : ℚ) < den := by exact_mod_cast hden
  have htwo : (2 : ℚ) ≠ 0 := by norm_num
  constructor
  · rw [le_div_iff₀ hpos]
    calc (2 : ℚ) ^ ((num.log2 : Int) - den.log2 - 1) * den
        ≤ 2 ^ ((num.log2 : Int) - den.log2 - 1) * 2 ^ ((den.log2 : Int) + 1) :=
          mul_le_mul_of_nonneg_left (lt_zpow_log2 den).le (by positivity)
      _ = 2 ^ (num.log2 : Int) := by rw [← zpow_add₀ htwo]; congr 1; omega
      _ ≤ num := zpow_log2_le hnum
  · rw [div_lt_iff₀ hpos]
    calc (num : ℚ) < 2 ^ ((num.log2 : Int) + 1) := lt_zpow_log2 num
      _ = 2 ^ ((num.log2 : Int) - den.log2 + 1) * 2 ^ (den.log2 : Int) := by
          rw [← zpow_add₀ htwo]; congr 1; omega
      _ ≤ 2 ^ ((num.log2 : Int) - den.log2 + 1) * den :=
          mul_le_mul_of_nonneg_left (zpow_log2_le hden) (by positivity)

/-- Whether the mantissa at an exponent has no more than 53 bits. -/
theorem scale_div_lt_iff (hden : 0 < den) (e : Int) :
    (scale num den e).1 / (scale num den e).2 < 2 ^ 53 ↔ (num : ℚ) / den < 2 ^ (e + 53) := by
  rw [div_lt_iff_value (scale_snd_pos hden e), scale_value hden,
    div_lt_iff₀ (zpow_pos (by norm_num) e), zpow_add₀ (by norm_num), mul_comm]
  norm_num

/-- **The exponent at which a quotient is rounded.** -/
theorem exponentFor_spec (hnum : 0 < num) (hden : 0 < den) :
    IsExponent ((num : ℚ) / den) (exponentFor num den) := by
  have ⟨hlow, hhigh⟩ := quotient_bounds hnum hden
  have hdef : exponentFor num den =
      let estimate := max ((num.log2 : Int) - den.log2 - 53) minExponent
      if (scale num den estimate).1 / (scale num den estimate).2 < 2 ^ 53 then estimate
      else estimate + 1 := rfl
  rw [hdef]
  generalize hestimate : max ((num.log2 : Int) - den.log2 - 53) minExponent = estimate
  have hmin : minExponent ≤ estimate := by omega
  dsimp only
  split
  · next hlt =>
    refine ⟨hmin, (scale_div_lt_iff hden estimate).1 hlt, ?_⟩
    rcases hmin.eq_or_lt with heq | hlt
    · exact .inl heq.symm
    · refine .inr ((zpow_le_zpow_right₀ (by norm_num) ?_).trans hlow)
      omega
  · next hnot =>
    rw [scale_div_lt_iff hden, not_lt] at hnot
    refine ⟨by omega, hhigh.trans_le (zpow_le_zpow_right₀ (by norm_num) (by omega)), .inr ?_⟩
    rwa [show estimate + 1 + 52 = estimate + 53 by omega]

theorem exponentFor_eq (hnum : 0 < num) (hden : 0 < den)
    (h : IsExponent ((num : ℚ) / den) e) : exponentFor num den = e :=
  (exponentFor_spec hnum hden).unique h

/-! ## Rounding -/

theorem roundQuotient_mul (k : Nat) (hk : 0 < k) :
    roundQuotient (k * n) (k * d) = roundQuotient n d := by
  unfold roundQuotient
  rw [Nat.mul_div_mul_left n d hk, Nat.mul_mod_mul_left]
  have hlt : 2 * (k * (n % d)) < k * d ↔ 2 * (n % d) < d := by
    rw [Nat.mul_left_comm]
    exact Nat.mul_lt_mul_left hk
  have heq : (2 * (k * (n % d)) == k * d) = (2 * (n % d) == d) := by
    rw [Nat.mul_left_comm, Bool.eq_iff_iff, beq_iff_eq, beq_iff_eq]
    exact Nat.mul_right_inj hk.ne'
  simp only [hlt, heq]

/-- Rounding to an integer depends on the value of a quotient alone. -/
theorem roundQuotient_congr (hd : 0 < d) (hd' : 0 < d') (h : n * d' = n' * d) :
    roundQuotient n d = roundQuotient n' d' := by
  rw [← roundQuotient_mul d' hd', ← roundQuotient_mul (n := n') d hd, Nat.mul_comm d' n, h,
    Nat.mul_comm n' d, Nat.mul_comm d' d]

theorem roundQuotient_of_dvd (hd : 0 < d) : roundQuotient (n * d) d = n := by
  simp [roundQuotient, Nat.mul_div_cancel n hd, hd]

/-- A quotient is rounded to one of its neighbours. -/
theorem roundQuotient_cases (n d : Nat) :
    roundQuotient n d = n / d ∨ roundQuotient n d = n / d + 1 := by
  unfold roundQuotient
  dsimp only
  split
  · exact .inl rfl
  · exact .inr rfl

theorem value_congr (hden : 0 < den) (hden' : 0 < den') :
    (num : ℚ) / den = (num' : ℚ) / den' ↔ num * den' = num' * den := by
  rw [div_eq_div_iff (by exact_mod_cast hden.ne') (by exact_mod_cast hden'.ne')]
  exact_mod_cast Iff.rfl

/-- **Rounding depends on the value of a quotient alone.** -/
theorem ofRatio_congr (negative : Bool) (hnum : 0 < num) (hnum' : 0 < num') (hden : 0 < den)
    (hden' : 0 < den') (h : num * den' = num' * den) :
    ofRatio negative num den = ofRatio negative num' den' := by
  have hexponent : exponentFor num den = exponentFor num' den' := by
    refine exponentFor_eq hnum hden ?_
    rw [(value_congr hden hden').2 h]
    exact exponentFor_spec hnum' hden'
  have hround : ∀ e, roundQuotient (scale num den e).1 (scale num den e).2 =
      roundQuotient (scale num' den' e).1 (scale num' den' e).2 := by
    intro e
    refine roundQuotient_congr (scale_snd_pos hden e) (scale_snd_pos hden' e) ?_
    rw [← value_congr (scale_snd_pos hden e) (scale_snd_pos hden' e), scale_value hden,
      scale_value hden', (value_congr hden hden').2 h]
  unfold ofRatio
  simp only [hexponent, hround]

/-! ## Normal form -/

/-- Of the ways to write a number the one with 53 bits in the mantissa, unless its exponent is the
least one. -/
def IsCanonical : Binary64 → Prop
  | .finite _ mantissa exponent =>
    mantissa < 2 ^ 53 ∧ minExponent ≤ exponent ∧ exponent ≤ maxExponent ∧
      (exponent = minExponent ∨ 2 ^ 52 ≤ mantissa)
  | _ => True

theorem isCanonical_ofRatio (negative : Bool) (hnum : 0 < num) (hden : 0 < den) :
    (ofRatio negative num den).IsCanonical := by
  have hspec := exponentFor_spec hnum hden
  have hlt := (scale_div_lt_iff hden _).2 hspec.lt_zpow
  have hle : exponentFor num den = minExponent ∨ 2 ^ 52 ≤
      (scale num den (exponentFor num den)).1 / (scale num den (exponentFor num den)).2 := by
    refine hspec.zpow_le.imp_right fun hle => ?_
    rw [le_div_iff_value (scale_snd_pos hden _), scale_value hden,
      le_div_iff₀ (zpow_pos (by norm_num) _)]
    rw [zpow_add₀ (by norm_num), mul_comm] at hle
    exact_mod_cast hle
  have hcases := roundQuotient_cases (scale num den (exponentFor num den)).1
    (scale num den (exponentFor num den)).2
  have hmin := hspec.min_le
  simp only [ofRatio]
  generalize roundQuotient _ _ = mantissa at *
  generalize exponentFor num den = exponent at *
  by_cases hcarry : mantissa = 2 ^ 53
  · rw [if_pos hcarry]
    dsimp only
    split
    · trivial
    · exact ⟨by norm_num, by omega, by omega, .inr le_rfl⟩
  · rw [if_neg hcarry]
    dsimp only
    split
    · trivial
    · exact ⟨by omega, hmin, by omega, by omega⟩

/-- A number in normal form is what its value is rounded to. -/
theorem ofRatio_of_value {negative : Bool} {mantissa : Nat} {exponent : Int}
    (h : IsCanonical (.finite negative mantissa exponent)) (hnum : 0 < num) (hden : 0 < den)
    (hvalue : (num : ℚ) / den = mantissa * 2 ^ exponent) :
    ofRatio negative num den = .finite negative mantissa exponent := by
  obtain ⟨hlt, hmin, hmax, hle⟩ := h
  have hexponent : exponentFor num den = exponent := by
    refine exponentFor_eq hnum hden ⟨hmin, ?_, hle.imp_right fun hle => ?_⟩
    · rw [hvalue, Int.add_comm, zpow_add₀ (by norm_num)]
      exact mul_lt_mul_of_pos_right (by exact_mod_cast hlt) (zpow_pos (by norm_num) _)
    · rw [hvalue, Int.add_comm, zpow_add₀ (by norm_num)]
      exact mul_le_mul_of_nonneg_right (by exact_mod_cast hle) (zpow_pos (by norm_num) _).le
  have hround : roundQuotient (scale num den exponent).1 (scale num den exponent).2 = mantissa := by
    rw [← roundQuotient_of_dvd (n := mantissa) (d := 1) (by norm_num)]
    refine roundQuotient_congr (scale_snd_pos hden _) (by norm_num) ?_
    rw [← value_congr (scale_snd_pos hden _) (by norm_num), scale_value hden, hvalue,
      mul_div_assoc, div_self (zpow_pos (by norm_num) _).ne']
    simp
  simp only [ofRatio, hexponent, hround]
  rw [if_neg hlt.ne, if_neg (not_lt.2 hmax)]

/-! ## Decimals -/

theorem toDigits_mul_pow (hn : 0 < n) (k : Nat) :
    Nat.toDigits 10 (n * 10 ^ k) = Nat.toDigits 10 n ++ List.replicate k '0' := by
  induction k with
  | zero => simp
  | succ k ih =>
    have hpos : 0 < n * 10 ^ k := Nat.mul_pos hn (Nat.pow_pos (by norm_num))
    have h := Nat.toDigits_append_toDigits (b := 10) (d := 0) (by norm_num) hpos (by norm_num)
    rw [Nat.pow_succ, ← Nat.mul_assoc, Nat.mul_comm _ 10, ← Nat.add_zero (10 * _), ← h, ih,
      Nat.toDigits_zero, List.append_assoc, ← List.replicate_succ']

theorem ofDecimal_of_pos (negative : Bool) (hn : 0 < n) (e : Int) :
    ofDecimal negative n e =
      if ((Nat.toDigits 10 n).length : Int) + e < -330 then .finite negative 0 minExponent
      else if ((Nat.toDigits 10 n).length : Int) + e > 310 then .infinite negative
      else ofRatio negative (n * 10 ^ e.toNat) (10 ^ (-e).toNat) := by
  simp [ofDecimal, hn.ne']

/-- **Zeros at the end of the digits count as well in the exponent.** -/
theorem ofDecimal_mul_pow (negative : Bool) (hn : 0 < n) (k : Nat) (e : Int) :
    ofDecimal negative (n * 10 ^ k) e = ofDecimal negative n (e + k) := by
  have hpos : 0 < n * 10 ^ k := Nat.mul_pos hn (Nat.pow_pos (by norm_num))
  have hratio : ofRatio negative (n * 10 ^ k * 10 ^ e.toNat) (10 ^ (-e).toNat) =
      ofRatio negative (n * 10 ^ (e + k).toNat) (10 ^ (-(e + k)).toNat) := by
    refine ofRatio_congr negative (by positivity) (by positivity) (by positivity) (by positivity) ?_
    have hexponents : k + e.toNat + (-(e + k)).toNat = (e + k).toNat + (-e).toNat := by omega
    rw [Nat.mul_assoc, Nat.mul_assoc, Nat.mul_assoc, ← Nat.pow_add, ← Nat.pow_add, ← Nat.pow_add,
      ← hexponents, Nat.add_assoc]
  have hsize : ((Nat.toDigits 10 (n * 10 ^ k)).length : Int) + e =
      (Nat.toDigits 10 n).length + (e + k) := by
    rw [toDigits_mul_pow hn, List.length_append, List.length_replicate]
    omega
  rw [ofDecimal_of_pos negative hpos, ofDecimal_of_pos negative hn, hratio, hsize]

theorem ofRatio_of_false {mantissa : Nat} {exponent : Int} (negative : Bool)
    (h : ofRatio false num den = .finite false mantissa exponent) :
    ofRatio negative num den = .finite negative mantissa exponent := by
  unfold ofRatio at h ⊢
  dsimp only at h ⊢
  generalize roundQuotient _ _ = quotient at *
  generalize (if quotient = 2 ^ 53 then _ else _ : Nat × Int) = rounded at *
  split at h
  · contradiction
  · next hle =>
    rw [if_neg hle]
    obtain ⟨-, rfl, rfl⟩ := Binary64.finite.inj h
    rfl

/-- The sign of a decimal is the sign of the number. -/
theorem ofDecimal_of_false {mantissa : Nat} {exponent : Int} (negative : Bool)
    (h : ofDecimal false n e = .finite false mantissa exponent) :
    ofDecimal negative n e = .finite negative mantissa exponent := by
  rcases Nat.eq_zero_or_pos n with rfl | hn
  · obtain ⟨-, rfl, rfl⟩ := Binary64.finite.inj h
    rfl
  · rw [ofDecimal_of_pos _ hn] at h ⊢
    split at h
    · next hlow =>
      rw [if_pos hlow]
      obtain ⟨-, rfl, rfl⟩ := Binary64.finite.inj h
      rfl
    · next hlow =>
      rw [if_neg hlow]
      split at h
      · contradiction
      · next hhigh =>
        rw [if_neg hhigh]
        exact ofRatio_of_false negative h

theorem isCanonical_ofDecimal (negative : Bool) (n : Nat) (e : Int) :
    (ofDecimal negative n e).IsCanonical := by
  have hzero : (Binary64.finite negative 0 minExponent).IsCanonical :=
    ⟨by norm_num, le_rfl, by decide, .inl rfl⟩
  rcases Nat.eq_zero_or_pos n with rfl | hn
  · exact hzero
  · rw [ofDecimal_of_pos negative hn]
    split
    · exact hzero
    · split
      · trivial
      · exact isCanonical_ofRatio negative (by positivity) (by positivity)

theorem isCanonical_ofInt (n : Int) : (ofInt n).IsCanonical :=
  isCanonical_ofDecimal _ _ _

/-- A number whose exponent is well below the greatest one is finite. -/
theorem isFinite_ofRatio (negative : Bool) (hnum : 0 < num) (hden : 0 < den)
    (h : (num : ℚ) / den < 2 ^ 53) : (ofRatio negative num den).isFinite = true := by
  have hexponent : exponentFor num den ≤ 0 := by
    rcases (exponentFor_spec hnum hden).zpow_le with heq | hle
    · rw [heq]
      decide
    · by_contra hpos
      have hpow : (2 : ℚ) ^ (53 : Int) ≤ 2 ^ (exponentFor num den + 52) :=
        zpow_le_zpow_right₀ (by norm_num) (by omega)
      exact absurd (hpow.trans hle) (not_le.2 (by exact_mod_cast h))
  have hmax : maxExponent = 971 := rfl
  simp only [ofRatio]
  generalize roundQuotient _ _ = mantissa
  split
  · rw [if_neg (by dsimp only; omega)]
    rfl
  · rw [if_neg (by dsimp only; omega)]
    rfl

/-- A whole number of 53 bits is finite. -/
theorem isFinite_ofInt {n : Int} (h : n.natAbs < 2 ^ 53) : (ofInt n).isFinite = true := by
  rcases Nat.eq_zero_or_pos n.natAbs with hzero | hpos
  · rw [ofInt, hzero]
    rfl
  · have hlength : (Nat.toDigits 10 n.natAbs).length ≤ 16 :=
      (Nat.length_toDigits_le_iff (by decide) (by decide)).2 (h.trans (by decide))
    rw [ofInt, ofDecimal_of_pos _ hpos, if_neg (by omega), if_neg (by omega)]
    refine isFinite_ofRatio _ (by simpa using hpos) (by simp) ?_
    simp only [Int.toNat_zero, Int.neg_zero, Nat.pow_zero, Nat.mul_one, Nat.cast_one, div_one]
    exact_mod_cast h

end Schemata.Binary64
