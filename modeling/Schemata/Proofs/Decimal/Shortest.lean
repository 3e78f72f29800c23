import Mathlib.Data.Rat.Cast.Order
import Schemata.Decimal.Shortest
import Schemata.Proofs.Decimal.Binary64

/-!
# Shortest decimals are read back

Whatever the search for a short decimal finds is read as the number it is searched for, and so is the
exact decimal behind the search (`ofDecimal_exactDecimal`). Taking zeros off the end of the digits
changes nothing, so that `shortest` is read back (`ofDecimal_shortest`).
-/

namespace Schemata

-- powers as the core library defines them, whatever is imported
attribute [local instance (2000)] instPowNat

namespace Binary64

variable {negative : Bool} {mantissa : Nat} {exponent : Int}

/-! ## The exact decimal -/

/-- No number is so small, apart from zero, that its size alone makes it zero. -/
theorem le_length_exactDecimal (hpos : 0 < mantissa)
    (hmin : minExponent ≤ exponent) :
    -330 ≤ ((Nat.toDigits 10 (exactDecimal mantissa exponent).digits).length : Int) + min exponent 0 := by
  have hlength := Nat.length_toDigits_pos (b := 10) (n := (exactDecimal mantissa exponent).digits)
  have hpower : 5 ^ (-exponent).toNat ≤ (exactDecimal mantissa exponent).digits :=
    Nat.le_mul_of_pos_left _ (by positivity)
  have hmin' : -1074 ≤ exponent := hmin
  generalize hk : (-exponent).toNat = k at hpower
  by_contra hlt
  obtain ⟨j, rfl⟩ : ∃ j, k = 331 + j := ⟨k - 331, by omega⟩
  have hfew := (Nat.length_toDigits_le_iff (b := 10) (k := j) (by norm_num) (by omega)).1
    (show (Nat.toDigits 10 (exactDecimal mantissa exponent).digits).length ≤ j by omega)
  have hten : (10 : Nat) ^ j = 5 ^ j * 2 ^ j := by rw [← Nat.mul_pow]
  obtain ⟨top, htop, hfive⟩ : ∃ top, top = 743 ∧ (2 : Nat) ^ top < 5 ^ 331 :=
    ⟨743, rfl, by decide +kernel⟩
  have htwo : (2 : Nat) ^ j ≤ 2 ^ top := Nat.pow_le_pow_right (by norm_num) (by omega)
  have hcontra : (5 : Nat) ^ 331 * 5 ^ j < 2 ^ j * 5 ^ j := by
    rw [← Nat.pow_add, Nat.mul_comm, ← hten]
    exact hpower.trans_lt hfew
  exact absurd (Nat.lt_of_mul_lt_mul_right hcontra)
    (not_lt.2 (htwo.trans hfive.le))

/-- No number is so large that its size alone makes it infinite. -/
theorem length_exactDecimal_le (hlt : mantissa < 2 ^ 53)
    (hmax : exponent ≤ maxExponent) :
    ((Nat.toDigits 10 (exactDecimal mantissa exponent).digits).length : Int) + min exponent 0 ≤ 310 := by
  have hmax' : exponent ≤ 971 := hmax
  suffices h : (exactDecimal mantissa exponent).digits < 10 ^ (310 + (-exponent).toNat) by
    have hle := (Nat.length_toDigits_le_iff (b := 10) (by norm_num) (by omega)).2 h
    omega
  obtain ⟨top, htop, hten⟩ : ∃ top, top = 971 ∧ (2 : Nat) ^ 53 * 2 ^ top ≤ 10 ^ 310 :=
    ⟨971, rfl, by decide +kernel⟩
  have htwo : (2 : Nat) ^ exponent.toNat ≤ 2 ^ top :=
    Nat.pow_le_pow_right (by norm_num) (by omega)
  calc (exactDecimal mantissa exponent).digits
      < 2 ^ 53 * 2 ^ top * 5 ^ (-exponent).toNat :=
        Nat.mul_lt_mul_of_pos_right (Nat.mul_lt_mul_of_lt_of_le hlt htwo (by positivity))
          (by positivity)
    _ ≤ 10 ^ 310 * 10 ^ (-exponent).toNat :=
        Nat.mul_le_mul hten (Nat.pow_le_pow_left (by norm_num) _)
    _ = 10 ^ (310 + (-exponent).toNat) := by rw [Nat.pow_add]

theorem exactDecimal_value (mantissa : Nat) (exponent : Int) :
    (((exactDecimal mantissa exponent).digits * 10 ^ (min exponent 0).toNat : Nat) : ℚ) /
      (10 ^ (-(min exponent 0)).toNat : Nat) = mantissa * 2 ^ exponent := by
  have hzero : (min exponent 0).toNat = 0 := by omega
  have hneg : (-(min exponent 0)).toNat = (-exponent).toNat := by omega
  have hten : (10 : ℚ) ^ (-exponent).toNat = 2 ^ (-exponent).toNat * 5 ^ (-exponent).toNat := by
    rw [← mul_pow]
    norm_num
  rw [exactDecimal, hzero, hneg, zpow_eq_div]
  push_cast
  rw [hten]
  field_simp

/-- **A number in normal form is what its exact decimal is read as.** -/
theorem ofDecimal_exactDecimal 
    (h : IsCanonical (.finite negative mantissa exponent)) (hpos : 0 < mantissa) :
    ofDecimal negative ((exactDecimal mantissa exponent).digits) (min exponent 0) =
      .finite negative mantissa exponent := by
  have hdigits : 0 < (exactDecimal mantissa exponent).digits :=
    Nat.mul_pos (Nat.mul_pos hpos (by positivity)) (by positivity)
  have hlow := le_length_exactDecimal hpos h.2.1
  have hhigh := length_exactDecimal_le h.1 h.2.2.1
  rw [ofDecimal_of_pos negative hdigits, if_neg (not_lt.2 hlow), if_neg (not_lt.2 hhigh)]
  exact ofRatio_of_value h (by positivity) (by positivity) (exactDecimal_value mantissa exponent)

/-! ## Short decimals -/

/-- Taking zeros off the end of the digits does not change the number. -/
theorem normalize_spec (d : Decimal) (hd : 0 < d.digits) :
    0 < d.normalize.digits ∧
      ofDecimal negative d.normalize.digits d.normalize.exponent =
        ofDecimal negative d.digits d.exponent := by
  induction d using Decimal.normalize.induct with
  | case1 d h ih =>
    have hdvd : d.digits = d.digits / 10 * 10 ^ 1 := by
      rw [Nat.pow_one]
      omega
    obtain ⟨hpos, heq⟩ := ih (by simp only; omega)
    rw [Decimal.normalize, if_pos h]
    refine ⟨hpos, heq.trans ?_⟩
    conv_rhs => rw [hdvd, ofDecimal_mul_pow negative (by omega)]
    rfl
  | case2 d h =>
    rw [Decimal.normalize, if_neg h]
    exact ⟨hd, rfl⟩

theorem readsAs_of_neighbour {power : Int} {d : Decimal}
    (h : neighbour? mantissa exponent power = some d) : d.readsAs mantissa exponent = true := by
  unfold neighbour? at h
  dsimp only at h
  split_ifs at h <;> cases h <;> assumption

/-- **The shortest decimal is read back.** -/
theorem ofDecimal_shortest (h : IsCanonical (.finite negative mantissa exponent))
    (hpos : 0 < mantissa) :
    0 < (shortest mantissa exponent).digits ∧
      ofDecimal negative (shortest mantissa exponent).digits (shortest mantissa exponent).exponent =
        .finite negative mantissa exponent := by
  suffices hreads : ∃ d : Decimal, shortest mantissa exponent = d.normalize ∧ 0 < d.digits ∧
      ofDecimal negative d.digits d.exponent = .finite negative mantissa exponent by
    obtain ⟨d, heq, hd, hvalue⟩ := hreads
    rw [heq, ← hvalue]
    exact normalize_spec d hd
  unfold shortest
  dsimp only
  split
  · next d hfound =>
    obtain ⟨power, -, hneighbour⟩ := List.exists_of_findSome?_eq_some hfound
    have hvalue := beq_iff_eq.1 (readsAs_of_neighbour hneighbour)
    refine ⟨d, rfl, Nat.pos_of_ne_zero fun hzero => ?_, ofDecimal_of_false negative hvalue⟩
    rw [hzero] at hvalue
    obtain ⟨-, hmantissa, -⟩ := Binary64.finite.inj hvalue
    omega
  · refine ⟨_, rfl, ?_, ofDecimal_exactDecimal h hpos⟩
    exact Nat.mul_pos (Nat.mul_pos hpos (by positivity)) (by positivity)

end Binary64

end Schemata
