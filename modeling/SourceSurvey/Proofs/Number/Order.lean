import Mathlib.Data.EReal.Basic
import Mathlib.Order.Interval.Set.Defs
import SourceSurvey.Settings

/-!
# The order of numbers

A number of the binary format stands for a real number or for an infinite one, and not-a-number
stands for none. Main statement: a number is compared with a whole number as the one that it stands
for is.
-/

namespace SourceSurvey

namespace Binary64

/-- A finite number as a real one. -/
noncomputable def finiteValue (negative : Bool) (mantissa : Nat) (exponent : Int) : ℝ :=
  (if negative then -(mantissa : ℝ) else mantissa) * 2 ^ exponent

/-- The number that a number of the binary format stands for, if any. -/
noncomputable def value? : Binary64 → Option EReal
  | .nan => none
  | .infinite negative => some (if negative then ⊥ else ⊤)
  | .finite negative mantissa exponent => some ↑(finiteValue negative mantissa exponent)

section Finite

variable {negative : Bool} {mantissa : Nat} {exponent k : Int}

theorem toRatio_pos : (0 : ℝ) < (toRatio negative mantissa exponent).2 := by
  unfold toRatio
  dsimp only
  split
  · exact Nat.cast_pos.mpr Nat.one_pos
  · exact Nat.cast_pos.mpr (Nat.pow_pos Nat.two_pos)

/-- A finite number is the quotient that it is taken for. -/
theorem toRatio_eq : ((toRatio negative mantissa exponent).1 : ℝ) =
    finiteValue negative mantissa exponent * (toRatio negative mantissa exponent).2 := by
  unfold toRatio finiteValue
  dsimp only
  split
  · next h =>
    obtain ⟨n, rfl⟩ := Int.eq_ofNat_of_zero_le h
    cases negative <;> simp
  · next h =>
    obtain ⟨n, hn⟩ := Int.eq_ofNat_of_zero_le (show 0 ≤ -exponent by omega)
    obtain rfl : exponent = -n := by omega
    cases negative <;> simp

/-- A ratio is below a whole number when the number that it stands for is. -/
theorem toRatio_lt_iff :
    (toRatio negative mantissa exponent).1 < k * (toRatio negative mantissa exponent).2 ↔
      finiteValue negative mantissa exponent < k := by
  rw [← Int.cast_lt (R := ℝ), toRatio_eq, Int.cast_mul, Int.cast_natCast,
    mul_lt_mul_iff_left₀ toRatio_pos]

/-- A ratio is above a whole number when the number that it stands for is. -/
theorem lt_toRatio_iff :
    k * (toRatio negative mantissa exponent).2 < (toRatio negative mantissa exponent).1 ↔
      k < finiteValue negative mantissa exponent := by
  rw [← Int.cast_lt (R := ℝ), toRatio_eq, Int.cast_mul, Int.cast_natCast,
    mul_lt_mul_iff_left₀ toRatio_pos]

/-- A ratio is a whole number when the number that it stands for is. -/
theorem toRatio_eq_iff :
    (toRatio negative mantissa exponent).1 = k * (toRatio negative mantissa exponent).2 ↔
      finiteValue negative mantissa exponent = k := by
  rw [← Int.cast_inj (α := ℝ), toRatio_eq, Int.cast_mul, Int.cast_natCast,
    mul_left_inj' toRatio_pos.ne']

end Finite

variable {x : Binary64} {v : EReal} {k : Int}

/-- Comparing with a whole number compares the values. -/
theorem ltInt_iff (hv : x.value? = some v) : x.ltInt k = true ↔ v < ((k : ℝ) : EReal) := by
  cases x with
  | nan => cases hv
  | infinite negative =>
    cases hv
    cases negative <;> simp [ltInt]
  | finite negative mantissa exponent =>
    cases hv
    rw [EReal.coe_lt_coe_iff, ← toRatio_lt_iff]
    exact decide_eq_true_iff

theorem gtInt_iff (hv : x.value? = some v) : x.gtInt k = true ↔ ((k : ℝ) : EReal) < v := by
  cases x with
  | nan => cases hv
  | infinite negative =>
    cases hv
    cases negative <;> simp [gtInt]
  | finite negative mantissa exponent =>
    cases hv
    rw [EReal.coe_lt_coe_iff, ← lt_toRatio_iff]
    exact decide_eq_true_iff

theorem eqInt_iff (hv : x.value? = some v) : x.eqInt k = true ↔ v = ((k : ℝ) : EReal) := by
  cases x with
  | nan => cases hv
  | infinite negative =>
    cases hv
    cases negative <;> simp [eqInt]
  | finite negative mantissa exponent =>
    cases hv
    rw [EReal.coe_eq_coe_iff, ← toRatio_eq_iff]
    exact beq_iff_eq

/-- Only what is not a number has no value. -/
theorem value?_eq_none_iff : x.value? = none ↔ x = .nan := by
  cases x <;> simp [value?]

/-- Thirty is a number of the format. -/
theorem value?_ofNat_thirty : (ofNat 30).value? = some ((30 : ℝ) : EReal) := by
  have h : ofNat 30 = .finite false (30 * 2 ^ 48) (-48) := by decide
  rw [h, value?, finiteValue]
  norm_num

end Binary64

namespace Quantity

/-- The number that a quantity stands for, if any. -/
noncomputable def value? : Quantity → Option EReal
  | .truth b => some ((ofTruth b : ℝ) : EReal)
  | .whole n => some ((n : ℝ) : EReal)
  | .real x => x.value?

/-- The quantity stands for a number between some bounds. -/
def IsIn (q : Quantity) (bounds : Set EReal) : Prop :=
  ∃ v ∈ bounds, q.value? = some v

variable {q : Quantity} {v : EReal} {k : Int}

theorem value?_eq_none_iff : q.value? = none ↔ q = .real .nan := by
  cases q with
  | real x => simp [value?, Binary64.value?_eq_none_iff]
  | truth | whole => simp [value?]

/-- A quantity with a value is below a whole number when the value is. -/
theorem lt_iff (hv : q.value? = some v) : q.lt k = true ↔ v < ((k : ℝ) : EReal) := by
  cases q with
  | real x => exact Binary64.ltInt_iff hv
  | truth | whole =>
    cases hv
    simp [lt]

/-- A quantity with a value is above a whole number when the value is. -/
theorem gt_iff (hv : q.value? = some v) : q.gt k = true ↔ ((k : ℝ) : EReal) < v := by
  cases q with
  | real x => exact Binary64.gtInt_iff hv
  | truth | whole =>
    cases hv
    simp [gt]

/-- A quantity with a value is at most a whole number when the value is. -/
theorem le_iff (hv : q.value? = some v) : q.le k = true ↔ v ≤ ((k : ℝ) : EReal) := by
  rw [le, Bool.or_eq_true, lt_iff hv, le_iff_lt_or_eq]
  refine or_congr Iff.rfl ?_
  cases q with
  | real x => exact Binary64.eqInt_iff hv
  | truth | whole =>
    cases hv
    simp [eq]

/-- A quantity that stands for no number lies nowhere. -/
theorem isIn_iff_of_forall {bounds : Set EReal} (h : ∀ v, q.value? = some v → v ∈ bounds) :
    q.IsIn bounds ↔ q ≠ .real .nan := by
  rw [Ne, ← value?_eq_none_iff]
  constructor
  · rintro ⟨v, -, hv⟩ hnone
    cases hnone.symm.trans hv
  · intro hsome
    obtain ⟨v, hv⟩ := Option.ne_none_iff_exists'.mp hsome
    exact ⟨v, h v hv, hv⟩

/-- A quantity that is not less than a bound is at least that, unless it stands for no number. -/
theorem isIn_Ici_iff {bound : EReal} (hbound : ((k : ℝ) : EReal) = bound) (h : q.lt k = false) :
    q.IsIn (Set.Ici bound) ↔ q ≠ .real .nan := by
  refine isIn_iff_of_forall fun v hv => Set.mem_Ici.mpr (not_lt.mp fun hlt => ?_)
  rw [← hbound] at hlt
  rw [(lt_iff hv).mpr hlt] at h
  cases h

end Quantity

end SourceSurvey
