/-
# Rolling averages

A rolling average of width `w` moves, with each new value, to the mean of `w - 1` parts of what it
was and one part of the value.  Over a linearly ordered field:

* it stays between two bounds as long as the values do (`after_mem`);
* its distance to a value that is never fallen short of shrinks by the factor `(w - 1) / w` with each
  value (`sub_after_le`, and `after_sub_le` from the other side).
-/
import Mathlib.Algebra.Order.Field.Basic
import Mathlib.Order.Interval.Set.Basic
import Mathlib.Tactic.Ring
import Mathlib.Tactic.Linarith
import Mathlib.Tactic.FieldSimp

namespace RollingAverage

variable {K : Type} [Field K]

/-- The average after one more value. -/
def step (w average value : K) : K := (average * (w - 1) + value) / w

/-- The average after a list of values. -/
def after (w average : K) (values : List K) : K := values.foldl (step w) average

@[simp] theorem after_nil (w average : K) : after w average [] = average := rfl

@[simp] theorem after_cons (w average value : K) (values : List K) :
    after w average (value :: values) = after w (step w average value) values := rfl

theorem step_neg (w average value : K) : step w (-average) (-value) = -step w average value := by
  unfold step
  ring

theorem after_neg (w : K) (values : List K) (average : K) :
    after w (-average) (values.map (- ·)) = -after w average values := by
  induction values generalizing average with
  | nil => rfl
  | cons value values ih => rw [List.map_cons, after_cons, after_cons, step_neg, ih]

variable [LinearOrder K] [IsStrictOrderedRing K] {w average value : K} {lo hi : K} {values : List K}

theorem step_mem (hw : 1 ≤ w) (ha : average ∈ Set.Icc lo hi) (hv : value ∈ Set.Icc lo hi) :
    step w average value ∈ Set.Icc lo hi := by
  have hpos : 0 < w := lt_of_lt_of_le one_pos hw
  have hweight : 0 ≤ w - 1 := sub_nonneg.mpr hw
  constructor
  · rw [step, le_div_iff₀ hpos]
    have := mul_le_mul_of_nonneg_right ha.1 hweight
    linarith [hv.1]
  · rw [step, div_le_iff₀ hpos]
    have := mul_le_mul_of_nonneg_right ha.2 hweight
    linarith [hv.2]

/-- **Between the bounds of its values** stays an average that starts there. -/
theorem after_mem (hw : 1 ≤ w) (ha : average ∈ Set.Icc lo hi)
    (hv : ∀ value ∈ values, value ∈ Set.Icc lo hi) : after w average values ∈ Set.Icc lo hi := by
  induction values generalizing average with
  | nil => exact ha
  | cons value values ih =>
    rw [List.forall_mem_cons] at hv
    exact ih (step_mem hw ha hv.1) hv.2

theorem sub_step_le (hw : 1 ≤ w) (hv : lo ≤ value) :
    lo - step w average value ≤ (w - 1) / w * (lo - average) := by
  have hpos : 0 < w := lt_of_lt_of_le one_pos hw
  calc lo - step w average value = (lo * w - (average * (w - 1) + value)) / w := by
        rw [step, sub_div, mul_div_cancel_right₀ lo hpos.ne']
    _ ≤ (lo * w - (average * (w - 1) + lo)) / w :=
        div_le_div_of_nonneg_right (by linarith) hpos.le
    _ = (w - 1) / w * (lo - average) := by ring

/-- **Values of at least `lo` draw the average to `lo`**, by the factor `(w - 1) / w` each. -/
theorem sub_after_le (hw : 1 ≤ w) (hv : ∀ value ∈ values, lo ≤ value) :
    lo - after w average values ≤ ((w - 1) / w) ^ values.length * (lo - average) := by
  have hratio : 0 ≤ (w - 1) / w := div_nonneg (sub_nonneg.mpr hw) (zero_le_one.trans hw)
  induction values generalizing average with
  | nil => simp
  | cons value values ih =>
    rw [List.forall_mem_cons] at hv
    calc lo - after w average (value :: values)
        ≤ ((w - 1) / w) ^ values.length * (lo - step w average value) := ih hv.2
      _ ≤ ((w - 1) / w) ^ values.length * ((w - 1) / w * (lo - average)) :=
          mul_le_mul_of_nonneg_left (sub_step_le hw hv.1) (pow_nonneg hratio _)
      _ = ((w - 1) / w) ^ (value :: values).length * (lo - average) := by
          rw [List.length_cons, pow_succ, mul_assoc]

/-- The same of values of at most `hi`. -/
theorem after_sub_le (hw : 1 ≤ w) (hv : ∀ value ∈ values, value ≤ hi) :
    after w average values - hi ≤ ((w - 1) / w) ^ values.length * (average - hi) := by
  have hneg : ∀ value ∈ values.map (- ·), -hi ≤ value := by
    intro value hmem
    obtain ⟨value, hvalue, rfl⟩ := List.mem_map.mp hmem
    exact neg_le_neg (hv value hvalue)
  have hle : -hi - after w (-average) (values.map (- ·)) ≤ _ * (-hi - -average) :=
    sub_after_le hw hneg
  rw [after_neg, List.length_map] at hle
  linarith

end RollingAverage
