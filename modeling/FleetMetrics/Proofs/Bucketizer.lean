import Mathlib
import FleetMetrics.Proofs.Exact

/-!
# Buckets partition the numbers

A distribution keeps its buckets by the lower bound alone. If two buckets with one lower bound had
different upper bounds, or if two buckets overlapped, weights would be added up that do not belong
together, and no total would show it.

The places where this could happen are the ends of a magnitude. The logarithm is rounded and can be
one off, so a number near a power of the base could be taken for one of the next magnitude; and the
last step of a magnitude is cut off, since the width of a step need not divide it. So the logarithm
is left open here: `Gauged log` are exact numbers with any function for the rounded logarithm, and
all that is assumed of it is `NearLog`, that it is at most one off. Parameters and values are
rational; what rounding does to a bound is not covered.

Main results:

* `magnitude_eq` — the correction finds the exponent, whatever way the logarithm is off.
* `bounds_logLinear` — the bounds below, above and inside the range.
* `bounds_of_mem_cell` — all numbers of a cell have its bounds.
* `bounds_partition` — what is said above, for every bucketizer that can be used.
-/

namespace FleetMetrics

/-! ## Exact numbers with a logarithm -/

/-- Rationals with an infinite number, and a rounded logarithm of one's choice. -/
def Gauged (_log : ℚ → ℚ → ℤ) : Type := Extended

/-- A rounded logarithm that is at most one off the exponent of the power at or below a number. -/
def NearLog (log : ℚ → ℚ → ℤ) : Prop :=
  ∀ base value : ℚ, ∀ m : ℤ, 1 < base → base ^ m ≤ value → value < base ^ (m + 1) →
    |log base value - m| ≤ 1

namespace Gauged

open Arithmetic

variable {log : ℚ → ℚ → ℤ}

def finite (value : ℚ) : Gauged log := Extended.finite value

def infinite : Gauged log := Extended.infinite

/-- The place in the order. -/
def place (x : Gauged log) : WithTop ℚ := Extended.place x

/-- Everything but the logarithm is exact. -/
instance : Arithmetic (Gauged log) :=
  let gauged : Arithmetic Extended :=
    { (inferInstance : Arithmetic Extended) with
      wholeLog
        | .finite base, .finite value => log base value
        | _, _ => 0 }
  gauged

@[simp] theorem place_finite (a : ℚ) : (finite a : Gauged log).place = a := rfl

@[simp] theorem place_infinite : (infinite : Gauged log).place = ⊤ := rfl

@[simp] theorem add_finite (a b : ℚ) : (finite a + finite b : Gauged log) = finite (a + b) := rfl

@[simp] theorem sub_finite (a b : ℚ) : (finite a - finite b : Gauged log) = finite (a - b) := rfl

@[simp] theorem mul_finite (a b : ℚ) : (finite a * finite b : Gauged log) = finite (a * b) := rfl

@[simp] theorem div_finite (a b : ℚ) : (finite a / finite b : Gauged log) = finite (a / b) := rfl

@[simp] theorem zero_eq : (zero : Gauged log) = finite 0 := rfl

@[simp] theorem one_eq : (one : Gauged log) = finite 1 := rfl

@[simp] theorem infinity_eq : (infinity : Gauged log) = infinite := rfl

@[simp] theorem ofInt_eq (n : Int) : (ofInt n : Gauged log) = finite n := rfl

@[simp] theorem floor_finite (a : ℚ) : floor (finite a : Gauged log) = finite ⌊a⌋ := rfl

@[simp] theorem wholeLog_finite (base value : ℚ) :
    wholeLog (finite base : Gauged log) (finite value) = log base value := rfl

@[simp] theorem isFinite_finite (a : ℚ) : isFinite (finite a : Gauged log) = true := rfl

theorem compare?_finite (a b : ℚ) :
    compare? (finite a : Gauged log) (finite b) = some (compare (a : WithTop ℚ) b) := rfl

@[simp] theorem below_finite (a b : ℚ) :
    below (finite a : Gauged log) (finite b) = true ↔ a < b := by
  simp [below, compare?_finite, compare_lt_iff_lt]

@[simp] theorem atMost_finite (a b : ℚ) :
    atMost (finite a : Gauged log) (finite b) = true ↔ a ≤ b := by
  rw [atMost, compare?_finite, ← WithTop.coe_le_coe, ← compare_le_iff_le]
  cases compare (a : WithTop ℚ) b <;> simp

@[simp] theorem least_finite (a b : ℚ) :
    least (finite a : Gauged log) (finite b) = finite (min a b) := by
  rw [least, compare?_finite]
  rcases lt_or_ge b a with h | h
  · rw [compare_gt_iff_gt.mpr (WithTop.coe_lt_coe.mpr h), min_eq_right h.le]
  · rw [min_eq_left h]
    have hOrder : compare (a : WithTop ℚ) b ≠ .gt :=
      compare_le_iff_le.mpr (WithTop.coe_le_coe.mpr h)
    split
    · next hGt => exact absurd (Option.some.inj hGt) hOrder
    · rfl
    · next hNone => cases hNone

/-- Repeated squaring keeps `acc * b ^ n`, if there are steps enough for the digits of `n`. -/
theorem squarings_finite (acc b : ℚ) (n steps : Nat) (enough : n < 2 ^ steps) :
    squarings (finite acc : Gauged log) (finite b) n steps = finite (acc * b ^ n) := by
  induction steps generalizing acc b n with
  | zero =>
    obtain rfl : n = 0 := by simpa using enough
    rw [squarings, pow_zero, mul_one]
  | succ steps ih =>
    -- one digit of `n` goes into `acc`; the others are left for the square of `b`
    have hDigit : (if n % 2 = 1 then finite acc * finite b else finite acc : Gauged log) =
        finite (acc * b ^ (n % 2)) := by
      rcases Nat.mod_two_eq_zero_or_one n with h | h <;> simp [h]
    have hPower : acc * b ^ n = acc * b ^ (n % 2) * (b * b) ^ (n / 2) := by
      rw [← pow_two, ← pow_mul, mul_assoc, ← pow_add, Nat.mod_add_div]
    rw [squarings, hDigit, hPower]
    split
    · next hLast => rw [hLast, pow_zero, mul_one]
    · rw [mul_finite, ih _ _ _ (by rw [pow_succ] at enough; omega)]

@[simp] theorem power_finite (b : ℚ) (e : ℤ) :
    power (finite b : Gauged log) e = finite (b ^ e) := by
  have hSquarings : squarings (one : Gauged log) (finite b) e.natAbs (e.natAbs.log2 + 1) =
      finite (b ^ e.natAbs) := by
    rw [one_eq, squarings_finite _ _ _ _ Nat.lt_log2_self, one_mul]
  rw [power]
  simp only [hSquarings]
  split
  · next hNegative =>
    -- the reciprocal of a power is the power with the exponent turned round
    rw [one_eq, div_finite, one_div, ← zpow_natCast, ← zpow_neg]
    congr 2
    omega
  · next hPositive =>
    rw [← zpow_natCast]
    congr 2
    omega

end Gauged

/-! ## Exponents -/

/-- A number has one exponent. -/
theorem exponent_unique {base value : ℚ} (hBase : 1 < base) {m n : ℤ} (hm : base ^ m ≤ value)
    (hm' : value < base ^ (m + 1)) (hn : base ^ n ≤ value) (hn' : value < base ^ (n + 1)) :
    m = n := by
  have hLower : m < n + 1 := (zpow_lt_zpow_iff_right₀ hBase).mp (hm.trans_lt hn')
  have hUpper : n < m + 1 := (zpow_lt_zpow_iff_right₀ hBase).mp (hn.trans_lt hm')
  omega

namespace Bucketizer

open Arithmetic Gauged

variable {log : ℚ → ℚ → ℤ} (near : NearLog log)

include near in
/-- **The correction finds the exponent**, whatever way the logarithm is off. -/
theorem magnitude_eq {base value : ℚ} (hBase : 1 < base) {m : ℤ} (lower : base ^ m ≤ value)
    (upper : value < base ^ (m + 1)) :
    magnitude (finite base : Gauged log) (finite value) = m := by
  -- one correction is made at most, so one that is two off would stay wrong
  have hNear := abs_le.mp (near base value m hBase lower upper)
  obtain h | h | h : log base value = m - 1 ∨ log base value = m ∨ log base value = m + 1 := by
    omega
  all_goals simp only [magnitude, wholeLog_finite, power_finite, below_finite, atMost_finite, h]
  · -- one too low: the next power is not above the number either
    have hPower : base ^ (m - 1) ≤ base ^ m := zpow_le_zpow_right₀ hBase.le (by omega)
    rw [if_neg (not_lt.mpr (hPower.trans lower)), sub_add_cancel, if_pos lower]
  · -- neither test asks for a correction
    rw [if_neg (not_lt.mpr lower), if_neg (not_le.mpr upper)]
  · -- one too high: the power is above the number, so the second test is not reached
    rw [if_pos upper, add_sub_cancel_right]

/-! ## Steps of one width -/

/-- The lower end of the step of a width, counted from `lower`, that holds a number. -/
def stepAt (lower width value : ℚ) : ℚ :=
  lower + ⌊(value - lower) / width⌋ * width

section Step

variable {lower width value other : ℚ} (pos : 0 < width)

include pos

/-- A step starts at the value or below it. -/
theorem stepAt_le : stepAt lower width value ≤ value := by
  have hFloor := (le_div_iff₀ pos).mp (Int.floor_le ((value - lower) / width))
  rw [stepAt]
  linarith

/-- The value lies before the next step. -/
theorem lt_stepAt_add : value < stepAt lower width value + width := by
  have hFloor := (div_lt_iff₀ pos).mp (Int.lt_floor_add_one ((value - lower) / width))
  rw [stepAt]
  linarith

/-- A step that holds a number above `lower` does not begin below. -/
theorem le_stepAt (above : lower ≤ value) : lower ≤ stepAt lower width value := by
  have hFloor : 0 ≤ ⌊(value - lower) / width⌋ :=
    Int.floor_nonneg.mpr (div_nonneg (sub_nonneg.mpr above) pos.le)
  have hSteps : (0 : ℚ) ≤ ⌊(value - lower) / width⌋ * width :=
    mul_nonneg (by exact_mod_cast hFloor) pos.le
  rw [stepAt]
  linarith

/-- All numbers of a step are held by that step. -/
theorem stepAt_eq (hLower : stepAt lower width value ≤ other)
    (hUpper : other < stepAt lower width value + width) :
    stepAt lower width other = stepAt lower width value := by
  have hFloor : ⌊(other - lower) / width⌋ = ⌊(value - lower) / width⌋ := by
    rw [stepAt] at hLower hUpper
    rw [Int.floor_eq_iff, le_div_iff₀ pos, div_lt_iff₀ pos]
    constructor <;> linarith
  rw [stepAt, stepAt, hFloor]

end Step

/-! ## Bounds -/

/-- A bucketizer with rational parameters, read with exact numbers. -/
def gauged (log : ℚ → ℚ → ℤ) : Bucketizer ℚ → Bucketizer (Gauged log)
  | .linear step => .linear (finite step)
  | .logLinear base minExp maxExp steps => .logLinear (finite base) minExp maxExp steps

/-- The numbers that a bucketizer is made for. -/
def Handles : Bucketizer ℚ → ℚ → Prop
  | .linear _, _ => True
  | .logLinear .., value => 0 ≤ value

/-- The numbers between two bounds, without the upper one. -/
def cell (bounds : Gauged log × Gauged log) : Set ℚ :=
  { x | bounds.1.place ≤ x ∧ x < bounds.2.place }

/-- A bucket holds its lower bound and not its upper one. -/
theorem mem_cell_finite {low high x : ℚ} :
    x ∈ cell ((finite low, finite high) : Gauged log × Gauged log) ↔ low ≤ x ∧ x < high := by
  simp [cell]

/-- A cell without an upper end. -/
theorem mem_cell_infinite {low x : ℚ} :
    x ∈ cell ((finite low, infinite) : Gauged log × Gauged log) ↔ low ≤ x := by
  simp [cell]

/-- With a linear bucketizer a value falls into the step that it lies in, counted from zero. -/
theorem bounds_linear (step value : ℚ) :
    (gauged log (.linear step)).bounds (finite value) =
      (finite (stepAt 0 step value), finite (stepAt 0 step value + step)) := by
  simp [gauged, bounds, stepAt]

section LogLinear

variable {base : ℚ} {minExp maxExp : ℤ} {steps : ℕ} {value : ℚ}

/-- The steps of a magnitude have a width, which is what makes them different buckets. -/
theorem width_pos (hBase : 1 < base) (hSteps : 0 < steps) (m : ℤ) : 0 < base ^ (m + 1) / steps :=
  div_pos (zpow_pos (zero_lt_one.trans hBase) _) (by exact_mod_cast hSteps)

/-- Everything before the first magnitude shares the bucket that starts at zero. -/
theorem bounds_below (below : value < base ^ minExp) :
    (gauged log (.logLinear base minExp maxExp steps)).bounds (finite value) =
      (finite 0, finite (base ^ minExp)) := by
  simp [gauged, bounds, below]

/-- Everything behind the last magnitude shares a bucket without an upper bound. -/
theorem bounds_above (within : base ^ minExp ≤ value) (above : base ^ maxExp ≤ value) :
    (gauged log (.logLinear base minExp maxExp steps)).bounds (finite value) =
      (finite (base ^ maxExp), infinite) := by
  simp [gauged, bounds, above, within.not_gt]

include near in
/-- Inside the range, the bounds are those of a step of the magnitude, cut off at its end. -/
theorem bounds_inside (hBase : 1 < base) (hSteps : 0 < steps) (notBelow : base ^ minExp ≤ value)
    (notAbove : value < base ^ maxExp) {m : ℤ} (lower : base ^ m ≤ value)
    (upper : value < base ^ (m + 1)) :
    let low := stepAt (base ^ m) (base ^ (m + 1) / steps) value
    (gauged log (.logLinear base minExp maxExp steps)).bounds (finite value) =
      (finite low, finite (min (low + base ^ (m + 1) / steps) (base ^ (m + 1)))) := by
  have hMax : Nat.max steps 1 = steps := Nat.max_eq_left hSteps
  simp [gauged, bounds, notBelow.not_gt, notAbove.not_ge, magnitude_eq near hBase lower upper,
    hMax, stepFrom, stepAt]

include near in
/-- **The bounds of a log-linear bucketizer**, below, above and inside the range. -/
theorem bounds_logLinear (hBase : 1 < base) (hSteps : 0 < steps) :
    let b := gauged log (.logLinear base minExp maxExp steps)
    (value < base ^ minExp ∧ b.bounds (finite value) = (finite 0, finite (base ^ minExp))) ∨
      (base ^ maxExp ≤ value ∧ b.bounds (finite value) = (finite (base ^ maxExp), infinite)) ∨
      ∃ m, minExp ≤ m ∧ m < maxExp ∧ base ^ m ≤ value ∧ value < base ^ (m + 1) ∧
        let low := stepAt (base ^ m) (base ^ (m + 1) / steps) value
        b.bounds (finite value) =
          (finite low, finite (min (low + base ^ (m + 1) / steps) (base ^ (m + 1)))) := by
  intro b
  rcases lt_or_ge value (base ^ minExp) with hBelow | hNotBelow
  · exact .inl ⟨hBelow, bounds_below hBelow⟩
  rcases le_or_gt (base ^ maxExp) value with hAbove | hNotAbove
  · exact .inr (.inl ⟨hAbove, bounds_above hNotBelow hAbove⟩)
  -- a number inside the range is positive, so it has an exponent, which is inside too
  have hPos : 0 < value := (zpow_pos (zero_lt_one.trans hBase) minExp).trans_le hNotBelow
  obtain ⟨m, hLower, hUpper⟩ := exists_mem_Ico_zpow hPos hBase
  have hMin : minExp < m + 1 := (zpow_lt_zpow_iff_right₀ hBase).mp (hNotBelow.trans_lt hUpper)
  have hMax : m < maxExp := (zpow_lt_zpow_iff_right₀ hBase).mp (hLower.trans_lt hNotAbove)
  exact .inr (.inr ⟨m, by omega, hMax, hLower, hUpper,
    bounds_inside near hBase hSteps hNotBelow hNotAbove hLower hUpper⟩)

end LogLinear

/-- A linear bucketizer is accepted if its steps have a width. -/
theorem valid_linear {step : ℚ} : (gauged log (.linear step)).isValid = true ↔ 0 < step := by
  simp [gauged, isValid]

/-- A logarithmic bucketizer is accepted if its base makes magnitudes grow, there is a magnitude at
all, and it has steps. -/
theorem valid_logLinear {base : ℚ} {minExp maxExp : ℤ} {steps : ℕ} :
    (gauged log (.logLinear base minExp maxExp steps)).isValid = true ↔
      1 < base ∧ minExp < maxExp ∧ 0 < steps := by
  simp [gauged, isValid, and_assoc]

/-! ## Cells -/

section Cells

variable {b : Bucketizer ℚ} (valid : (b.gauged log).isValid = true) {value other : ℚ}

include near valid

/-- A number lies within its bounds. -/
theorem mem_cell (handled : b.Handles value) :
    value ∈ cell ((b.gauged log).bounds (finite value)) := by
  cases b with
  | linear step =>
    have hStep := valid_linear.mp valid
    rw [bounds_linear, mem_cell_finite]
    exact ⟨stepAt_le hStep, lt_stepAt_add hStep⟩
  | logLinear base minExp maxExp steps =>
    obtain ⟨hBase, hRange, hSteps⟩ := valid_logLinear.mp valid
    obtain ⟨hBelow, hBounds⟩ | ⟨hAbove, hBounds⟩ | ⟨m, -, -, hLower, hUpper, hBounds⟩ :=
      bounds_logLinear near hBase hSteps
    · rw [hBounds, mem_cell_finite]
      exact ⟨handled, hBelow⟩
    · rw [hBounds, mem_cell_infinite]
      exact hAbove
    · have hWidth := width_pos hBase hSteps m
      rw [hBounds, mem_cell_finite]
      exact ⟨stepAt_le hWidth, lt_min (lt_stepAt_add hWidth) hUpper⟩

/-- **All numbers of a cell have its bounds.** -/
theorem bounds_of_mem_cell (handled : b.Handles value)
    (mem : other ∈ cell ((b.gauged log).bounds (finite value))) :
    (b.gauged log).bounds (finite other) = (b.gauged log).bounds (finite value) := by
  cases b with
  | linear step =>
    have hStep := valid_linear.mp valid
    rw [bounds_linear, mem_cell_finite] at mem
    rw [bounds_linear, bounds_linear, stepAt_eq hStep mem.1 mem.2]
  | logLinear base minExp maxExp steps =>
    obtain ⟨hBase, hRange, hSteps⟩ := valid_logLinear.mp valid
    have hPower : ∀ {m n : ℤ}, m ≤ n → base ^ m ≤ base ^ n := fun h =>
      zpow_le_zpow_right₀ hBase.le h
    obtain ⟨-, hBounds⟩ | ⟨-, hBounds⟩ | ⟨m, hMin, hMax, hLower, -, hBounds⟩ :=
      bounds_logLinear near hBase hSteps
    · rw [hBounds, mem_cell_finite] at mem
      rw [hBounds, bounds_below mem.2]
    · -- the range is not empty, so what is above it is not below it
      rw [hBounds, mem_cell_infinite] at mem
      rw [hBounds, bounds_above ((hPower hRange.le).trans mem) mem]
    · have hWidth := width_pos hBase hSteps m
      rw [hBounds, mem_cell_finite, lt_min_iff] at mem
      obtain ⟨hBegin, hStep, hEnd⟩ := mem
      -- a cell does not leave its magnitude, nor the magnitude the range
      have hFrom : base ^ m ≤ other := (le_stepAt hWidth hLower).trans hBegin
      have hNotBelow : base ^ minExp ≤ other := (hPower hMin).trans hFrom
      have hNotAbove : other < base ^ maxExp := hEnd.trans_le (hPower hMax)
      rw [hBounds, bounds_inside near hBase hSteps hNotBelow hNotAbove hFrom hEnd,
        stepAt_eq hWidth hBegin hStep]

/-- Cells that meet have the same bounds. -/
theorem bounds_eq_or_disjoint (hValue : b.Handles value) (hOther : b.Handles other) :
    (b.gauged log).bounds (finite value) = (b.gauged log).bounds (finite other) ∨
      Disjoint (cell ((b.gauged log).bounds (finite value)))
        (cell ((b.gauged log).bounds (finite other))) := by
  rw [or_iff_not_imp_right, Set.not_disjoint_iff]
  rintro ⟨x, hx, hx'⟩
  rw [← bounds_of_mem_cell near valid hValue hx, ← bounds_of_mem_cell near valid hOther hx']

/-- The lower bound determines the upper one: of two numbers with one lower bound, the smaller lies
in the cell of the other. -/
theorem bounds_eq_of_min_eq (hValue : b.Handles value) (hOther : b.Handles other)
    (same : ((b.gauged log).bounds (finite value)).1 = ((b.gauged log).bounds (finite other)).1) :
    (b.gauged log).bounds (finite value) = (b.gauged log).bounds (finite other) := by
  have hCell := mem_cell near valid hValue
  have hCell' := mem_cell near valid hOther
  rcases le_total value other with h | h
  · exact bounds_of_mem_cell near valid hOther
      ⟨same ▸ hCell.1, (WithTop.coe_le_coe.mpr h).trans_lt hCell'.2⟩
  · exact (bounds_of_mem_cell near valid hValue
      ⟨same ▸ hCell'.1, (WithTop.coe_le_coe.mpr h).trans_lt hCell.2⟩).symm

end Cells

/-- **Buckets partition the numbers.** With exact numbers and a logarithm that is at most one off,
every number lies in its bucket, two buckets are the same or have nothing in common, and the lower
bound determines the bucket. A log-linear bucketizer has one bucket below its range and one above
it, and every other bucket lies inside one magnitude. -/
theorem bounds_partition {log : ℚ → ℚ → ℤ} (near : NearLog log) {b : Bucketizer ℚ}
    (valid : (b.gauged log).isValid = true) :
    (∀ value, b.Handles value → value ∈ cell ((b.gauged log).bounds (finite value))) ∧
    (∀ value other, b.Handles value → b.Handles other →
      (b.gauged log).bounds (finite value) = (b.gauged log).bounds (finite other) ∨
        Disjoint (cell ((b.gauged log).bounds (finite value)))
          (cell ((b.gauged log).bounds (finite other)))) ∧
    (∀ value other, b.Handles value → b.Handles other →
      ((b.gauged log).bounds (finite value)).1 = ((b.gauged log).bounds (finite other)).1 →
        (b.gauged log).bounds (finite value) = (b.gauged log).bounds (finite other)) ∧
    ∀ (base : ℚ) (minExp maxExp : ℤ) (steps : ℕ), b = .logLinear base minExp maxExp steps →
      ∀ value, 0 ≤ value →
        (value < base ^ minExp ∧
          (b.gauged log).bounds (finite value) = (finite 0, finite (base ^ minExp))) ∨
        (base ^ maxExp ≤ value ∧
          (b.gauged log).bounds (finite value) = (finite (base ^ maxExp), infinite)) ∨
        ∃ (m : ℤ) (low high : ℚ), minExp ≤ m ∧ m < maxExp ∧
          (b.gauged log).bounds (finite value) = (finite low, finite high) ∧
          base ^ m ≤ low ∧ low < high ∧ high ≤ base ^ (m + 1) := by
  refine ⟨fun _ => mem_cell near valid, fun _ _ => bounds_eq_or_disjoint near valid,
    fun _ _ => bounds_eq_of_min_eq near valid, ?_⟩
  -- what a log-linear bucketizer adds: no bucket of the range leaves its magnitude
  rintro base minExp maxExp steps rfl value -
  obtain ⟨hBase, -, hSteps⟩ := valid_logLinear.mp valid
  obtain hBelow | hAbove | ⟨m, hMin, hMax, hLower, hUpper, hBounds⟩ :=
    bounds_logLinear near hBase hSteps
  · exact .inl hBelow
  · exact .inr (.inl hAbove)
  · have hWidth := width_pos hBase hSteps m
    refine .inr (.inr ⟨m, _, _, hMin, hMax, hBounds, le_stepAt hWidth hLower, ?_,
      min_le_right _ _⟩)
    exact (stepAt_le hWidth).trans_lt (lt_min (lt_stepAt_add hWidth) hUpper)

/-! ## A logarithm that is off everywhere -/

open Classical in
/-- The exponent of a number and one more. -/
noncomputable def lateLog (base value : ℚ) : ℤ :=
  if exponent : ∃ m : ℤ, base ^ m ≤ value ∧ value < base ^ (m + 1) then exponent.choose + 1 else 0

/-- The late logarithm is one more than the true exponent, for every value. -/
theorem lateLog_eq {base value : ℚ} {m : ℤ} (hBase : 1 < base) (lower : base ^ m ≤ value)
    (upper : value < base ^ (m + 1)) : lateLog base value = m + 1 := by
  have hExponent : ∃ m : ℤ, base ^ m ≤ value ∧ value < base ^ (m + 1) := ⟨m, lower, upper⟩
  rw [lateLog, dif_pos hExponent, exponent_unique hBase hExponent.choose_spec.1
    hExponent.choose_spec.2 lower upper]

/-- The late logarithm is off as far as is allowed, so nothing that follows rests on a logarithm
that is exact. -/
theorem nearLog_lateLog : NearLog lateLog := by
  intro base value m hBase lower upper
  rw [lateLog_eq hBase lower upper, add_sub_cancel_left, abs_one]

/-- Five steps in each magnitude, whose width of twenty does not divide the ninety between ten and a
hundred. The last step is cut off, also if the logarithm is one too high everywhere. -/
theorem bounds_partition_brief :
    let b : Bucketizer ℚ := .logLinear 10 0 3 5
    let buckets := b.gauged lateLog
    NearLog lateLog ∧ buckets.isValid = true ∧ lateLog 10 95 = 2 ∧
      buckets.bounds (finite 95) = (finite 90, finite 100) ∧
      95 ∈ cell (buckets.bounds (finite 95)) ∧
      buckets.bounds (finite 90) = buckets.bounds (finite 95) ∧
      Disjoint (cell (buckets.bounds (finite 95))) (cell (buckets.bounds (finite 5))) := by
  intro b buckets
  have hValid : buckets.isValid = true := valid_logLinear.mpr (by norm_num)
  obtain ⟨hHolds, hApart, hKeyed, -⟩ := bounds_partition nearLog_lateLog (b := b) hValid
  have hHandles : b.Handles 95 ∧ b.Handles 90 ∧ b.Handles 5 := by
    refine ⟨?_, ?_, ?_⟩ <;> norm_num [b, Handles]
  have hLast : ∀ value : ℚ, 90 ≤ value → value < 100 →
      buckets.bounds (finite value) = (finite 90, finite 100) := by
    intro value hLower hUpper
    have hFloor : ⌊(value - 10) / 20⌋ = 4 := by
      rw [Int.floor_eq_iff]
      constructor <;> push_cast <;> linarith
    refine (bounds_inside nearLog_lateLog (m := 1) ?_ ?_ ?_ ?_ ?_ ?_).trans ?_
    all_goals norm_num [stepAt, hFloor]
    all_goals linarith
  have hNinety : buckets.bounds (finite 90) = buckets.bounds (finite 95) :=
    hKeyed 90 95 hHandles.2.1 hHandles.1 (by
      rw [hLast 90 (by norm_num) (by norm_num), hLast 95 (by norm_num) (by norm_num)])
  refine ⟨nearLog_lateLog, hValid, ?_, hLast 95 (by norm_num) (by norm_num),
    hHolds 95 hHandles.1, hNinety, ?_⟩
  · exact lateLog_eq (m := 1) (by norm_num) (by norm_num) (by norm_num)
  · -- five lies in its own cell, and not in that of the last step
    refine (hApart 95 5 hHandles.1 hHandles.2.2).resolve_left fun same => ?_
    have hFive := hHolds 5 hHandles.2.2
    rw [← same, hLast 95 (by norm_num) (by norm_num), mem_cell_finite] at hFive
    norm_num at hFive

end Bucketizer

end FleetMetrics
