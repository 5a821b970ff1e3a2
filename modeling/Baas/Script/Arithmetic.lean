import Baas.Lib.SquareMultiply
import Baas.Script.HeapData
import Mathlib.Algebra.Field.Rat
import Mathlib.Tactic.Linarith
import Mathlib.Tactic.NormNum

/-! Arithmetic of the synchronous evaluator on two numbers. -/
namespace Baas.Evaluator

open Baas.Script (Value LanguageErrorCode)
open SquareMultiply

structure EvaluationFailure where
  code : LanguageErrorCode
  message : String
deriving DecidableEq

inductive BinaryOperator
  | or | and | equal | notEqual | is | notIs | less | lessEqual | greater | greaterEqual
  | isIn | notIn | add | subtract | multiply | divide | floorDivide | modulo | power
deriving DecidableEq

/-- The operations of binary64 on bit patterns. -/
structure FloatOperations where
  ofInteger : Int64 → UInt64
  add : UInt64 → UInt64 → UInt64
  subtract : UInt64 → UInt64 → UInt64
  multiply : UInt64 → UInt64 → UInt64
  divide : UInt64 → UInt64 → UInt64
  power : UInt64 → UInt64 → UInt64
  floor : UInt64 → UInt64
  negate : UInt64 → UInt64
  isZero : UInt64 → Bool

def checkedAdd (left right : Int64) : Option Int64 :=
  if (right > 0 ∧ left > Int64.maxValue - right) ∨
      (right < 0 ∧ left < Int64.minValue - right) then none
  else some (left + right)

def checkedSubtract (left right : Int64) : Option Int64 :=
  if (right > 0 ∧ left < Int64.minValue + right) ∨
      (right < 0 ∧ left > Int64.maxValue + right) then none
  else some (left - right)

def checkedMultiply (left right : Int64) : Option Int64 :=
  if left > 0 then
    if (right > 0 ∧ left > Int64.maxValue / right) ∨
        (right < 0 ∧ right < Int64.minValue / left) then none
    else some (left * right)
  else if left < 0 then
    if (right > 0 ∧ left < Int64.minValue / right) ∨
        (right < 0 ∧ right < Int64.maxValue / left) then none
    else some (left * right)
  else some (left * right)

def failEvaluation {α : Type} (code : LanguageErrorCode) (message : String) :
    Except EvaluationFailure α :=
  .error ⟨code, message⟩

/-- The result of a checked operation. -/
def orOverflow (message : String) : Option Int64 → Except EvaluationFailure Value
  | some result => .ok (.integer result.toInt)
  | none => failEvaluation .numericOverflow message

/-- The power after a digit of the exponent. -/
def powerDigit (power base : Int64) (exponent : Nat) : Option Int64 :=
  if exponent % 2 = 1 then checkedMultiply power base else some power

/-- The loop of `**`. -/
def powerLoop (power base : Int64) (exponent : Nat) : Option Int64 :=
  if exponent = 0 then some power
  else
    (powerDigit power base exponent).bind fun power =>
      if exponent / 2 = 0 then some power
      else (checkedMultiply base base).bind fun base => powerLoop power base (exponent / 2)
termination_by exponent

/-- Floor division and modulo of numbers that are no exception. -/
def floorPair (a b : Int64) : Int64 × Int64 :=
  let quotient := a / b
  let remainder := a % b
  if remainder ≠ 0 ∧ (decide (remainder < 0) ≠ decide (b < 0)) then (quotient - 1, remainder + b)
  else (quotient, remainder)

/-- Both operands are integers and the operation is not `/`. -/
def integerArithmetic (f : FloatOperations) (operation : BinaryOperator) (a b : Int64) :
    Option (Except EvaluationFailure Value) :=
  match operation with
  | .add => some (orOverflow "integer addition overflow" (checkedAdd a b))
  | .subtract => some (orOverflow "integer subtraction overflow" (checkedSubtract a b))
  | .multiply => some (orOverflow "integer multiplication overflow" (checkedMultiply a b))
  | .floorDivide =>
    if b = 0 then some (failEvaluation .divisionByZero "integer division by zero")
    else if a = Int64.minValue ∧ b = -1 then
      some (failEvaluation .numericOverflow "integer floor division overflow")
    else some (.ok (.integer (floorPair a b).1.toInt))
  | .modulo =>
    if b = 0 then some (failEvaluation .divisionByZero "integer division by zero")
    else if a = Int64.minValue ∧ b = -1 then some (.ok (.integer 0))
    else some (.ok (.integer (floorPair a b).2.toInt))
  | .power =>
    if b < 0 then some (.ok (.float (f.power (f.ofInteger a) (f.ofInteger b))))
    else some (orOverflow "integer power overflow" (powerLoop 1 a b.toInt.toNat))
  | _ => none

def floatArithmetic (f : FloatOperations) (operation : BinaryOperator) (a b : UInt64) :
    Except EvaluationFailure Value :=
  match operation with
  | .add => .ok (.float (f.add a b))
  | .subtract => .ok (.float (f.subtract a b))
  | .multiply => .ok (.float (f.multiply a b))
  | .divide =>
    if f.isZero b then failEvaluation .divisionByZero "float division by zero"
    else .ok (.float (f.divide a b))
  | .floorDivide =>
    if f.isZero b then failEvaluation .divisionByZero "float division by zero"
    else .ok (.float (f.floor (f.divide a b)))
  | .modulo =>
    if f.isZero b then failEvaluation .divisionByZero "float modulo by zero"
    else .ok (.float (f.subtract a (f.multiply (f.floor (f.divide a b)) b)))
  | .power => .ok (.float (f.power a b))
  | _ => failEvaluation .internalInvariant "invalid arithmetic operator"

/-- A numeric operand as a float. -/
def toFloat (f : FloatOperations) : Value → Option UInt64
  | .integer z => some (f.ofInteger (Int64.ofInt z))
  | .float bits => some bits
  | _ => none

/-- What follows the concatenations of two strings and of two lists. -/
def applyArithmetic (f : FloatOperations) (operation : BinaryOperator) (left right : Value) :
    Except EvaluationFailure Value :=
  match toFloat f left, toFloat f right with
  | some a, some b =>
    match left, right with
    | .integer x, .integer y =>
      (integerArithmetic f operation (Int64.ofInt x) (Int64.ofInt y)).getD
        (floatArithmetic f operation a b)
    | _, _ => floatArithmetic f operation a b
  | _, _ => failEvaluation .typeMismatch "arithmetic operands must be numeric"

/-- Unary minus. -/
def applyNegation (f : FloatOperations) : Value → Except EvaluationFailure Value
  | .float bits => .ok (.float (f.negate bits))
  | .integer z =>
    if Int64.ofInt z = Int64.minValue then
      failEvaluation .numericOverflow "integer negation overflow"
    else .ok (.integer (-Int64.ofInt z).toInt)
  | _ => failEvaluation .typeMismatch "unary numeric operand required"

/-- A checked operation has the exact result when that fits. -/
def Checked (outcome : Option Int64) (exact : ℤ) : Prop :=
  outcome.map Int64.toInt = if Fits (2 ^ 63) exact then some exact else none

theorem toInt_fits (a : Int64) : Fits (2 ^ 63) a.toInt := ⟨a.le_toInt, a.toInt_lt⟩

theorem bmod_of_fits {z : ℤ} (fits : Fits (2 ^ 63) z) : z.bmod (2 ^ 64) = z := by
  obtain ⟨low, high⟩ := fits
  exact Int.bmod_eq_of_le (by omega) (by omega)

@[simp] theorem maxValue_toInt : Int64.maxValue.toInt = 2 ^ 63 - 1 := rfl

@[simp] theorem minValue_toInt : Int64.minValue.toInt = -2 ^ 63 := rfl

/-- A guarded operation is checked when its guard holds of the results that do not fit. -/
theorem checked_of_guard {p : Prop} [Decidable p] {result : Int64} {exact : ℤ}
    (guard : p ↔ ¬ Fits (2 ^ 63) exact)
    (value : Fits (2 ^ 63) exact → result.toInt = exact) :
    Checked (if p then none else some result) exact := by
  unfold Checked
  by_cases fits : Fits (2 ^ 63) exact
  · rw [if_neg (fun holds => guard.mp holds fits), if_pos fits, Option.map_some, value fits]
  · rw [if_pos (guard.mpr fits), if_neg fits, Option.map_none]

theorem checkedAdd_exact (a b : Int64) : Checked (checkedAdd a b) (a.toInt + b.toInt) := by
  have ⟨lowA, highA⟩ := toInt_fits a
  have ⟨lowB, highB⟩ := toInt_fits b
  refine checked_of_guard ?_ fun fits => by rw [Int64.toInt_add, bmod_of_fits fits]
  have upper (positive : 0 < b.toInt) :
      (Int64.maxValue - b).toInt = 2 ^ 63 - 1 - b.toInt := by
    rw [Int64.toInt_sub, maxValue_toInt, bmod_of_fits ⟨by omega, by omega⟩]
  have lower (negative : b.toInt < 0) : (Int64.minValue - b).toInt = -2 ^ 63 - b.toInt := by
    rw [Int64.toInt_sub, minValue_toInt, bmod_of_fits ⟨by omega, by omega⟩]
  simp only [gt_iff_lt, Int64.lt_iff_toInt_lt, Int64.toInt_zero, Fits]
  obtain negative | zero | positive := lt_trichotomy b.toInt 0
  · rw [lower negative]
    omega
  · omega
  · rw [upper positive]
    omega

theorem checkedSubtract_exact (a b : Int64) :
    Checked (checkedSubtract a b) (a.toInt - b.toInt) := by
  have ⟨lowA, highA⟩ := toInt_fits a
  have ⟨lowB, highB⟩ := toInt_fits b
  refine checked_of_guard ?_ fun fits => by rw [Int64.toInt_sub, bmod_of_fits fits]
  have lower (positive : 0 < b.toInt) : (Int64.minValue + b).toInt = -2 ^ 63 + b.toInt := by
    rw [Int64.toInt_add, minValue_toInt, bmod_of_fits ⟨by omega, by omega⟩]
  have upper (negative : b.toInt < 0) :
      (Int64.maxValue + b).toInt = 2 ^ 63 - 1 + b.toInt := by
    rw [Int64.toInt_add, maxValue_toInt, bmod_of_fits ⟨by omega, by omega⟩]
  simp only [gt_iff_lt, Int64.lt_iff_toInt_lt, Int64.toInt_zero, Fits]
  obtain negative | zero | positive := lt_trichotomy b.toInt 0
  · rw [upper negative]
    omega
  · omega
  · rw [lower positive]
    omega

theorem lt_neg_div {m z k : ℤ} (positive : 0 < k) : z < -(m / k) ↔ m < -z * k := by
  rw [← Int.ediv_lt_iff_lt_mul positive, lt_neg]

theorem max_div (b : Int64) : (Int64.maxValue / b).toInt = (2 ^ 63 - 1 : ℤ).tdiv b.toInt :=
  Int64.toInt_div_of_ne_left _ _ (by decide)

theorem min_div {b : Int64} (positive : 0 < b.toInt) :
    (Int64.minValue / b).toInt = -(2 ^ 63 / b.toInt) := by
  have notMinusOne : b ≠ -1 := by
    intro eq
    rw [eq] at positive
    exact absurd positive (by decide)
  rw [Int64.toInt_div_of_ne_right _ _ notMinusOne, minValue_toInt, Int.neg_tdiv,
    Int.tdiv_eq_ediv_of_nonneg (by decide)]

theorem max_div_pos (b : Int64) : (Int64.maxValue / b).toInt = (2 ^ 63 - 1) / b.toInt := by
  rw [max_div, Int.tdiv_eq_ediv_of_nonneg (by decide)]

theorem max_div_neg (b : Int64) : (Int64.maxValue / b).toInt = -((2 ^ 63 - 1) / -b.toInt) := by
  rw [max_div, ← Int.tdiv_eq_ediv_of_nonneg (by decide), Int.tdiv_neg, neg_neg]

theorem checkedMultiply_exact (a b : Int64) :
    Checked (checkedMultiply a b) (a.toInt * b.toInt) := by
  have value : Fits (2 ^ 63) (a.toInt * b.toInt) → (a * b).toInt = a.toInt * b.toInt :=
    fun fits => by rw [Int64.toInt_mul, bmod_of_fits fits]
  unfold checkedMultiply
  simp only [gt_iff_lt, Int64.lt_iff_toInt_lt, Int64.toInt_zero]
  obtain negative | zero | positive := lt_trichotomy a.toInt 0
  · rw [if_neg (by omega), if_pos negative]
    refine checked_of_guard ?_ value
    rw [max_div_neg, lt_neg_div (by omega)]
    obtain below | none | above := lt_trichotomy b.toInt 0
    · have sign : 0 < a.toInt * b.toInt := mul_pos_of_neg_of_neg negative below
      have same : -b.toInt * -a.toInt = a.toInt * b.toInt := by ring
      rw [same, Fits]
      omega
    · simp [none, Fits]
    · have sign : a.toInt * b.toInt < 0 := mul_neg_of_neg_of_pos negative above
      have same : -a.toInt * b.toInt = -(a.toInt * b.toInt) := by ring
      rw [min_div above, lt_neg_div above, same, Fits]
      omega
  · have none : a.toInt * b.toInt = 0 := by rw [zero, zero_mul]
    rw [if_neg (by omega), if_neg (by omega)]
    have fits : Fits (2 ^ 63) (a.toInt * b.toInt) := by rw [none]; decide
    rw [Checked, Option.map_some, value fits, if_pos fits]
  · rw [if_pos positive]
    refine checked_of_guard ?_ value
    rw [min_div positive, lt_neg_div positive, max_div_pos]
    obtain below | none | above := lt_trichotomy b.toInt 0
    · have sign : a.toInt * b.toInt < 0 := mul_neg_of_pos_of_neg positive below
      have same : -b.toInt * a.toInt = -(a.toInt * b.toInt) := by ring
      rw [same, Fits]
      omega
    · simp [none, Fits]
    · have sign : 0 < a.toInt * b.toInt := mul_pos positive above
      rw [Int.ediv_lt_iff_lt_mul above, Fits]
      omega

theorem Checked.result {outcome : Option Int64} {exact : ℤ} (checked : Checked outcome exact)
    (fits : Fits (2 ^ 63) exact) : ∃ r, outcome = some r ∧ r.toInt = exact := by
  rw [Checked, if_pos fits] at checked
  exact Option.map_eq_some_iff.mp checked

theorem Checked.overflow {outcome : Option Int64} {exact : ℤ} (checked : Checked outcome exact)
    (wide : ¬ Fits (2 ^ 63) exact) : outcome = none := by
  rw [Checked, if_neg wide] at checked
  exact Option.map_eq_none_iff.mp checked

theorem powerDigit_exact (power base : Int64) (exponent : ℕ) :
    Checked (powerDigit power base exponent) (digit power.toInt base.toInt exponent) := by
  unfold powerDigit digit
  split
  · exact checkedMultiply_exact power base
  · rw [Checked, Option.map_some, if_pos (toInt_fits power)]

/-- No square is as large as the range. -/
theorem no_root (r : ℤ) : r * r ≠ 2 ^ 63 := by
  intro root
  have square : r.natAbs * r.natAbs = 2 ^ 63 := by
    rw [← Int.natAbs_mul, root]
    rfl
  obtain small | large := Nat.lt_or_ge r.natAbs 3037000500
  · have bound : r.natAbs * r.natAbs ≤ 3037000499 * 3037000499 :=
      Nat.mul_le_mul (by omega) (by omega)
    omega
  · have bound := Nat.mul_le_mul large large
    omega

theorem checked_none {exact : ℤ} (wide : ¬ Fits (2 ^ 63) exact) : Checked none exact := by
  rw [Checked, Option.map_none, if_neg wide]

theorem checked_some {r : Int64} {exact : ℤ} (value : r.toInt = exact) :
    Checked (some r) exact := by
  rw [Checked, Option.map_some, if_pos (value ▸ toInt_fits r), value]

/-- The loop reports an overflow exactly of a power that does not fit. -/
theorem powerLoop_exact (power base : Int64) (exponent : ℕ)
    (live : power.toInt = 0 → base.toInt = 0) :
    Checked (powerLoop power base exponent) (power.toInt * base.toInt ^ exponent) := by
  fun_induction powerLoop power base exponent with
  | case1 power base => exact checked_some (by rw [pow_zero, mul_one])
  | case2 power base exponent nonzero ih =>
    have digits := powerDigit_exact power base exponent
    by_cases digitFits : Fits (2 ^ 63) (digit power.toInt base.toInt exponent)
    · obtain ⟨next, found, value⟩ := digits.result digitFits
      simp only [found, Option.bind_some]
      by_cases ended : exponent / 2 = 0
      · rw [if_pos ended]
        exact checked_some (by rw [value, pow_halves, ended, pow_zero, mul_one])
      rw [if_neg ended]
      have squares := checkedMultiply_exact base base
      by_cases squareFits : Fits (2 ^ 63) (base.toInt * base.toInt)
      · obtain ⟨square, formed, squared⟩ := squares.result squareFits
        have alive : next.toInt = 0 → square.toInt = 0 := fun zero => by
          rw [squared, digit_zero live (value ▸ zero), mul_zero]
        rw [formed, Option.bind_some, pow_halves, ← value, ← squared]
        exact ih next ended square alive
      · rw [squares.overflow squareFits, Option.bind_none]
        exact checked_none fun fits =>
          squareFits (base_fits (by decide) no_root live ended fits)
    · rw [digits.overflow digitFits, Option.bind_none]
      have isOdd : exponent % 2 = 1 := by
        by_contra even
        rw [digit, if_neg even] at digitFits
        exact digitFits (toInt_fits power)
      rw [digit, if_pos isOdd] at digitFits
      exact checked_none fun fits => digitFits (digit_fits (by decide) isOdd fits)

/-- The loop reports an overflow exactly when one of its products does not fit. -/
theorem powerLoop_products (a : Int64) (exponent : ℕ) :
    powerLoop 1 a exponent = none ↔ ∃ z ∈ products 1 a.toInt exponent, ¬ Fits (2 ^ 63) z := by
  have exact := powerLoop_exact 1 a exponent fun one => absurd one (by decide)
  rw [Int64.toInt_one, one_mul] at exact
  constructor
  · intro reported
    by_contra fine
    push Not at fine
    have fits := fits_of_products (by decide) fine
    rw [one_mul] at fits
    obtain ⟨r, found, -⟩ := exact.result fits
    rw [reported] at found
    exact absurd found nofun
  · rintro ⟨z, formed, wide⟩
    refine exact.overflow fun fits => wide ?_
    exact products_fit (by decide) no_root 1 a.toInt exponent (fun one => absurd one (by decide))
      (by rwa [one_mul]) z formed

/-- Truncated division corrected by a remainder of the wrong sign is floor division. -/
theorem floor_of_trunc {a b : ℤ} (nonzero : b ≠ 0) :
    (a.fdiv b = if a.tmod b ≠ 0 ∧ (decide (a.tmod b < 0) ≠ decide (b < 0)) then a.tdiv b - 1
      else a.tdiv b) ∧
    (a.fmod b = if a.tmod b ≠ 0 ∧ (decide (a.tmod b < 0) ≠ decide (b < 0)) then a.tmod b + b
      else a.tmod b) := by
  have sum : a.tmod b + b * a.tdiv b = a := Int.tmod_add_mul_tdiv a b
  have moved : a.tmod b + b + b * (a.tdiv b - 1) = a := by linarith
  simp only [ne_eq, decide_eq_decide]
  obtain negative | positive := lt_or_gt_of_ne nonzero
  · have low := Int.lt_tmod_of_pos a (neg_pos.mpr negative)
    have high := Int.tmod_lt_of_pos a (neg_pos.mpr negative)
    rw [Int.tmod_neg] at low high
    split
    · exact (Int.fdiv_fmod_unique' negative).mpr ⟨moved, by omega, by omega⟩
    · exact (Int.fdiv_fmod_unique' negative).mpr ⟨sum, by omega, by omega⟩
  · have low := Int.lt_tmod_of_pos a positive
    have high := Int.tmod_lt_of_pos a positive
    split
    · exact (Int.fdiv_fmod_unique positive).mpr ⟨moved, by omega, by omega⟩
    · exact (Int.fdiv_fmod_unique positive).mpr ⟨sum, by omega, by omega⟩

/-- A quotient with a remainder is at most half of the number. -/
theorem quotient_half {a b : ℤ} (rest : a.tmod b ≠ 0) (nonzero : b ≠ 0) :
    (a.tdiv b).natAbs ≤ a.natAbs / 2 := by
  have two : 2 ≤ b.natAbs := by
    by_contra small
    have one : b.natAbs = 1 := by omega
    have none : (a.tmod b).natAbs = 0 := by rw [Int.natAbs_tmod, one, Nat.mod_one]
    exact rest (Int.natAbs_eq_zero.mp none)
  rw [Int.natAbs_tdiv]
  exact Nat.div_le_div_left two (by decide)

theorem floorPair_exact {a b : Int64} (nonzero : b ≠ 0)
    (plain : ¬ (a = Int64.minValue ∧ b = -1)) :
    (floorPair a b).1.toInt = a.toInt.fdiv b.toInt ∧
      (floorPair a b).2.toInt = a.toInt.fmod b.toInt := by
  have ⟨lowA, highA⟩ := toInt_fits a
  have ⟨lowB, highB⟩ := toInt_fits b
  have divisor : b.toInt ≠ 0 := fun zero => nonzero (Int64.toInt_inj.mp zero)
  have quotient : (a / b).toInt = a.toInt.tdiv b.toInt := by
    by_cases least : a = Int64.minValue
    · exact Int64.toInt_div_of_ne_right a b fun minusOne => plain ⟨least, minusOne⟩
    · exact Int64.toInt_div_of_ne_left a b least
  have remainder : (a % b).toInt = a.toInt.tmod b.toInt := Int64.toInt_mod a b
  have zeroIff : a % b ≠ 0 ↔ a.toInt.tmod b.toInt ≠ 0 := by
    rw [← remainder]
    exact not_congr Int64.toInt_inj.symm
  obtain ⟨floorDiv, floorMod⟩ := floor_of_trunc (a := a.toInt) divisor
  unfold floorPair
  simp only [zeroIff, Int64.lt_iff_toInt_lt, remainder, Int64.toInt_zero]
  split
  · next wrong =>
    rw [if_pos wrong] at floorDiv floorMod
    have half := quotient_half wrong.1 divisor
    have opposite : ¬ (a.toInt.tmod b.toInt < 0 ↔ b.toInt < 0) := by
      simpa only [ne_eq, decide_eq_decide] using wrong.2
    have size : (a.toInt.tmod b.toInt).natAbs < b.toInt.natAbs := by
      rw [Int.natAbs_tmod]
      exact Nat.mod_lt _ (by omega)
    rw [floorDiv, floorMod]
    constructor
    · rw [Int64.toInt_sub, quotient, Int64.toInt_one, bmod_of_fits ⟨by omega, by omega⟩]
    · rw [Int64.toInt_add, remainder, bmod_of_fits ⟨by omega, by omega⟩]
  · next right =>
    rw [if_neg right] at floorDiv floorMod
    exact ⟨quotient.trans floorDiv.symm, remainder.trans floorMod.symm⟩

/-- The exact result, or an overflow when it does not fit. -/
structure Answers (outcome : Except EvaluationFailure Value) (exact : ℤ) : Prop where
  result : Fits (2 ^ 63) exact → outcome = .ok (.integer exact)
  overflow : ¬ Fits (2 ^ 63) exact → ∃ message, outcome = .error ⟨.numericOverflow, message⟩

theorem Checked.answers {outcome : Option Int64} {exact : ℤ} (checked : Checked outcome exact)
    (message : String) : Answers (orOverflow message outcome) exact := by
  constructor
  · intro fits
    obtain ⟨r, found, value⟩ := checked.result fits
    rw [found, orOverflow, value]
  · intro wide
    exact ⟨message, by rw [checked.overflow wide]; rfl⟩

theorem applyArithmetic_integers (f : FloatOperations) (operation : BinaryOperator)
    (a b : Int64) :
    applyArithmetic f operation (.integer a.toInt) (.integer b.toInt) =
      (integerArithmetic f operation a b).getD
        (floatArithmetic f operation (f.ofInteger a) (f.ofInteger b)) := by
  simp only [applyArithmetic, toFloat, Int64.ofInt_toInt]

theorem only_overflow {a b : Int64} (a_least : a = Int64.minValue) (b_minusOne : b = -1) :
    a.toInt.fdiv b.toInt = 2 ^ 63 ∧ a.toInt.fmod b.toInt = 0 := by
  subst a_least b_minusOne
  decide

theorem floorDivide_answers (f : FloatOperations) {a b : Int64} (nonzero : b ≠ 0) :
    Answers (applyArithmetic f .floorDivide (.integer a.toInt) (.integer b.toInt))
      (a.toInt.fdiv b.toInt) := by
  rw [applyArithmetic_integers, integerArithmetic, if_neg nonzero]
  split
  · next both =>
    rw [(only_overflow both.1 both.2).1]
    exact ⟨fun fits => absurd fits (by decide), fun _ => ⟨_, rfl⟩⟩
  · next plain =>
    have exact := (floorPair_exact nonzero plain).1
    have fits : Fits (2 ^ 63) (a.toInt.fdiv b.toInt) := exact ▸ toInt_fits _
    exact ⟨fun _ => by rw [exact, Option.getD_some], fun wide => absurd fits wide⟩

theorem modulo_answers (f : FloatOperations) {a b : Int64} (nonzero : b ≠ 0) :
    Answers (applyArithmetic f .modulo (.integer a.toInt) (.integer b.toInt))
      (a.toInt.fmod b.toInt) := by
  rw [applyArithmetic_integers, integerArithmetic, if_neg nonzero]
  split
  · next both =>
    rw [(only_overflow both.1 both.2).2]
    exact ⟨fun _ => rfl, fun wide => absurd (by decide) wide⟩
  · next plain =>
    have exact := (floorPair_exact nonzero plain).2
    have fits : Fits (2 ^ 63) (a.toInt.fmod b.toInt) := exact ▸ toInt_fits _
    exact ⟨fun _ => by rw [exact, Option.getD_some], fun wide => absurd fits wide⟩

theorem power_answers (f : FloatOperations) {a b : Int64} (natural : 0 ≤ b.toInt) :
    Answers (applyArithmetic f .power (.integer a.toInt) (.integer b.toInt))
      (a.toInt ^ b.toInt.toNat) := by
  have whole : ¬ b < 0 := by
    rw [Int64.lt_iff_toInt_lt, Int64.toInt_zero]
    omega
  have exact := powerLoop_exact 1 a b.toInt.toNat fun one => absurd one (by decide)
  rw [Int64.toInt_one, one_mul] at exact
  rw [applyArithmetic_integers, integerArithmetic, if_neg whole, Option.getD_some]
  exact exact.answers _

theorem negation_answers (f : FloatOperations) (a : Int64) :
    Answers (applyNegation f (.integer a.toInt)) (-a.toInt) := by
  have ⟨low, high⟩ := toInt_fits a
  rw [applyNegation, Int64.ofInt_toInt]
  split
  · next least =>
    rw [least]
    exact ⟨fun fits => absurd fits (by decide), fun _ => ⟨_, rfl⟩⟩
  · next other =>
    have above : a.toInt ≠ -2 ^ 63 := fun eq => other (Int64.toInt_inj.mp eq)
    have fits : Fits (2 ^ 63) (-a.toInt) := ⟨by omega, by omega⟩
    refine ⟨fun _ => ?_, fun wide => absurd fits wide⟩
    rw [Int64.toInt_neg, bmod_of_fits fits]

/-- Integer arithmetic is exact wherever the result fits, and reports an overflow elsewhere;
a power with a negative exponent is a float. -/
theorem integer_arithmetic_exact (f : FloatOperations) (a b : Int64) :
    let run operation := applyArithmetic f operation (.integer a.toInt) (.integer b.toInt)
    Answers (run .add) (a.toInt + b.toInt) ∧
    Answers (run .subtract) (a.toInt - b.toInt) ∧
    Answers (run .multiply) (a.toInt * b.toInt) ∧
    Answers (applyNegation f (.integer a.toInt)) (-a.toInt) ∧
    (b.toInt = 0 →
      (∃ message, run .floorDivide = .error ⟨.divisionByZero, message⟩) ∧
      ∃ message, run .modulo = .error ⟨.divisionByZero, message⟩) ∧
    (b.toInt ≠ 0 →
      Answers (run .floorDivide) (a.toInt.fdiv b.toInt) ∧
      Answers (run .modulo) (a.toInt.fmod b.toInt) ∧
      a.toInt = a.toInt.fdiv b.toInt * b.toInt + a.toInt.fmod b.toInt ∧
      (0 < b.toInt → 0 ≤ a.toInt.fmod b.toInt ∧ a.toInt.fmod b.toInt < b.toInt) ∧
      (b.toInt < 0 → b.toInt < a.toInt.fmod b.toInt ∧ a.toInt.fmod b.toInt ≤ 0)) ∧
    (0 ≤ b.toInt →
      Answers (run .power) (a.toInt ^ b.toInt.toNat) ∧
      (Fits (2 ^ 63) (a.toInt ^ b.toInt.toNat) →
        ∀ z ∈ products 1 a.toInt b.toInt.toNat, Fits (2 ^ 63) z) ∧
      (powerLoop 1 a b.toInt.toNat = none ↔
        ∃ z ∈ products 1 a.toInt b.toInt.toNat, ¬ Fits (2 ^ 63) z)) ∧
    (b.toInt < 0 → run .power = .ok (.float (f.power (f.ofInteger a) (f.ofInteger b)))) := by
  dsimp only
  have atoms (operation : BinaryOperator) := applyArithmetic_integers f operation a b
  refine ⟨?_, ?_, ?_, negation_answers f a, ?_, ?_, ?_, ?_⟩
  · rw [atoms]
    exact (checkedAdd_exact a b).answers _
  · rw [atoms]
    exact (checkedSubtract_exact a b).answers _
  · rw [atoms]
    exact (checkedMultiply_exact a b).answers _
  · intro zero
    have divisor : b = 0 := Int64.toInt_inj.mp zero
    constructor <;> exact ⟨_, by rw [atoms, integerArithmetic, if_pos divisor]; rfl⟩
  · intro divisor
    have nonzero : b ≠ 0 := fun eq => divisor (by rw [eq]; rfl)
    have sum := Int.fmod_add_mul_fdiv a.toInt b.toInt
    refine ⟨floorDivide_answers f nonzero, modulo_answers f nonzero, by linarith, ?_, ?_⟩
    · exact fun positive => ((Int.fdiv_fmod_unique positive).mp ⟨rfl, rfl⟩).2
    · exact fun negative => ((Int.fdiv_fmod_unique' negative).mp ⟨rfl, rfl⟩).2
  · intro natural
    refine ⟨power_answers f natural, fun fits => ?_, powerLoop_products a _⟩
    exact products_fit (by decide) no_root 1 a.toInt _ (fun one => absurd one (by decide))
      (by rwa [one_mul])
  · intro negative
    have below : b < 0 := by rwa [Int64.lt_iff_toInt_lt, Int64.toInt_zero]
    rw [atoms, integerArithmetic, if_pos below, Option.getD_some]

/-- Two to the power of minus one is no integer, and the evaluator reports no overflow. -/
theorem negative_exponent_is_float : ¬ ∀ (f : FloatOperations) (a b : Int64),
    (∀ z : ℤ, (z : ℚ) = (a.toInt : ℚ) ^ b.toInt → Answers
      (applyArithmetic f .power (.integer a.toInt) (.integer b.toInt)) z) ∧
    ((∀ z : ℤ, (z : ℚ) ≠ (a.toInt : ℚ) ^ b.toInt) → ∃ message,
      applyArithmetic f .power (.integer a.toInt) (.integer b.toInt) =
        .error ⟨.numericOverflow, message⟩) := by
  intro claim
  have float : FloatOperations :=
    ⟨fun _ => 0, fun _ _ => 0, fun _ _ => 0, fun _ _ => 0, fun _ _ => 0, fun _ _ => 0,
      fun _ => 0, fun _ => 0, fun _ => true⟩
  have half : ∀ z : ℤ, (z : ℚ) ≠ ((2 : Int64).toInt : ℚ) ^ (-1 : Int64).toInt := by
    intro z eq
    have two : (2 : Int64).toInt = 2 := rfl
    have one : (-1 : Int64).toInt = -1 := rfl
    rw [two, one, zpow_neg_one] at eq
    have double : ((2 * z : ℤ) : ℚ) = (1 : ℤ) := by
      push_cast
      rw [eq]
      norm_num
    have whole : 2 * z = 1 := by exact_mod_cast double
    omega
  obtain ⟨message, reported⟩ := (claim float 2 (-1)).2 half
  exact absurd reported nofun

end Baas.Evaluator
