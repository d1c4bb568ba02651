import CommandScript.Evaluation.Evaluator
import CommandScript.Proofs.Decimal.Arithmetic

/-!
# Counting

A loop evaluates its body once for each value of a counter. The number of values is found by
rounding the distance of the bounds, and each value by rounding an index. Between whole bounds that
are at most `2 ^ 53` apart nothing is rounded, so the counter takes the whole numbers from the one
to the other. Between bounds further apart two indices are rounded to the same number, so it does
not.
-/

namespace CommandScript.Evaluation

open CommandScript.Decimal CommandScript.Machine CommandScript.Source

variable {Host : Type} {α β γ : Type} {a b : ℤ} {start stop : Float}

/-! ## Whole numbers -/

/-- The step that leads from one whole number to another. -/
def direction (a b : ℤ) : ℤ :=
  if a ≤ b then 1 else -1

/-- The values are the whole numbers from one to the other. -/
structure Counts (a b : ℤ) (values : List ℤ) : Prop where
  length : values.length = (b - a).natAbs + 1
  first : values.head? = some a
  last : values.getLast? = some b
  next (index : Nat) (inside : index + 1 < values.length) :
    values[index + 1] = values[index] + direction a b
  once : values.Nodup
  between : ∀ value ∈ values, min a b ≤ value ∧ value ≤ max a b

/-- The numbers have the values of the whole numbers from one to the other. -/
def Counted (a b : ℤ) (numbers : List Float) : Prop :=
  ∃ values, Counts a b values ∧
    numbers.map exactValue? = values.map fun value : ℤ => some (value : ℚ)

/-- The whole numbers from one to the other. -/
def countTo (a b : ℤ) : List ℤ :=
  (List.range ((b - a).natAbs + 1)).map fun index : Nat => a + direction a b * index

/-- As many steps as the bounds lie apart lead from one to the other. -/
theorem direction_mul_natAbs (a b : ℤ) : direction a b * (b - a).natAbs = b - a := by
  rw [direction]
  split <;> omega

/-- All steps stay between the bounds. -/
theorem between_of_le {index : Nat} (le : index ≤ (b - a).natAbs) :
    min a b ≤ a + direction a b * index ∧ a + direction a b * index ≤ max a b := by
  rw [direction]
  split <;> omega

/-- No number is counted twice. -/
theorem direction_mul_injective (a b : ℤ) :
    Function.Injective fun index : Nat => a + direction a b * index := by
  intro index other same
  dsimp only [direction] at same
  split at same <;> omega

/-- The plain list of the numbers counts from the one bound to the other. -/
theorem counts_countTo (a b : ℤ) : Counts a b (countTo a b) where
  length := by rw [countTo, List.length_map, List.length_range]
  first := by
    rw [countTo, List.head?_map, List.head?_range, if_neg (Nat.succ_ne_zero _), Option.map_some,
      Nat.cast_zero, mul_zero, add_zero]
  last := by
    rw [countTo, List.getLast?_map, List.getLast?_range, if_neg (Nat.succ_ne_zero _),
      Option.map_some, Nat.add_sub_cancel, direction_mul_natAbs, add_sub_cancel]
  next index inside := by
    simp only [countTo, List.getElem_map, List.getElem_range]
    rw [Nat.cast_succ, mul_add, mul_one, add_assoc]
  once := List.nodup_range.map (direction_mul_injective a b)
  between value present := by
    obtain ⟨index, short, rfl⟩ := List.mem_map.mp present
    exact between_of_le (Nat.le_of_lt_succ (List.mem_range.mp short))

/-! ## The values of a counter -/

/-- The step of a counter. -/
def stride (start stop : Float) : Float :=
  if start ≤ stop then 1.0 else -1.0

/-- The value of a counter at an index. -/
def counterValue (start stop : Float) (index : Nat) : Float :=
  start + stride start stop * index.toUInt64.toFloat

/-- The values that a counter takes between two bounds. -/
def counterValues (start stop : Float) : List Float :=
  (List.range (loopCount start stop)).map (counterValue start stop)

section Bounds

variable (starts : exactValue? start = some (a : ℚ)) (stops : exactValue? stop = some (b : ℚ))

include starts stops

/-- Bounds that lie at most 2^53 apart are counted exactly. -/
theorem loopCount_eq (near : |b - a| ≤ 2 ^ 53) : loopCount start stop = (b - a).natAbs + 1 := by
  have apart := exactValue?_sub stops starts (by exact_mod_cast isExact_intCast near)
  have distance := exactValue?_abs apart
  have value : |(b : ℚ) - a| = ((b - a).natAbs : Nat) := by
    rw [Nat.cast_natAbs, Int.cast_abs, Int.cast_sub]
  have small : (b - a).natAbs < 2 ^ 64 := by
    rw [Int.abs_eq_natAbs] at near
    omega
  rw [loopCount, toNat_toUInt64_of_exactValue? (value ▸ distance) small]

/-- Up to 2^53 steps, the distance from the start is exact. -/
theorem exactValue?_stride_mul {index : Nat} (within : index ≤ 2 ^ 53) :
    exactValue? (stride start stop * index.toUInt64.toFloat) =
      some ((direction a b * index : ℤ) : ℚ) := by
  have value := exactValue?_toFloat within
  have order : start ≤ stop ↔ a ≤ b :=
    (le_iff_of_exactValue? starts stops).trans Int.cast_le
  rw [stride, direction]
  by_cases up : a ≤ b
  · rw [if_pos (order.mpr up), if_pos up, one_mul]
    exact exactValue?_one_mul value
  · rw [if_neg (mt order.mp up), if_neg up, neg_one_mul, Int.cast_neg]
    exact exactValue?_neg_one_mul value

/-- The first values are exact, however far apart the bounds are. -/
theorem exactValue?_counterValue (begins : |a| ≤ 2 ^ 53) (ends : |b| ≤ 2 ^ 53) {index : Nat}
    (within : index ≤ 2 ^ 53) (le : index ≤ (b - a).natAbs) :
    exactValue? (counterValue start stop index) =
      some ((a + direction a b * index : ℤ) : ℚ) := by
  have exact : |a + direction a b * index| ≤ 2 ^ 53 := by
    have between := between_of_le le
    rw [abs_le] at begins ends ⊢
    omega
  rw [Int.cast_add]
  refine exactValue?_add starts (exactValue?_stride_mul starts stops within) ?_
  exact_mod_cast isExact_intCast exact

/-- Between bounds that are not far apart nothing is rounded. -/
theorem counted_of_near (begins : |a| ≤ 2 ^ 53) (ends : |b| ≤ 2 ^ 53) (near : |b - a| ≤ 2 ^ 53) :
    Counted a b (counterValues start stop) := by
  refine ⟨countTo a b, counts_countTo a b, ?_⟩
  rw [counterValues, countTo, loopCount_eq starts stops near, List.map_map, List.map_map]
  refine List.map_congr_left fun index short => ?_
  have le : index ≤ (b - a).natAbs := Nat.le_of_lt_succ (List.mem_range.mp short)
  have within : index ≤ 2 ^ 53 := by
    rw [Int.abs_eq_natAbs] at near
    omega
  exact exactValue?_counterValue starts stops begins ends within le

end Bounds

/-- The first index that is not exact is rounded to the one before it. -/
theorem toFloat_beyond : (2 ^ 53 + 1).toUInt64.toFloat = (2 ^ 53).toUInt64.toFloat := by
  decide +kernel

/-- Between bounds that are far apart the counter would have to take one value at two indices. -/
theorem not_counted_of_far (far : 2 ^ 53 < |b - a|) (start stop : Float) :
    ¬Counted a b (counterValues start stop) := by
  rintro ⟨values, counts, same⟩
  have length : (counterValues start stop).length = values.length := by
    simpa using congrArg List.length same
  have long : 2 ^ 53 + 1 < values.length := by
    rw [Int.abs_eq_natAbs] at far
    rw [counts.length]
    omega
  have value (index : Nat) (inside : index < values.length) :
      exactValue? (counterValue start stop index) = some (values[index] : ℚ) := by
    have here := List.getElem_of_eq same (by rw [List.length_map, length]; exact inside)
    simpa [counterValues] using here
  have again : values[2 ^ 53 + 1] = values[2 ^ 53] := by
    have late := value (2 ^ 53 + 1) long
    rw [counterValue, toFloat_beyond, ← counterValue, value (2 ^ 53) (Nat.lt_of_succ_lt long)]
      at late
    exact_mod_cast (Option.some_inj.mp late).symm
  exact absurd (counts.once.getElem_inj_iff.mp again) (by decide)

/-! ## The runs of the body -/

/-- The body for each value of the counter, in a block of its own, and the encoded results. -/
def forEach (evaluate : Evaluator Host) (place : Place) (counter : Symbol) (body : Script) :
    List Float → Eval Host (List Argument)
  | [] => return []
  | value :: rest => do
    let scope ← newBlock place.scope
    assign scope counter (.number value)
    let value ← evaluate body { place with scope := scope }
    let result ← Eval.ofExcept value.encode
    let results ← forEach evaluate place counter body rest
    return result :: results

/-- Computations in a row may be grouped in any way. -/
theorem bind_assoc (first : Eval Host α) (next : α → Eval Host β) (last : β → Eval Host γ) :
    first >>= next >>= last = first >>= fun value => next value >>= last :=
  funext fun machine => Eval.andThen_assoc (first machine) next last

/-- The loop goes over the numbers from its index on. -/
theorem iterate_eq_forEach (evaluate : Evaluator Host) (place : Place) (counter : Symbol)
    (body : Script) (first step : Float) (left index : Nat) (results : Sequence Argument) :
    iterate evaluate place counter first step body left index results = (do
      let more ← forEach evaluate place counter body
        ((List.range' index left).map fun index => first + step * index.toUInt64.toFloat)
      return results.append more) := by
  induction left generalizing index results with
  | zero => rfl
  | succ left ih =>
      rw [List.range'_succ, List.map_cons, iterate, forEach]
      simp only [ih, bind_assoc]
      -- To append a list is to push its items, so both sides push the first result first.
      rfl

/-- What a loop does when its bounds are known. -/
def loopBetween (evaluate : Evaluator Host) (place : Place) (counter : Symbol) (body : Script)
    (start stop : Float) : Eval Host Value := do
  Eval.require (isFinite start && isFinite stop) (.cast .number .finiteNumber)
  Eval.require (!(start.abs > loopLimit || stop.abs > loopLimit)) (.cast .number .exactRange)
  let results ← forEach evaluate place counter body (counterValues start stop)
  return .list (Sequence.ofList results)

/-- A loop finds its bounds in order and then runs between them. -/
theorem runLoop_eq (evaluate : Evaluator Host) (frame : Frame) (counter : Symbol)
    (first last : Argument) (body : Script) :
    runLoop evaluate frame counter first last body = (do
      let start ← numberOf evaluate frame.inside first
      let stop ← numberOf evaluate frame.inside last
      loopBetween evaluate frame.caller counter body start stop) := by
  have runs (start stop : Float) :
      iterate evaluate frame.caller counter start (stride start stop) body (loopCount start stop) 0
        Sequence.empty = (do
      let results ← forEach evaluate frame.caller counter body (counterValues start stop)
      return Sequence.ofList results) := by
    rw [iterate_eq_forEach, ← List.range_eq_range']
    rfl
  simp only [stride] at runs
  rw [runLoop]
  simp only [loopBetween, runs, bind_assoc]
  rfl

/-! ## Loops -/

/-- The limit on the bounds is 2^53. -/
theorem exactValue?_loopLimit : exactValue? loopLimit = some ((2 ^ 53 : ℤ) : ℚ) := by
  decide +kernel

/-- A bound of at most 2^53 is not refused. -/
theorem abs_le_loopLimit (value : exactValue? start = some (a : ℚ)) (within : |a| ≤ 2 ^ 53) :
    ¬start.abs > loopLimit := by
  rw [gt_iff_lt, lt_iff_of_exactValue? exactValue?_loopLimit (exactValue?_abs value), not_lt]
  exact_mod_cast within

/-- Whole bounds up to `2 ^ 53` pass the checks. -/
theorem loopBetween_eq (begins : |a| ≤ 2 ^ 53) (ends : |b| ≤ 2 ^ 53)
    (starts : exactValue? start = some (a : ℚ)) (stops : exactValue? stop = some (b : ℚ))
    (evaluate : Evaluator Host) (place : Place) (counter : Symbol) (body : Script) :
    loopBetween evaluate place counter body start stop = (do
      let results ← forEach evaluate place counter body (counterValues start stop)
      return .list (Sequence.ofList results)) := by
  rw [loopBetween, isFinite_of_exactValue? starts, isFinite_of_exactValue? stops,
    decide_eq_false (abs_le_loopLimit starts begins),
    decide_eq_false (abs_le_loopLimit stops ends)]
  rfl

/-- A loop between two whole numbers up to `2 ^ 53` evaluates its body for each value of its
counter, in a block of its own, and collects the encoded results. Up to the index `2 ^ 53` the value
is as many steps from the first bound as its index tells. The counter takes the whole numbers from
the one bound to the other, each once, exactly if these are at most `2 ^ 53` apart. -/
theorem runLoop_counts_iff (begins : |a| ≤ 2 ^ 53) (ends : |b| ≤ 2 ^ 53)
    (starts : exactValue? start = some (a : ℚ)) (stops : exactValue? stop = some (b : ℚ))
    (evaluate : Evaluator Host) (frame : Frame) (counter : Symbol) (first last : Argument)
    (body : Script) :
    runLoop evaluate frame counter first last body = (do
        let start ← numberOf evaluate frame.inside first
        let stop ← numberOf evaluate frame.inside last
        loopBetween evaluate frame.caller counter body start stop) ∧
      loopBetween evaluate frame.caller counter body start stop = (do
        let results ← forEach evaluate frame.caller counter body (counterValues start stop)
        return .list (Sequence.ofList results)) ∧
      (∀ index ≤ 2 ^ 53, index ≤ (b - a).natAbs →
        exactValue? (counterValue start stop index) =
          some ((a + direction a b * index : ℤ) : ℚ)) ∧
      (Counted a b (counterValues start stop) ↔ |b - a| ≤ 2 ^ 53) := by
  refine ⟨runLoop_eq .., loopBetween_eq begins ends starts stops .., fun index within le => ?_,
    fun counted => ?_, counted_of_near starts stops begins ends⟩
  · exact exactValue?_counterValue starts stops begins ends within le
  · by_contra far
    exact not_counted_of_far (not_le.mp far) start stop counted

/-- The loop from three down to one. -/
theorem runLoop_counts_iff_three :
    exactValue? 3.0 = some ((3 : ℤ) : ℚ) ∧ exactValue? 1.0 = some ((1 : ℤ) : ℚ) ∧
      Counted 3 1 (counterValues 3.0 1.0) := by
  have starts : exactValue? 3.0 = some ((3 : ℤ) : ℚ) := by decide +kernel
  have stops : exactValue? 1.0 = some ((1 : ℤ) : ℚ) := by decide +kernel
  let evaluate : Evaluator Unit := fun _ _ => return .nothing
  have loop := runLoop_counts_iff (by decide) (by decide) starts stops evaluate ⟨⟨0, 0⟩, 0⟩
    Keyword.yes (.number 3.0) (.number 1.0) []
  exact ⟨starts, stops, loop.2.2.2.mpr (by decide)⟩

/-- The loop from minus one to `2 ^ 53` passes the checks, and ends one short of its bound. -/
theorem loopBetween_ends_short :
    (∀ (place : Place) (counter : Symbol) (body : Script) (evaluate : Evaluator Unit),
      loopBetween evaluate place counter body (-1.0) loopLimit = (do
        let results ← forEach evaluate place counter body (counterValues (-1.0) loopLimit)
        return .list (Sequence.ofList results))) ∧
      exactValue? (-1.0) = some ((-1 : ℤ) : ℚ) ∧ exactValue? loopLimit = some ((2 ^ 53 : ℤ) : ℚ) ∧
      (counterValues (-1.0) loopLimit).length = 2 ^ 53 + 1 ∧
      (counterValues (-1.0) loopLimit).getLast?.bind exactValue? = some ((2 ^ 53 - 1 : ℤ) : ℚ) ∧
      ¬Counted (-1) (2 ^ 53) (counterValues (-1.0) loopLimit) := by
  have starts : exactValue? (-1.0) = some ((-1 : ℤ) : ℚ) := by decide +kernel
  have count : loopCount (-1.0) loopLimit = 2 ^ 53 + 1 := by decide +kernel
  refine ⟨fun place counter body evaluate => ?_, starts, exactValue?_loopLimit, ?_, ?_, ?_⟩
  · exact loopBetween_eq (by decide) (by decide) starts exactValue?_loopLimit ..
  · rw [counterValues, List.length_map, List.length_range, count]
  · rw [counterValues, List.getLast?_map, List.getLast?_range, count]
    decide +kernel
  · have far : 2 ^ 53 < |2 ^ 53 - (-1 : ℤ)| := by decide
    exact not_counted_of_far far (-1.0) loopLimit

end CommandScript.Evaluation
