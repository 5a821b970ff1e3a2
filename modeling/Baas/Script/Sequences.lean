import Baas.Lib.Program
import Baas.Script.Arithmetic
import Baas.Script.Text
import Mathlib.Data.List.Forall2

/-! Elements, slices and the items of lists, maps and strings in the synchronous evaluator.
What the heap says about allocating a result is left out. -/
namespace Baas.Evaluator

open Baas.Script (Bytes isContinuation isValidUtf8 isValidUtf8_iff)
open Scalars String Program

structure Evaluation where
  maxContainerElements : Nat
  maxCollectionWork : Nat
  collectionWork : Nat
  /-- The deadline and the cancellation that the next safe points observe. -/
  observations : List (Bool × Bool)

abbrev Evaluating (α : Type) := Program Evaluation EvaluationFailure α

def checkExecutionSafePoint (memory : Option String) : Evaluating Unit := fun e =>
  let observed := e.observations.headD (false, false)
  let after := { e with observations := e.observations.tail }
  match memory with
  | some message => (failEvaluation .memoryLimitExceeded message, after)
  | none =>
    if observed.1 then
      (failEvaluation .deadlineExceeded "synchronous evaluator deadline exceeded", after)
    else if observed.2 then
      (failEvaluation .cancelled "synchronous evaluator cancellation requested", after)
    else (.ok (), after)

def chargeCollection (amount : Nat) : Evaluating Unit := do
  let e ← read
  let exhausted := amount > e.maxContainerElements ∨ amount > e.maxCollectionWork ∨
    e.collectionWork > e.maxCollectionWork - amount
  checkExecutionSafePoint
    (if exhausted then some "synchronous evaluator collection budget exceeded" else none)
  modify fun e => { e with collectionWork := e.collectionWork + amount }

def fail {α : Type} (code : Baas.Script.LanguageErrorCode) (message : String) : Evaluating α :=
  raise ⟨code, message⟩

/-- `Heap::string_scalar_count`. -/
def stringScalarCount (text : Bytes) : Nat := text.countP fun byte => !isContinuation byte

/-- The widths are read off the first byte of each scalar. -/
def scalarRanges (text : Bytes) (offset : Nat) : List (Nat × Nat) :=
  if inside : offset < text.length then
    (offset, offset + width text[offset]) :: scalarRanges text (offset + width text[offset])
  else []
termination_by text.length - offset
decreasing_by
  have positive := width_pos text[offset]
  omega

def substr (text : Bytes) (range : Nat × Nat) : Bytes :=
  (text.drop range.1).take (range.2 - range.1)

/-- An object that is indexed, sliced or iterated. -/
inductive Container (α : Type)
  | list (values : List α)
  | string (text : Bytes)
  | orderedMap (entries : List (Bytes × α))
  | other

/-- An index or the bound of a slice. -/
inductive Selector
  | integer (value : Int64)
  | string (text : Bytes)
  | other
deriving DecidableEq

/-- A value that exists, or a new string. -/
inductive Element (α : Type)
  | value (a : α)
  | string (text : Bytes)
deriving DecidableEq

inductive Sliced (α : Type)
  | list (values : List α)
  | string (text : Bytes)
deriving DecidableEq

variable {α : Type}

def readIndex (object : Container α) (index : Selector) : Evaluating (Element α) :=
  match object, index with
  | .orderedMap entries, .string key => do
    chargeCollection entries.length
    match entries.lookup key with
    | none => fail .indexOutOfRange "map key is absent"
    | some value => pure (.value value)
  | .orderedMap _, _ => fail .typeMismatch "map index must be a string"
  | object, .integer integer =>
    if integer < 0 then fail .indexOutOfRange "negative index is invalid"
    else
      let position := integer.toInt.toNat
      match object with
      | .list values => do
        chargeCollection values.length
        match values[position]? with
        | none => fail .indexOutOfRange "list index is out of range"
        | some value => pure (.value value)
      | .string text => do
        let count := stringScalarCount text
        chargeCollection count
        if position ≥ count then fail .indexOutOfRange "string index is out of range"
        else pure (.string (substr text ((scalarRanges text 0).getD position (0, 0))))
      | _ => fail .typeMismatch "index access requires list, map, or string"
  | _, _ => fail .typeMismatch "sequence index must be an integer"

def evaluateBound : Option Selector → Evaluating (Option Int64)
  | none => pure none
  | some (.integer value) => pure (some value)
  | some _ => fail .typeMismatch "slice bound must be an integer"

/-- `for (index = start; index < stop; index += step)`. -/
def strides (start stop step : Nat) : List Nat :=
  if start < stop ∧ 0 < step then start :: strides (start + step) stop step else []
termination_by stop - start

/-- A bound, or what it defaults to, within the size. -/
def clampBound (bound : Option Int64) (absent size : Nat) : Nat :=
  min (bound.elim absent fun value => value.toInt.toNat) size

def sliceBoundsInvalid (start stop step : Option Int64) : Bool :=
  start.any (· < 0) || stop.any (· < 0) || step.any (· ≤ 0)

/-- A slice whose bounds have been evaluated. -/
def readSlice (object : Container α) (start stop step : Option Selector) :
    Evaluating (Sliced α) := do
  match object with
  | .list _ | .string _ => pure ()
  | _ => fail .typeMismatch "slice requires a list or string"
  let startValue ← evaluateBound start
  let stopValue ← evaluateBound stop
  let stepValue ← evaluateBound step
  if sliceBoundsInvalid startValue stopValue stepValue then
    fail .indexOutOfRange "slice bounds require nonnegative indices and positive step"
  else
    let indices (size : Nat) := strides (clampBound startValue 0 size)
      (clampBound stopValue size size) (stepValue.elim 1 fun value => value.toInt.toNat)
    match object with
    | .list values => do
      chargeCollection values.length
      let result := (indices values.length).filterMap fun index => values[index]?
      chargeCollection result.length
      pure (.list result)
    | .string text => do
      let count := stringScalarCount text
      chargeCollection count
      let ranges := scalarRanges text 0
      chargeCollection (indices count).length
      pure (.string ((indices count).flatMap fun index => substr text (ranges.getD index (0, 0))))
    | _ => fail .typeMismatch "slice requires a list or string"

def iterationPlan : Container α → Evaluating (List (Element α))
  | .list values => do
    chargeCollection values.length
    pure (values.map .value)
  | .orderedMap entries => do
    chargeCollection entries.length
    pure (entries.map fun entry => .string entry.1)
  | .string text => do
    chargeCollection (stringScalarCount text)
    pure ((scalarRanges text 0).map fun range => .string (substr text range))
  | .other => fail .typeMismatch "for iterable must be a list, map, or string"

/-! Strings against the lists of their scalars. -/

/-- Two computations that fail with the same code or succeed with related results. -/
def Agrees {β γ : Type} (rel : β → γ → Prop) (m : Evaluating β) (n : Evaluating γ) : Prop :=
  ∀ e, (m e).2 = (n e).2 ∧ match (m e).1, (n e).1 with
    | .ok b, .ok c => rel b c
    | .error f, .error g => f.code = g.code
    | _, _ => False

theorem Agrees.pure {β γ : Type} {rel : β → γ → Prop} {b : β} {c : γ} (related : rel b c) :
    Agrees rel (Pure.pure b) (Pure.pure c) := fun _ => ⟨rfl, related⟩

theorem Agrees.fail {β γ : Type} {rel : β → γ → Prop} (code : Baas.Script.LanguageErrorCode)
    (message message' : String) :
    Agrees rel (Evaluator.fail code message) (Evaluator.fail code message') :=
  fun _ => ⟨rfl, rfl⟩

/-- The same step before two computations that agree. -/
theorem Agrees.after {β γ δ : Type} {rel : β → γ → Prop} (m : Evaluating δ)
    {f : δ → Evaluating β} {g : δ → Evaluating γ} (rest : ∀ d, Agrees rel (f d) (g d)) :
    Agrees rel (m >>= f) (m >>= g) := by
  intro e
  cases ran : m e with
  | mk outcome t =>
    cases outcome with
    | ok d =>
      rw [bind_of_ok ran, bind_of_ok ran]
      exact rest d t
    | error failure =>
      rw [bind_of_error ran, bind_of_error ran]
      exact ⟨rfl, rfl⟩

theorem count_scalars (cs : List Char) : stringScalarCount (encode cs) = cs.length := by
  unfold stringScalarCount
  induction cs with
  | nil => rfl
  | cons c cs ih =>
    obtain ⟨first, tail, parts, -, lead, tails, -⟩ := encode_parts c
    have none : tail.countP (fun byte => !isContinuation byte) = 0 := by
      rw [List.countP_eq_zero]
      intro b mem
      have isTail : isContinuation b = true := (tail_iff b).mpr (tails b mem)
      simp [isTail]
    have one : isContinuation first = false := by
      rw [← Bool.not_eq_true]
      exact fun isTail => lead ((tail_iff first).mp isTail)
    rw [encode_cons, parts, List.countP_append, List.countP_cons, none, one, ih,
      List.length_cons]
    exact (Nat.add_comm _ _).trans (congrArg _ (Nat.zero_add _))

/-- The ranges cut a text into its scalars. -/
theorem cut_scalars (before : Bytes) (cs : List Char) :
    (scalarRanges (before ++ encode cs) before.length).map (substr (before ++ encode cs)) =
      cs.map utf8EncodeChar := by
  induction cs generalizing before with
  | nil =>
    rw [scalarRanges, dif_neg (by simp)]
    rfl
  | cons c cs ih =>
    obtain ⟨first, tail, parts, wide, -⟩ := encode_parts c
    have inside : before.length < (before ++ encode (c :: cs)).length := by
      rw [List.length_append, encode_cons, parts, List.cons_append, List.length_cons]
      omega
    have here : (before ++ encode (c :: cs))[before.length] = first := by
      rw [List.getElem_append_right (Nat.le_refl _)]
      simp [parts]
    have more : before ++ encode (c :: cs) = (before ++ utf8EncodeChar c) ++ encode cs := by
      rw [encode_cons, List.append_assoc]
    have next : before.length + width first = (before ++ utf8EncodeChar c).length := by
      rw [List.length_append, parts, wide, List.length_cons]
    have cut : substr (before ++ encode (c :: cs)) (before.length, before.length + width first) =
        utf8EncodeChar c := by
      rw [substr, List.drop_left, Nat.add_sub_cancel_left, encode_cons, wide, parts]
      exact List.take_left' (List.length_cons)
    rw [scalarRanges, dif_pos inside, here, List.map_cons, cut, next, List.map_cons]
    congr 1
    rw [more]
    exact ih (before ++ utf8EncodeChar c)

theorem scalarRanges_length (cs : List Char) : (scalarRanges (encode cs) 0).length = cs.length := by
  have cut := congrArg List.length (cut_scalars [] cs)
  rwa [List.length_map, List.length_map] at cut

/-- The range at a position cuts out the scalar at that position. -/
theorem cut_at (cs : List Char) {i : Nat} (inside : i < cs.length) :
    substr (encode cs) ((scalarRanges (encode cs) 0).getD i (0, 0)) = utf8EncodeChar cs[i] := by
  have here : i < (scalarRanges (encode cs) 0).length := by rwa [scalarRanges_length]
  have cut := congrArg (·[i]?) (cut_scalars [] cs)
  simp only [List.nil_append, List.length_nil, List.getElem?_map, List.getElem?_eq_getElem here,
    List.getElem?_eq_getElem inside, Option.map_some, Option.some.injEq] at cut
  rw [List.getD_eq_getElem?_getD, List.getElem?_eq_getElem here, Option.getD_some, cut]

/-- Every index of a slice lies within its bounds. -/
theorem strides_lt {start stop step : Nat} : ∀ i ∈ strides start stop step, i < stop := by
  fun_induction strides start stop step with
  | case1 start more ih =>
    intro i mem
    rcases List.mem_cons.mp mem with rfl | later
    · exact more.1
    · exact ih i later
  | case2 => exact fun i mem => absurd mem List.not_mem_nil

/-- Picking members and picking scalars at the same positions. -/
theorem pick_agrees (cs : List Char) (indices : List Nat) (inside : ∀ i ∈ indices, i < cs.length) :
    (indices.flatMap fun i => substr (encode cs) ((scalarRanges (encode cs) 0).getD i (0, 0))) =
      encode (indices.filterMap fun i => cs[i]?) ∧
    (indices.filterMap fun i => cs[i]?).length = indices.length := by
  induction indices with
  | nil => exact ⟨rfl, rfl⟩
  | cons i indices ih =>
    have here := inside i List.mem_cons_self
    obtain ⟨same, length⟩ := ih fun j mem => inside j (List.mem_cons_of_mem i mem)
    have picked : cs[i]? = some cs[i] := List.getElem?_eq_getElem here
    rw [List.flatMap_cons, cut_at cs here, same, List.filterMap_cons_some picked, encode_cons,
      List.length_cons, length, List.length_cons]
    exact ⟨rfl, rfl⟩

variable {γ : Type}

/-- A scalar and the string that encodes it. -/
def SameElement (a : Element Char) (b : Element γ) : Prop :=
  ∃ c, a = .value c ∧ b = .string (encode [c]) ∧ isValidUtf8 (encode [c]) = true

/-- A part of the scalars and the string that encodes it. -/
def SameSlice (a : Sliced Char) (b : Sliced γ) : Prop :=
  ∃ part, a = .list part ∧ b = .string (encode part) ∧ isValidUtf8 (encode part) = true

theorem encode_valid (cs : List Char) : isValidUtf8 (encode cs) = true :=
  (isValidUtf8_iff _).mpr ⟨cs, rfl⟩

theorem encode_singleton (c : Char) : encode [c] = utf8EncodeChar c := by
  rw [encode_cons, encode_nil, List.append_nil]

theorem readIndex_agrees (cs : List Char) (index : Selector) :
    Agrees SameElement (readIndex (.list cs) index)
      (readIndex (.string (encode cs) : Container γ) index) := by
  cases index with
  | string text => exact .fail _ _ _
  | other => exact .fail _ _ _
  | integer integer =>
    unfold readIndex
    dsimp only
    split
    · exact .fail _ _ _
    · rw [count_scalars]
      refine .after _ fun _ => ?_
      by_cases inside : integer.toInt.toNat < cs.length
      · rw [List.getElem?_eq_getElem inside, if_neg (by omega), cut_at cs inside,
          ← encode_singleton]
        exact .pure ⟨_, rfl, rfl, encode_valid _⟩
      · rw [List.getElem?_eq_none (by omega), if_pos (by omega)]
        exact .fail _ _ _

theorem readSlice_agrees (cs : List Char) (start stop step : Option Selector) :
    Agrees SameSlice (readSlice (.list cs) start stop step)
      (readSlice (.string (encode cs) : Container γ) start stop step) := by
  unfold readSlice
  dsimp only
  refine .after _ fun startValue => .after _ fun stopValue => .after _ fun stepValue => ?_
  split
  · exact .fail _ _ _
  · rw [count_scalars]
    refine .after _ fun _ => ?_
    have inside : ∀ i ∈ strides (clampBound startValue 0 cs.length)
        (clampBound stopValue cs.length cs.length)
        (stepValue.elim 1 fun value => value.toInt.toNat), i < cs.length :=
      fun i mem => lt_of_lt_of_le (strides_lt i mem) (min_le_right _ _)
    obtain ⟨same, length⟩ := pick_agrees cs _ inside
    rw [length, same]
    exact .after _ fun _ => .pure ⟨_, rfl, rfl, encode_valid _⟩

theorem iterationPlan_agrees (cs : List Char) :
    Agrees (List.Forall₂ SameElement) (iterationPlan (.list cs))
      (iterationPlan (.string (encode cs) : Container γ)) := by
  unfold iterationPlan
  dsimp only
  rw [count_scalars]
  refine .after _ fun _ => .pure ?_
  have cut : (scalarRanges (encode cs) 0).map (substr (encode cs)) = cs.map utf8EncodeChar :=
    cut_scalars [] cs
  have items : ((scalarRanges (encode cs) 0).map fun range =>
      (Element.string (substr (encode cs) range) : Element γ)) =
      cs.map fun c => .string (encode [c]) := by
    have composed := congrArg (List.map (Element.string (α := γ))) cut
    rw [List.map_map, List.map_map] at composed
    refine composed.trans (List.map_congr_left fun c _ => ?_)
    exact congrArg Element.string (encode_singleton c).symm
  rw [items]
  exact List.forall₂_map_left_iff.mpr (List.forall₂_map_right_iff.mpr
    (List.forall₂_same.mpr fun c _ => ⟨c, rfl, rfl, encode_valid _⟩))

/-- Indexing, slicing and iterating a valid string is indexing, slicing and iterating the
list of its scalars, and gives valid strings. -/
theorem strings_as_scalars (text : Bytes) (valid : isValidUtf8 text = true) :
    ∃ scalars : List Char, text = encode scalars ∧
      (∀ index, Agrees SameElement (readIndex (.list scalars) index)
        (readIndex (.string text : Container γ) index)) ∧
      (∀ start stop step, Agrees SameSlice (readSlice (.list scalars) start stop step)
        (readSlice (.string text : Container γ) start stop step)) ∧
      Agrees (List.Forall₂ SameElement) (iterationPlan (.list scalars))
        (iterationPlan (.string text : Container γ)) := by
  obtain ⟨scalars, rfl⟩ := (isValidUtf8_iff text).mp valid
  exact ⟨scalars, rfl, readIndex_agrees scalars, readSlice_agrees scalars,
    iterationPlan_agrees scalars⟩

theorem strings_as_scalars_sample : isValidUtf8 [104, 0xC3, 0xA9] = true ∧
    ∃ scalars : List Char, [104, 0xC3, 0xA9] = encode scalars ∧
      ∀ index, Agrees SameElement (readIndex (.list scalars) index)
        (readIndex (.string [104, 0xC3, 0xA9] : Container Nat) index) := by
  obtain ⟨scalars, same, reading, -⟩ := strings_as_scalars (γ := Nat) [104, 0xC3, 0xA9] (by decide)
  exact ⟨by decide, scalars, same, reading⟩

end Baas.Evaluator
