import Baas.Script.HeapSound
import Baas.Script.Text

/-! What is kept of the parts of a structured error. -/
namespace Baas.Script

open Scalars String

/-- The longest prefix of the scalars of a text that fits in `limit` octets. -/
def LongestWhole (limit : Nat) (text kept : Bytes) : Prop :=
  ∃ scalars : List Char, text = encode scalars ∧ ∃ k, kept = encode (scalars.take k) ∧
    kept.length ≤ limit ∧
    ∀ j, (encode (scalars.take j)).length ≤ limit →
      (encode (scalars.take j)).length ≤ kept.length

theorem utf8End_le (text : Bytes) (limit : Nat) : utf8End text limit ≤ limit := by
  induction limit with
  | zero => exact Nat.le_refl 0
  | succ limit ih =>
    rw [utf8End]
    split
    · omega
    · exact Nat.le_refl _

theorem utf8End_boundary (text : Bytes) (limit : Nat) :
    utf8End text limit = 0 ∨ text[utf8End text limit]?.any isContinuation = false := by
  induction limit with
  | zero => exact .inl rfl
  | succ limit ih =>
    rw [utf8End]
    split
    · exact ih
    · rename_i start
      exact .inr (Bool.eq_false_iff.mpr start)

theorem utf8End_greatest {text : Bytes} {limit n : Nat} (within : n ≤ limit)
    (boundary : text[n]?.any isContinuation = false) : n ≤ utf8End text limit := by
  induction limit with
  | zero => omega
  | succ limit ih =>
    rw [utf8End]
    split
    · rename_i inner
      refine ih (Nat.lt_succ_iff.mp (Nat.lt_of_le_of_ne within ?_))
      rintro rfl
      rw [boundary] at inner
      exact absurd inner nofun
    · exact within

/-- No scalar starts with a continuation. -/
theorem encode_boundary (before after : List Char) :
    (encode (before ++ after))[(encode before).length]?.any isContinuation = false := by
  rw [encode_append, List.getElem?_append_right (Nat.le_refl _), Nat.sub_self]
  cases after with
  | nil => rfl
  | cons c after =>
    obtain ⟨first, tail, parts, -, lead, -, -⟩ := encode_parts c
    rw [encode_cons, parts]
    exact Bool.eq_false_iff.mpr fun continues => lead ((isContinuation_iff first).mp continues)

/-- A cut that is not before a continuation is between two scalars. -/
theorem cut_boundary {scalars : List Char} {n : Nat} (inside : n ≤ (encode scalars).length)
    (boundary : n = 0 ∨ (encode scalars)[n]?.any isContinuation = false) :
    ∃ k, (encode scalars).take n = encode (scalars.take k) := by
  induction scalars generalizing n with
  | nil => exact ⟨0, by simp⟩
  | cons c scalars ih =>
    obtain ⟨first, tail, parts, -, -, tails, -⟩ := encode_parts c
    obtain rfl | positive := Nat.eq_zero_or_pos n
    · exact ⟨0, rfl⟩
    have boundary := boundary.resolve_left (Nat.pos_iff_ne_zero.mp positive)
    rw [encode_cons] at inside boundary ⊢
    by_cases beyond : (utf8EncodeChar c).length ≤ n
    · rw [List.getElem?_append_right beyond] at boundary
      rw [List.length_append] at inside
      obtain ⟨k, taken⟩ := ih (n := n - (utf8EncodeChar c).length) (by omega) (.inr boundary)
      refine ⟨k + 1, ?_⟩
      rw [List.take_append, List.take_of_length_le beyond, taken, List.take_succ_cons, encode_cons]
    · rw [parts] at boundary beyond
      obtain ⟨m, rfl⟩ := Nat.exists_eq_succ_of_ne_zero (Nat.pos_iff_ne_zero.mp positive)
      have short : m < tail.length := by
        rw [List.length_cons] at beyond
        omega
      have continues := tails _ (List.getElem_mem short)
      rw [List.cons_append, List.getElem?_cons_succ, List.getElem?_append_left short,
        List.getElem?_eq_getElem short] at boundary
      rw [Option.any_some] at boundary
      rw [(isContinuation_iff _).mpr continues] at boundary
      cases boundary

/-- The cut keeps the longest prefix that ends between two scalars. -/
theorem truncateUtf8_longest (scalars : List Char) (limit : Nat) :
    LongestWhole limit (encode scalars) (truncateUtf8 (encode scalars) limit).1 := by
  refine ⟨scalars, rfl, ?_⟩
  unfold truncateUtf8
  by_cases fits : (encode scalars).length ≤ limit
  · rw [if_pos fits]
    refine ⟨scalars.length, by rw [List.take_length], fits, fun j _ => ?_⟩
    have split := congrArg encode (List.take_append_drop j scalars)
    rw [encode_append] at split
    have sizes := congrArg List.length split
    rw [List.length_append] at sizes
    dsimp only
    omega
  · rw [if_neg fits]
    have below := utf8End_le (encode scalars) limit
    obtain ⟨k, taken⟩ := cut_boundary (n := utf8End (encode scalars) limit) (by omega)
      (utf8End_boundary _ _)
    refine ⟨k, taken, ?_, fun j within => ?_⟩
    · rw [List.length_take]
      omega
    · have boundary := encode_boundary (scalars.take j) (scalars.drop j)
      rw [List.take_append_drop] at boundary
      have least := utf8End_greatest within boundary
      rw [List.length_take]
      omega

/-- What is kept of a list: all of it, or its ends with the middle left out. -/
def KeepsEnds {α : Type} (inner limit : Nat) (given kept : List α) : Prop :=
  given.length ≤ limit ∧ kept = given ∨
    ∃ first middle last, given = first ++ middle ++ last ∧ kept = first ++ last ∧
      first.length = min inner limit ∧ kept.length = limit

/-- The error that is stored for a given one. Counts of what is left out are added up. -/
structure BoundedError (limits : HeapLimits) (given stored : ErrorMetadata) : Prop where
  message : LongestWhole limits.maxErrorMessageBytes given.message.items stored.message.items
  messageBytes : stored.truncated.messageBytes = saturatingAdd given.truncated.messageBytes
    (given.message.items.length - stored.message.items.length)
  stack : KeepsEnds limits.maxErrorInnermostFrames limits.maxErrorStackFrames given.stack.items
    stored.stack.items
  stackFrames : stored.truncated.stackFrames = saturatingAdd given.truncated.stackFrames
    (given.stack.items.length - stored.stack.items.length)
  suppressed : stored.suppressed.items = given.suppressed.items.take limits.maxErrorSuppressed
  suppressedErrors : stored.truncated.suppressedErrors =
    saturatingAdd given.truncated.suppressedErrors
      (given.suppressed.items.length - stored.suppressed.items.length)
  cause : stored.cause = given.cause

theorem truncateUtf8_omitted (text : Bytes) (limit : Nat) :
    (truncateUtf8 text limit).2 = text.length - (truncateUtf8 text limit).1.length := by
  have below := utf8End_le text limit
  unfold truncateUtf8
  split
  · exact (Nat.sub_self _).symm
  · dsimp only
    rw [List.length_take]
    omega

theorem boundMessage_spec {h : Heap} {given bounded : ErrorMetadata}
    (ok : boundMessage h given = .ok bounded) : ∃ message : Text,
      LongestWhole h.limits.maxErrorMessageBytes given.message.items message.items ∧
        bounded = { given with
          message
          truncated.messageBytes := saturatingAdd given.truncated.messageBytes
            (given.message.items.length - message.items.length) } := by
  obtain ⟨_, checked, ok⟩ := bind_ok ok
  unfold requireUtf8Text at checked
  split at checked
  · rename_i valid
    obtain ⟨scalars, same⟩ := (isValidUtf8_iff _).mp valid
    have longest := truncateUtf8_longest scalars h.limits.maxErrorMessageBytes
    have omitted := truncateUtf8_omitted given.message.items h.limits.maxErrorMessageBytes
    rw [← same] at longest
    generalize truncateUtf8 given.message.items h.limits.maxErrorMessageBytes = cut
      at ok longest omitted
    refine ⟨h.platform.text cut.1, longest, ?_⟩
    rw [← Except.ok.inj ok, omitted]
    rfl
  · exact absurd checked nofun

/-- A list as its ends around its middle. -/
theorem split_ends {α : Type} {inner outer : Nat} (l : List α)
    (more : inner + outer ≤ l.length) :
    l = l.take inner ++ (l.drop inner).take (l.length - outer - inner) ++
      l.drop (l.length - outer) := by
  have rest : l.drop (l.length - outer) = (l.drop inner).drop (l.length - outer - inner) := by
    rw [List.drop_drop]
    congr 1
    omega
  rw [rest, List.append_assoc, List.take_append_drop, List.take_append_drop]

theorem boundFrames_ends (limits : HeapLimits) (stack : List ErrorStackFrame)
    (more : limits.maxErrorStackFrames < stack.length) :
    KeepsEnds limits.maxErrorInnermostFrames limits.maxErrorStackFrames stack
      (boundFrames limits stack) := by
  have inside := Nat.min_le_right limits.maxErrorInnermostFrames limits.maxErrorStackFrames
  unfold KeepsEnds boundFrames
  dsimp only
  generalize min limits.maxErrorInnermostFrames limits.maxErrorStackFrames = inner at inside ⊢
  have first : (stack.take inner).length = inner := by
    rw [List.length_take]
    omega
  refine .inr ⟨_, _, _, split_ends stack (by omega), rfl, first, ?_⟩
  rw [List.length_append, first, List.length_drop]
  omega

theorem KeepsEnds.length {α : Type} {inner limit : Nat} {given kept : List α}
    (keeps : KeepsEnds inner limit given kept) : kept.length = min given.length limit := by
  obtain ⟨fits, rfl⟩ | ⟨first, middle, last, rfl, rfl, -, size⟩ := keeps
  · omega
  · simp only [List.length_append] at size ⊢
    omega

theorem saturatingAdd_zero (count : Nat) : saturatingAdd count 0 = count := by
  rw [saturatingAdd, if_neg (Nat.not_lt_zero _), Nat.add_zero]

theorem boundStack_spec (h : Heap) (given : ErrorMetadata) : ∃ stack : Buffer ErrorStackFrame,
    KeepsEnds h.limits.maxErrorInnermostFrames h.limits.maxErrorStackFrames given.stack.items
        stack.items ∧
      boundStack h given = { given with
        stack
        truncated.stackFrames := saturatingAdd given.truncated.stackFrames
          (given.stack.items.length - stack.items.length) } := by
  unfold boundStack
  split
  · rename_i more
    have ends := boundFrames_ends h.limits given.stack.items more
    refine ⟨h.platform.reserve h.limits.maxErrorStackFrames
      (boundFrames h.limits given.stack.items), ends, ?_⟩
    have size : given.stack.items.length - h.limits.maxErrorStackFrames =
        given.stack.items.length - (boundFrames h.limits given.stack.items).length := by
      rw [ends.length]
      omega
    rw [size]
    rfl
  · rename_i fits
    refine ⟨given.stack, .inl ⟨Nat.not_lt.mp fits, rfl⟩, ?_⟩
    rw [Nat.sub_self, saturatingAdd_zero]

theorem acceptSuppressed_take {h : Heap} {cause : Option Value} {accepted values kept : List Value}
    (ok : values.foldlM (acceptSuppressed h cause) accepted = .ok kept) :
    kept = accepted ++ values.take (h.limits.maxErrorSuppressed - accepted.length) := by
  induction values generalizing accepted with
  | nil =>
    rw [List.take_nil, List.append_nil]
    exact (Except.ok.inj ok).symm
  | cons value values ih =>
    rw [List.foldlM_cons] at ok
    obtain ⟨next, step, ok⟩ := bind_ok ok
    rw [ih ok]
    unfold acceptSuppressed at step
    split at step
    · rename_i room
      obtain ⟨_, -, step⟩ := bind_ok step
      split at step
      · exact absurd step nofun
      · obtain rfl := Except.ok.inj step
        obtain ⟨n, left⟩ : ∃ n, h.limits.maxErrorSuppressed - accepted.length = n + 1 :=
          ⟨h.limits.maxErrorSuppressed - accepted.length - 1, by omega⟩
        have fewer : h.limits.maxErrorSuppressed - (accepted ++ [value]).length = n := by
          rw [List.length_append, List.length_singleton]
          omega
        rw [fewer, left, List.take_succ_cons, List.append_assoc, List.singleton_append]
    · rename_i full
      obtain rfl := Except.ok.inj step
      have none : h.limits.maxErrorSuppressed - accepted.length = 0 := by omega
      rw [none, List.take_zero, List.take_zero]

theorem boundSuppressed_spec {h : Heap} {given bounded : ErrorMetadata}
    (ok : boundSuppressed h given = .ok bounded) : ∃ suppressed : Buffer Value,
      suppressed.items = given.suppressed.items.take h.limits.maxErrorSuppressed ∧
        bounded = { given with
          suppressed
          truncated.suppressedErrors := saturatingAdd given.truncated.suppressedErrors
            (given.suppressed.items.length - suppressed.items.length) } := by
  obtain ⟨accepted, folded, ok⟩ := bind_ok ok
  have taken := acceptSuppressed_take folded
  rw [List.nil_append, List.length_nil, Nat.sub_zero] at taken
  exact ⟨_, taken, (Except.ok.inj ok).symm⟩

/-- Bounding the details leaves the rest of the error alone. -/
theorem boundDetails_spec {h : Heap} {given bounded : ErrorMetadata}
    (ok : boundDetails h given = .ok bounded) : ∃ details context detailsReplaced detailBytes,
      bounded = { given with
        details
        context
        truncated := { given.truncated with detailsReplaced, detailBytes } } := by
  obtain ⟨counted, -, ok⟩ := bind_ok ok
  obtain ⟨bytes, -, ok⟩ := bind_ok ok
  split at ok
  · exact ⟨_, _, _, _, (Except.ok.inj ok).symm⟩
  · exact ⟨_, _, _, _, (Except.ok.inj ok).symm⟩

/-- What is prepared for a given error is bounded. -/
theorem prepareError_bounded {h : Heap} {given stored : ErrorMetadata}
    (ok : prepareError given h = .ok stored) : BoundedError h.limits given stored := by
  obtain ⟨withMessage, first, ok⟩ := bind_ok ok
  obtain ⟨_, -, ok⟩ := bind_ok ok
  obtain ⟨_, -, ok⟩ := bind_ok ok
  obtain ⟨_, -, ok⟩ := bind_ok ok
  obtain ⟨withSuppressed, third, ok⟩ := bind_ok ok
  obtain ⟨message, longest, rfl⟩ := boundMessage_spec first
  obtain ⟨stack, ends, second⟩ := boundStack_spec h _
  rw [second] at third
  obtain ⟨suppressed, taken, rfl⟩ := boundSuppressed_spec third
  obtain ⟨details, context, detailsReplaced, detailBytes, rfl⟩ := boundDetails_spec ok
  exact ⟨longest, rfl, ends, rfl, taken, rfl, rfl⟩

/-- What `deriveError` gives to `allocateError`: a copy of the primary with the additions. -/
structure DerivedError (p : Platform) (primary : ErrorMetadata) (additions : ErrorDerivation)
    (given : ErrorMetadata) : Prop where
  message : given.message.items = primary.message.items
  stack : given.stack.items = primary.stack.items.map (copyFrame p)
  suppressed : given.suppressed.items = primary.suppressed.items ++ additions.suppressed
  cause : given.cause = additions.cause.or primary.cause
  truncated : given.truncated = primary.truncated

theorem deriveMetadata_spec {h : Heap} {reference : HeapRef} {additions : ErrorDerivation}
    {given : ErrorMetadata} (ok : deriveMetadata reference additions h = .ok given) :
    ∃ primary, expected CellData.error? reference h = .ok primary ∧
      DerivedError h.platform primary additions given := by
  unfold deriveMetadata at ok
  split at ok
  · exact absurd ok nofun
  obtain ⟨primary, found, ok⟩ := bind_ok ok
  dsimp only at ok
  split at ok
  · exact absurd ok nofun
  obtain rfl := Except.ok.inj ok
  exact ⟨primary, found, rfl, rfl, rfl, rfl, rfl⟩

end Baas.Script
