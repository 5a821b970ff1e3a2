import Mathlib.Data.List.Basic
import Mathlib.Data.List.TakeWhile

/-! The identifiers of the host registry. -/
namespace Baas.Script

abbrev HostName := List UInt8

def isLower (character : UInt8) : Bool := 97 ≤ character && character ≤ 122

/-- What an identifier may go on with: lower-case letters, digits and underscores. -/
def isLowerRest (character : UInt8) : Bool :=
  isLower character || (48 ≤ character && character ≤ 57) || character == 95

def isLowerIdentifier : HostName → Bool
  | [] => false
  | first :: rest => isLower first && rest.all isLowerRest

def dot : UInt8 := 46

/-- The segments of `rest`, up to the end or to a segment that is no identifier. -/
def dottedFrom (sawDot : Bool) (rest : HostName) : Bool :=
  if rest = [] then sawDot
  else
    let segment := rest.takeWhile (· != dot)
    if !isLowerIdentifier segment then false
    else
      match _found : rest.dropWhile (· != dot) with
      | [] => sawDot
      | _ :: later => dottedFrom true later
termination_by rest.length
decreasing_by
  have shorter := (List.dropWhile_sublist (l := rest) (· != dot)).length_le
  rw [_found, List.length_cons] at shorter
  omega

def isDottedIdentifier (value : HostName) : Bool := dottedFrom false value

/-! What the identifiers are for: segments between dots. -/

/-- A lower-case letter, and then characters an identifier may go on with. -/
def LowerIdentifier (segment : HostName) : Prop :=
  ∃ first rest, segment = first :: rest ∧ (97 ≤ first ∧ first ≤ 122) ∧
    ∀ c ∈ rest, (97 ≤ c ∧ c ≤ 122) ∨ (48 ≤ c ∧ c ≤ 57) ∨ c = 95

/-- The segments with single dots between them. -/
def dotted (segments : List HostName) : HostName := List.intercalate [dot] segments

def Dotted (value : HostName) : Prop :=
  ∃ segments, 2 ≤ segments.length ∧ (∀ s ∈ segments, LowerIdentifier s) ∧
    value = dotted segments

/-- Segments with a last dot that no segment follows. -/
def TrailingDot (value : HostName) : Prop :=
  ∃ segments, segments ≠ [] ∧ (∀ s ∈ segments, LowerIdentifier s) ∧
    value = dotted segments ++ [dot]

theorem isLower_iff {c : UInt8} : isLower c = true ↔ 97 ≤ c ∧ c ≤ 122 := by
  rw [isLower, Bool.and_eq_true, decide_eq_true_iff, decide_eq_true_iff]

theorem isLowerIdentifier_iff {segment : HostName} :
    isLowerIdentifier segment = true ↔ LowerIdentifier segment := by
  cases segment with
  | nil => exact ⟨nofun, fun ⟨_, _, absent, _⟩ => nomatch absent⟩
  | cons first rest =>
    have permitted : ∀ c, isLowerRest c = true ↔
        (97 ≤ c ∧ c ≤ 122) ∨ (48 ≤ c ∧ c ≤ 57) ∨ c = 95 := by
      intro c
      simp only [isLowerRest, Bool.or_eq_true, isLower_iff, Bool.and_eq_true, decide_eq_true_eq,
        beq_iff_eq, or_assoc]
    rw [isLowerIdentifier, Bool.and_eq_true, isLower_iff, List.all_eq_true]
    constructor
    · rintro ⟨lower, more⟩
      exact ⟨first, rest, rfl, lower, fun c inside => (permitted c).mp (more c inside)⟩
    · rintro ⟨first', rest', same, lower, more⟩
      obtain ⟨rfl, rfl⟩ := List.cons.inj same
      exact ⟨lower, fun c inside => (permitted c).mpr (more c inside)⟩

theorem LowerIdentifier.no_dot {segment : HostName} (lower : LowerIdentifier segment) :
    ∀ c ∈ segment, (c != dot) = true := by
  obtain ⟨first, rest, rfl, letter, more⟩ := lower
  have other : ∀ c : UInt8, (97 ≤ c ∧ c ≤ 122) ∨ (48 ≤ c ∧ c ≤ 57) ∨ c = 95 → c ≠ dot := by
    rintro c permitted rfl
    revert permitted
    decide
  intro c inside
  rw [bne_iff_ne]
  obtain rfl | later := List.mem_cons.mp inside
  · exact other c (.inl letter)
  · exact other c (more c later)

theorem LowerIdentifier.ne_nil {segment : HostName} (lower : LowerIdentifier segment) :
    segment ≠ [] := by
  obtain ⟨first, rest, rfl, -⟩ := lower
  exact List.cons_ne_nil first rest

theorem dotted_singleton (segment : HostName) : dotted [segment] = segment := by
  simp [dotted, List.intercalate]

theorem dotted_cons (segment : HostName) {more : List HostName} (some : more ≠ []) :
    dotted (segment :: more) = segment ++ dot :: dotted more := by
  obtain ⟨next, rest, rfl⟩ := List.exists_cons_of_ne_nil some
  simp [dotted, List.intercalate, List.intersperse]

/-- A segment at the end. -/
theorem dottedFrom_last {segment : HostName} (lower : LowerIdentifier segment) (sawDot : Bool) :
    dottedFrom sawDot segment = sawDot := by
  rw [dottedFrom.eq_def, if_neg lower.ne_nil]
  have whole := List.takeWhile_eq_self_iff.mpr lower.no_dot
  have nothing := List.dropWhile_eq_nil_iff.mpr lower.no_dot
  dsimp only
  rw [whole, isLowerIdentifier_iff.mpr lower, if_neg (by decide)]
  split
  · rfl
  · rename_i found
    rw [nothing] at found
    exact absurd found nofun

/-- A segment before a dot. -/
theorem dottedFrom_dot {segment : HostName} (lower : LowerIdentifier segment) (sawDot : Bool)
    (later : HostName) :
    dottedFrom sawDot (segment ++ dot :: later) = dottedFrom true later := by
  have some : segment ++ dot :: later ≠ [] := by simp
  rw [dottedFrom.eq_def, if_neg some]
  have before : (segment ++ dot :: later).takeWhile (· != dot) = segment := by
    rw [List.takeWhile_append_of_pos lower.no_dot]
    simp
  have after : (segment ++ dot :: later).dropWhile (· != dot) = dot :: later := by
    rw [List.dropWhile_append_of_pos lower.no_dot]
    simp
  dsimp only
  rw [before, isLowerIdentifier_iff.mpr lower, if_neg (by decide)]
  split
  · rename_i found
    rw [after] at found
    exact absurd found nofun
  · rename_i found
    rw [after] at found
    rw [(List.cons.inj found).2]

theorem dottedFrom_dotted {segments : List HostName} (some : segments ≠ [])
    (lower : ∀ s ∈ segments, LowerIdentifier s) (sawDot : Bool) :
    dottedFrom sawDot (dotted segments) = (sawDot || decide (2 ≤ segments.length)) := by
  induction segments generalizing sawDot with
  | nil => exact absurd rfl some
  | cons segment more ih =>
    rw [List.forall_mem_cons] at lower
    by_cases last : more = []
    · subst last
      rw [dotted_singleton, dottedFrom_last lower.1]
      simp
    · rw [dotted_cons segment last, dottedFrom_dot lower.1, ih last lower.2, Bool.true_or]
      have many : 2 ≤ (segment :: more).length := by
        rw [List.length_cons]
        have := List.length_pos_iff.mpr last
        omega
      rw [decide_eq_true many, Bool.or_true]

theorem dottedFrom_trailing {segments : List HostName} (some : segments ≠ [])
    (lower : ∀ s ∈ segments, LowerIdentifier s) (sawDot : Bool) :
    dottedFrom sawDot (dotted segments ++ [dot]) = true := by
  induction segments generalizing sawDot with
  | nil => exact absurd rfl some
  | cons segment more ih =>
    rw [List.forall_mem_cons] at lower
    by_cases last : more = []
    · subst last
      rw [dotted_singleton, dottedFrom_dot lower.1, dottedFrom.eq_def, if_pos rfl]
    · rw [dotted_cons segment last, List.append_assoc, List.cons_append, dottedFrom_dot lower.1]
      exact ih last lower.2 true

/-- What the pass over the segments has read when it accepts. -/
theorem dottedFrom_reads {sawDot : Bool} {rest : HostName}
    (accepts : dottedFrom sawDot rest = true) :
    rest = [] ∧ sawDot = true ∨ ∃ segments, segments ≠ [] ∧
      (∀ s ∈ segments, LowerIdentifier s) ∧
        (rest = dotted segments ∧ (sawDot = true ∨ 2 ≤ segments.length) ∨
          rest = dotted segments ++ [dot]) := by
  fun_induction dottedFrom sawDot rest with
  | case1 sawDot => exact .inl ⟨rfl, accepts⟩
  | case2 => exact absurd accepts Bool.false_ne_true
  | case3 sawDot rest some segment lower found =>
    have whole := List.takeWhile_append_dropWhile (p := (· != dot)) (l := rest)
    rw [found, List.append_nil] at whole
    have lower : LowerIdentifier segment := isLowerIdentifier_iff.mp (by simpa using lower)
    refine .inr ⟨[segment], List.cons_ne_nil _ _, ?_, .inl ⟨?_, .inl accepts⟩⟩
    · simpa using lower
    · rw [dotted_singleton]
      exact whole.symm
  | case4 sawDot rest some segment lower d later found ih =>
    have whole := List.takeWhile_append_dropWhile (p := (· != dot)) (l := rest)
    have lower : LowerIdentifier segment := isLowerIdentifier_iff.mp (by simpa using lower)
    have here : d = dot := by
      have stops := @List.head_dropWhile_not _ (· != dot) rest (by rw [found]; exact List.cons_ne_nil _ _)
      simpa [found] using stops
    rw [found, here] at whole
    obtain ⟨rfl, -⟩ | ⟨segments, more, lowers, reads⟩ := ih accepts
    · refine .inr ⟨[segment], List.cons_ne_nil _ _, by simpa using lower, .inr ?_⟩
      rw [dotted_singleton]
      exact whole.symm
    · refine .inr ⟨segment :: segments, List.cons_ne_nil _ _,
        List.forall_mem_cons.mpr ⟨lower, lowers⟩, ?_⟩
      have many : 2 ≤ (segment :: segments).length := by
        rw [List.length_cons]
        have := List.length_pos_iff.mpr more
        omega
      rw [dotted_cons segment more, ← whole]
      obtain ⟨rfl, -⟩ | rfl := reads
      · exact .inl ⟨rfl, .inr many⟩
      · exact .inr (by rw [List.append_assoc, List.cons_append])

/-- The code accepts the dotted identifiers, and those with a last dot as well. -/
theorem isDottedIdentifier_iff (value : HostName) :
    isDottedIdentifier value = true ↔ Dotted value ∨ TrailingDot value := by
  constructor
  · intro accepts
    obtain ⟨-, never⟩ | ⟨segments, some, lower, ⟨rfl, never | many⟩ | rfl⟩ :=
      dottedFrom_reads accepts
    · exact absurd never Bool.false_ne_true
    · exact absurd never Bool.false_ne_true
    · exact .inl ⟨segments, many, lower, rfl⟩
    · exact .inr ⟨segments, some, lower, rfl⟩
  · rintro (⟨segments, many, lower, rfl⟩ | ⟨segments, some, lower, rfl⟩)
    · have some : segments ≠ [] := by
        rintro rfl
        exact absurd many (by decide)
      rw [isDottedIdentifier, dottedFrom_dotted some lower, decide_eq_true many, Bool.or_true]
    · exact dottedFrom_trailing some lower false

theorem dotted_last {segments : List HostName} (some : segments ≠ [])
    (lower : ∀ s ∈ segments, LowerIdentifier s) : ∃ init c, dotted segments = init ++ [c] ∧
      c ≠ dot := by
  induction segments with
  | nil => exact absurd rfl some
  | cons segment more ih =>
    rw [List.forall_mem_cons] at lower
    by_cases last : more = []
    · subst last
      obtain ⟨init, c, parts⟩ := (List.eq_nil_or_concat segment).resolve_left lower.1.ne_nil
      rw [List.concat_eq_append] at parts
      refine ⟨init, c, by rw [dotted_singleton, parts], ?_⟩
      exact bne_iff_ne.mp (lower.1.no_dot c (parts ▸ by simp))
    · obtain ⟨init, c, parts, other⟩ := ih last lower.2
      exact ⟨segment ++ dot :: init, c, by rw [dotted_cons segment last, parts]; simp, other⟩

theorem not_trailing {value : HostName} (good : Dotted value) : ¬ TrailingDot value := by
  obtain ⟨segments, many, lower, rfl⟩ := good
  rintro ⟨others, -, -, same⟩
  have some : segments ≠ [] := by
    rintro rfl
    exact absurd many (by decide)
  obtain ⟨init, c, parts, other⟩ := dotted_last some lower
  rw [parts] at same
  exact other (List.singleton_inj.mp (List.append_inj_right' same rfl))

/-- The code meets its purpose on every value but the ones with a last dot. -/
theorem dotted_identifiers (value : HostName) :
    (isDottedIdentifier value = true ↔ Dotted value) ↔ ¬ TrailingDot value := by
  rw [isDottedIdentifier_iff]
  constructor
  · intro exact' trailing
    exact not_trailing (exact'.mp (.inr trailing)) trailing
  · intro no
    exact ⟨fun either => either.resolve_right no, .inl⟩

/-- `a.` is accepted. -/
theorem trailing_dot_accepted : ¬ ∀ value, isDottedIdentifier value = true ↔ Dotted value := by
  intro claimed
  have lower : LowerIdentifier [97] := ⟨97, [], rfl, by decide, nofun⟩
  have trailing : TrailingDot [97, 46] :=
    ⟨[[97]], List.cons_ne_nil _ _, by simpa using lower, rfl⟩
  have accepts : isDottedIdentifier [97, 46] = true := by decide +kernel
  exact not_trailing ((claimed _).mp accepts) trailing

end Baas.Script
