import Baas.Lib.ByteOrder
import Baas.Lib.JsonGrammar
import Baas.Lib.PathText
import Baas.Script.Heap
import Baas.Script.Text

/-! `validate_module_specifier`: the logical names under which modules are imported. -/
namespace Baas.Modules

open Baas.Script (Bytes ModuleKind isValidUtf8)

inductive ModuleSpecifierErrorCode
  | empty | byteLimitExceeded | segmentLimitExceeded | invalidUtf8 | nfcCheckUnavailable | notNfc
  | leadingSlash | drivePrefix | backslash | embeddedNul | emptySegment | dotSegment
  | sourceExtension
deriving DecidableEq

structure ModuleSpecifierError where
  code : ModuleSpecifierErrorCode
  message : String
deriving DecidableEq

/-- What is thrown: `std::invalid_argument` for limits that make no sense, or the error. -/
inductive SpecifierFailure
  | invalidArgument (message : String)
  | specifier (error : ModuleSpecifierError)
deriving DecidableEq

structure ModuleSpecifierLimits where
  maxBytes : Nat
  maxSegments : Nat

structure ModuleSpecifier where
  kind : ModuleKind
  canonicalId : Bytes
deriving DecidableEq

def isAsciiAlpha (byte : UInt8) : Bool :=
  (65 ≤ byte && byte ≤ 90) || (97 ≤ byte && byte ≤ 122)

/-- `baas/` -/
def hostPrefix : Bytes := [98, 97, 97, 115, 47]

/-- `.baas` -/
def sourceExtension : Bytes := [46, 98, 97, 97, 115]

def drivePrefix : Bytes → Bool
  | letter :: 58 :: _ => isAsciiAlpha letter
  | _ => false

/-- Fails where something is wrong. -/
def refuse (wrong : Bool) (code : ModuleSpecifierErrorCode) (message : String) :
    Except SpecifierFailure Unit := if wrong then .error (.specifier ⟨code, message⟩) else .ok ()

/-- ASCII is already normal. The predicate may be missing. -/
def checkNfc (isNfc : Option (Bytes → Bool)) (specifier : Bytes) :
    Except SpecifierFailure Unit :=
  if specifier.any (0x80 ≤ ·) then
    match isNfc with
    | none =>
      refuse true .nfcCheckUnavailable "non-ASCII module specifier requires an NFC validator"
    | some isNfc => refuse (!isNfc specifier) .notNfc "module specifier is not NFC"
  else .ok ()

/-- The loop over the segments, of which `count` are behind it. -/
def checkSegments (limit : Nat) : Nat → List Bytes → Except SpecifierFailure Unit
  | _, [] => .ok ()
  | count, segment :: rest => do
    refuse (segment = []) .emptySegment "module specifier contains an empty segment"
    refuse (segment = [46] ∨ segment = [46, 46]) .dotSegment
      "module specifier contains a dot segment"
    refuse (count + 1 > limit) .segmentLimitExceeded "module specifier exceeds segment limit"
    checkSegments limit (count + 1) rest

def validateModuleSpecifier (isNfc : Option (Bytes → Bool)) (limits : ModuleSpecifierLimits)
    (specifier : Bytes) : Except SpecifierFailure ModuleSpecifier :=
  if limits.maxBytes = 0 ∨ limits.maxSegments = 0 then
    .error (.invalidArgument "module specifier limits must be positive")
  else do
    refuse (specifier = []) .empty "module specifier is empty"
    refuse (specifier.length > limits.maxBytes) .byteLimitExceeded
      "module specifier exceeds byte limit"
    refuse (!isValidUtf8 specifier) .invalidUtf8 "module specifier is not valid UTF-8"
    refuse (0 ∈ specifier) .embeddedNul "module specifier contains NUL"
    checkNfc isNfc specifier
    refuse (specifier.head? = some 47) .leadingSlash "module specifier has a leading slash"
    refuse (drivePrefix specifier) .drivePrefix "module specifier has a drive prefix"
    refuse (92 ∈ specifier) .backslash "module specifier contains a backslash"
    checkSegments limits.maxSegments 0 (specifier.splitOn 47)
    refuse (sourceExtension.isSuffixOf specifier) .sourceExtension
      "module specifier must be extensionless"
    return ⟨if hostPrefix.isPrefixOf specifier then .host else .package, specifier⟩

/-- What an accepted name is made of. -/
structure Logical (isNfc : Option (Bytes → Bool)) (limits : ModuleSpecifierLimits)
    (segments : List Bytes) : Prop where
  some : segments ≠ []
  few : segments.length ≤ limits.maxSegments
  short : ([47].intercalate segments).length ≤ limits.maxBytes
  plain : ∀ segment ∈ segments, segment ≠ [] ∧ segment ≠ [46] ∧ segment ≠ [46, 46] ∧
    47 ∉ segment ∧ 92 ∉ segment ∧ 0 ∉ segment
  valid : isValidUtf8 ([47].intercalate segments) = true
  normal : (∀ byte ∈ [47].intercalate segments, byte < 0x80) ∨
    ∃ nfc, isNfc = Option.some nfc ∧ nfc ([47].intercalate segments) = true
  drive : drivePrefix ([47].intercalate segments) = false
  bare : sourceExtension.isSuffixOf ([47].intercalate segments) = false

theorem refuse_ok {wrong : Bool} {code : ModuleSpecifierErrorCode} {message : String} {u : Unit} :
    refuse wrong code message = .ok u ↔ wrong = false := by
  rw [refuse]
  cases wrong
  · exact ⟨fun _ => rfl, fun _ => rfl⟩
  · exact ⟨fun no => (by cases no), fun no => (by cases no)⟩

theorem checkSegments_ok {limit count : Nat} {segments : List Bytes} {u : Unit} :
    checkSegments limit count segments = .ok u ↔
      (∀ segment ∈ segments, segment ≠ [] ∧ segment ≠ [46] ∧ segment ≠ [46, 46]) ∧
        (segments = [] ∨ count + segments.length ≤ limit) := by
  induction segments generalizing count with
  | nil =>
    refine ⟨fun _ => ⟨fun _ no => (List.not_mem_nil no).elim, .inl rfl⟩, fun _ => rfl⟩
  | cons segment rest ih =>
    simp only [checkSegments, JsonGrammar.bind_ok, refuse_ok, ih, decide_eq_false_iff_not,
      exists_const, not_or, List.forall_mem_cons, List.length_cons, List.cons_ne_nil, false_or]
    constructor
    · rintro ⟨some, dots, few, plain, within⟩
      refine ⟨⟨⟨some, dots⟩, plain⟩, ?_⟩
      obtain rfl | within := within
      · simpa using few
      · omega
    · rintro ⟨⟨⟨some, dots⟩, plain⟩, within⟩
      exact ⟨some, dots, by omega, plain, .inr (by omega)⟩

theorem checkNfc_ok {isNfc : Option (Bytes → Bool)} {specifier : Bytes} {u : Unit} :
    checkNfc isNfc specifier = .ok u ↔ (∀ byte ∈ specifier, byte < 0x80) ∨
      ∃ nfc, isNfc = some nfc ∧ nfc specifier = true := by
  rw [checkNfc.eq_def]
  split
  · rename_i high
    obtain ⟨byte, there, large⟩ := List.any_eq_true.mp high
    have not_ascii : ¬∀ byte ∈ specifier, byte < 0x80 := fun ascii =>
      absurd (ascii byte there) (not_lt.mpr (of_decide_eq_true large))
    rw [or_iff_right not_ascii]
    cases isNfc with
    | none =>
      refine ⟨fun no => ?_, fun ⟨_, no, _⟩ => (by cases no)⟩
      cases refuse_ok.mp no
    | some nfc => simp [refuse_ok]
  · rename_i low
    refine ⟨fun _ => .inl fun byte there => ?_, fun _ => rfl⟩
    refine not_le.mp fun large => low (List.any_eq_true.mpr ⟨byte, there, decide_eq_true large⟩)

theorem mem_joined {segments : List Bytes} {byte : UInt8} {segment : Bytes}
    (there : segment ∈ segments) (within : byte ∈ segment) : byte ∈ [47].intercalate segments := by
  induction segments with
  | nil => cases there
  | cons first rest ih =>
    cases rest with
    | nil =>
      cases List.mem_singleton.mp there
      rwa [List.intercalate_singleton]
    | cons second rest =>
      rw [List.intercalate_cons_cons]
      obtain rfl | later := List.mem_cons.mp there
      · exact List.mem_append_left _ (List.mem_append_left _ within)
      · exact List.mem_append_right _ (ih later)

/-- Joined segments are taken apart again. -/
theorem Logical.split {isNfc : Option (Bytes → Bool)} {limits : ModuleSpecifierLimits}
    {segments : List Bytes} (logical : Logical isNfc limits segments) :
    ([47].intercalate segments).splitOn 47 = segments :=
  List.splitOn_intercalate 47 (fun segment there => (logical.plain segment there).2.2.2.1)
    logical.some

theorem Logical.first {isNfc : Option (Bytes → Bool)} {limits : ModuleSpecifierLimits}
    {segments : List Bytes} (logical : Logical isNfc limits segments) :
    ∃ byte rest, [47].intercalate segments = byte :: rest ∧ byte ≠ 47 := by
  cases segments with
  | nil => exact absurd rfl logical.some
  | cons segment rest =>
    obtain ⟨nonempty, -, -, free, -⟩ := logical.plain segment List.mem_cons_self
    cases segment with
    | nil => exact absurd rfl nonempty
    | cons byte more =>
      have apart : byte ≠ 47 := fun same => free (same ▸ List.mem_cons_self)
      cases rest with
      | nil => exact ⟨byte, more, List.intercalate_singleton, apart⟩
      | cons second rest =>
        exact ⟨byte, more ++ [47] ++ [47].intercalate (second :: rest),
          List.intercalate_cons_cons, apart⟩

theorem Logical.joined_ne_nil {isNfc : Option (Bytes → Bool)} {limits : ModuleSpecifierLimits}
    {segments : List Bytes} (logical : Logical isNfc limits segments) :
    [47].intercalate segments ≠ [] := by
  obtain ⟨byte, rest, whole, -⟩ := logical.first
  rw [whole]
  exact List.cons_ne_nil byte rest

theorem Logical.no_leading_slash {isNfc : Option (Bytes → Bool)}
    {limits : ModuleSpecifierLimits} {segments : List Bytes}
    (logical : Logical isNfc limits segments) :
    ([47].intercalate segments).head? ≠ Option.some 47 := by
  obtain ⟨byte, rest, whole, apart⟩ := logical.first
  rw [whole, List.head?_cons]
  exact fun same => apart (Option.some.inj same)

/-- What none of the segments has is not in the name. -/
theorem absent_joined {segments : List Bytes} {byte : UInt8} (apart : byte ≠ 47)
    (free : ∀ segment ∈ segments, byte ∉ segment) : byte ∉ [47].intercalate segments := by
  intro there
  obtain same | ⟨segment, within, inside⟩ := PathText.mem_join there
  · exact apart same
  · exact free segment within inside

theorem host_segments {segments : List Bytes} (some : segments ≠ [])
    (free : ∀ segment ∈ segments, 47 ∉ segment) :
    hostPrefix <+: [47].intercalate segments ↔
      ∃ second rest, segments = [98, 97, 97, 115] :: second :: rest := by
  constructor
  · rintro ⟨back, whole⟩
    have parts : ([47].intercalate [[98, 97, 97, 115]] ++ 47 :: back).splitOn 47 =
        [98, 97, 97, 115] :: back.splitOn 47 :=
      PathText.split_prepend (List.cons_ne_nil [98, 97, 97, 115] []) (by decide)
    have same : [47].intercalate [[98, 97, 97, 115]] ++ 47 :: back = hostPrefix ++ back := rfl
    rw [same, whole, List.splitOn_intercalate 47 free some] at parts
    cases names : back.splitOn 47 with
    | nil => exact absurd names (List.splitOn_ne_nil 47 back)
    | cons second rest => exact ⟨second, rest, by rw [parts, names]⟩
  · rintro ⟨second, rest, rfl⟩
    exact ⟨[47].intercalate (second :: rest), by rw [List.intercalate_cons_cons]; rfl⟩

/-- A name is accepted exactly when its segments, joined by slashes, make a logical name. It is
taken as it is; a host module has `baas` as the first of several segments. -/
theorem validateModuleSpecifier_ok {isNfc : Option (Bytes → Bool)} {limits : ModuleSpecifierLimits}
    {specifier : Bytes} {result : ModuleSpecifier} :
    validateModuleSpecifier isNfc limits specifier = .ok result ↔
      ∃ segments, Logical isNfc limits segments ∧ specifier = [47].intercalate segments ∧
        result.canonicalId = specifier ∧
        (result.kind = .host ↔ ∃ second rest, segments = [98, 97, 97, 115] :: second :: rest) := by
  have kinds : ∀ segments : List Bytes, segments ≠ [] → (∀ segment ∈ segments, 47 ∉ segment) →
      ((if hostPrefix.isPrefixOf ([47].intercalate segments) then ModuleKind.host
        else .package) = .host ↔ ∃ second rest, segments = [98, 97, 97, 115] :: second :: rest) := by
    intro segments some free
    rw [← host_segments some free, ← List.isPrefixOf_iff_prefix]
    split
    · rename_i host
      exact ⟨fun _ => host, fun _ => rfl⟩
    · rename_i package
      exact ⟨fun no => (by cases no), fun host => absurd host package⟩
  rw [validateModuleSpecifier]
  split
  · rename_i zero
    refine ⟨fun no => (by cases no), ?_⟩
    rintro ⟨segments, logical, rfl, -⟩
    obtain none | none := zero
    · have empty := logical.short
      rw [none, Nat.le_zero, List.length_eq_zero_iff] at empty
      exact absurd empty logical.joined_ne_nil
    · have few := logical.few
      rw [none, Nat.le_zero, List.length_eq_zero_iff] at few
      exact absurd few logical.some
  · simp only [JsonGrammar.bind_ok, refuse_ok, checkNfc_ok, checkSegments_ok, exists_const,
      decide_eq_false_iff_not, Bool.not_eq_false', pure, Except.pure, Except.ok.injEq]
    constructor
    · rintro ⟨-, short, valid, nul, normal, -, drive, back, ⟨plain, few⟩, bare, rfl⟩
      have whole : [47].intercalate (specifier.splitOn 47) = specifier :=
        List.intercalate_splitOn 47
      have some : specifier.splitOn 47 ≠ [] := List.splitOn_ne_nil 47 specifier
      have free : ∀ segment ∈ specifier.splitOn 47, 47 ∉ segment :=
        fun segment there => PathText.name_free there
      have within : ∀ segment ∈ specifier.splitOn 47, ∀ byte ∈ segment, byte ∈ specifier :=
        fun segment there byte inside => whole ▸ mem_joined there inside
      refine ⟨specifier.splitOn 47, ⟨some, ?_, ?_, ?_, ?_, ?_, ?_, ?_⟩, whole.symm, rfl, ?_⟩
      · rw [or_iff_right some, Nat.zero_add] at few
        exact few
      · rw [whole]
        exact Nat.not_lt.mp short
      · intro segment there
        obtain ⟨nonempty, one, two⟩ := plain segment there
        exact ⟨nonempty, one, two, free segment there, fun inside => back (within _ there _ inside),
          fun inside => nul (within _ there _ inside)⟩
      · rwa [whole]
      · rwa [whole]
      · rwa [whole]
      · rwa [whole]
      · have kind := kinds (specifier.splitOn 47) some free
        rwa [whole] at kind
    · rintro ⟨segments, logical, rfl, same, kind⟩
      have free : ∀ segment ∈ segments, 47 ∉ segment :=
        fun segment there => (logical.plain segment there).2.2.2.1
      refine ⟨logical.joined_ne_nil, Nat.not_lt.mpr logical.short, logical.valid, ?_,
        logical.normal, logical.no_leading_slash, logical.drive, ?_, ⟨?_, .inr ?_⟩, logical.bare, ?_⟩
      · exact absent_joined (by decide) fun segment there => (logical.plain segment there).2.2.2.2.2
      · exact absent_joined (by decide) fun segment there => (logical.plain segment there).2.2.2.2.1
      · intro segment there
        rw [logical.split] at there
        obtain ⟨nonempty, one, two, -⟩ := logical.plain segment there
        exact ⟨nonempty, one, two⟩
      · rw [logical.split, Nat.zero_add]
        exact logical.few
      · obtain ⟨resultKind, resultId⟩ := result
        have kinds := (kinds segments logical.some free).trans kind.symm
        dsimp only at same kinds
        rw [same]
        congr 1
        cases resultKind with
        | host => exact kinds.mpr rfl
        | package =>
          split
          · rename_i host
            rw [if_pos host] at kinds
            exact absurd (kinds.mp rfl) (by decide)
          · rfl

end Baas.Modules
