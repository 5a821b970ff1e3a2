import Mathlib.Data.List.Basic
import Mathlib.Data.String.Basic

/-! The JSON values of the procedure host, and what it checks of options and result payloads. -/
namespace Baas.Procedure

/-- A float is kept by its bits. -/
inductive JsonValue
  | null
  | boolean (value : Bool)
  | integer (value : Int)
  | float (bits : UInt64)
  | string (value : String)
  | array (items : List JsonValue)
  | object (members : List (String × JsonValue))

inductive ResultJsonType
  | null | boolean | integer | float | string | array | object
deriving DecidableEq

inductive ResultFieldSchema
  | mk (name : String) (required : Bool) (type : ResultJsonType)
      (children : List ResultFieldSchema)

namespace ResultFieldSchema

def name : ResultFieldSchema → String
  | mk name _ _ _ => name

def required : ResultFieldSchema → Bool
  | mk _ required _ _ => required

def type : ResultFieldSchema → ResultJsonType
  | mk _ _ type _ => type

def children : ResultFieldSchema → List ResultFieldSchema
  | mk _ _ _ children => children

end ResultFieldSchema

def JsonValue.kind : JsonValue → ResultJsonType
  | .null => .null
  | .boolean _ => .boolean
  | .integer _ => .integer
  | .float _ => .float
  | .string _ => .string
  | .array _ => .array
  | .object _ => .object

/-- The exponent of a double that is infinite or no number is all ones. -/
def finiteBits (bits : UInt64) : Bool := bits &&& 0x7FF0000000000000 ≠ 0x7FF0000000000000

structure HostLimits where
  maxOptionDepth : Nat
  maxOptionNodes : Nat
  maxOptionBytes : Nat
  maxOptionWork : Nat
  maxCalls : Nat
  maxResultDepth : Nat
  maxResultNodes : Nat
  maxResultStringBytes : Nat
  maxResultTotalBytes : Nat
  maxResultValidationWork : Nat

def addBounded (target amount limit : Nat) : Option Nat :=
  if limit < amount ∨ limit - amount < target then none else some (target + amount)

/-! Result payloads. -/

inductive ResultValidationCode
  | valid | schemaMismatch | limitExceeded
deriving DecidableEq

structure ResultMetrics where
  nodes : Nat := 0
  stringBytes : Nat := 0
  totalBytes : Nat := 0
  work : Nat := 0

inductive ResultValidationFailure
  | schemaMismatch | limitExceeded

def ResultValidationFailure.code : ResultValidationFailure → ResultValidationCode
  | .schemaMismatch => .schemaMismatch
  | .limitExceeded => .limitExceeded

/-- Goes on with the metrics, or stops. -/
abbrev Validation (α : Type) := Except ResultValidationFailure α

def charged {α : Type} : Option α → Validation α
  | some a => .ok a
  | none => .error .limitExceeded

namespace ResultMetrics

def addNode (limits : HostLimits) (m : ResultMetrics) : Validation ResultMetrics :=
  charged ((addBounded m.nodes 1 limits.maxResultNodes).map (fun nodes => { m with nodes }))

def addString (limits : HostLimits) (amount : Nat) (m : ResultMetrics) :
    Validation ResultMetrics :=
  charged ((addBounded m.stringBytes amount limits.maxResultStringBytes).map
    (fun stringBytes => { m with stringBytes }))

def addTotal (limits : HostLimits) (amount : Nat) (m : ResultMetrics) :
    Validation ResultMetrics :=
  charged ((addBounded m.totalBytes amount limits.maxResultTotalBytes).map
    (fun totalBytes => { m with totalBytes }))

def addWork (limits : HostLimits) (m : ResultMetrics) : Validation ResultMetrics :=
  charged ((addBounded m.work 1 limits.maxResultValidationWork).map
    (fun work => { m with work }))

def enter (limits : HostLimits) (m : ResultMetrics) : Validation ResultMetrics := do
  let m ← m.addNode limits
  let m ← m.addTotal limits 1
  m.addWork limits

end ResultMetrics

/-- The fields that are left are optional. -/
def skipOptional (limits : HostLimits) : List ResultFieldSchema → ResultMetrics →
    Validation ResultMetrics
  | [], m => .ok m
  | schema :: rest, m => do
    if schema.required then .error .schemaMismatch
    else skipOptional limits rest (← m.addWork limits)

/-- The fields from the one with this name on. -/
def seekField (limits : HostLimits) (key : String) : List ResultFieldSchema → ResultMetrics →
    Validation (List ResultFieldSchema × ResultMetrics)
  | [], m => .ok ([], m)
  | schema :: rest, m => do
    if schema.name = key then .ok (schema :: rest, m)
    else if schema.required then .error .schemaMismatch
    else seekField limits key rest (← m.addWork limits)

/-- What is charged for a key. -/
def chargeKey (limits : HostLimits) (key : String) (m : ResultMetrics) :
    Validation ResultMetrics := do
  let m ← m.addWork limits
  if key = "" ∨ key = "end" then .error .schemaMismatch
  else
    let m ← m.addString limits key.utf8ByteSize
    let m ← m.addTotal limits key.utf8ByteSize
    m.addTotal limits 8

mutual

def validateResultValue (limits : HostLimits) (value : JsonValue) (schema : ResultFieldSchema)
    (depth : Nat) (m : ResultMetrics) : Validation ResultMetrics := do
  if limits.maxResultDepth < depth then .error .limitExceeded
  else
    let m ← m.enter limits
    if value.kind ≠ schema.type then .error .schemaMismatch
    else match value with
      | .null => .ok m
      | .boolean _ => m.addTotal limits 1
      | .integer _ => m.addTotal limits 8
      | .float bits =>
        if finiteBits bits then m.addTotal limits 8 else .error .schemaMismatch
      | .string text => do
        let m ← m.addString limits text.utf8ByteSize
        m.addTotal limits text.utf8ByteSize
      | .array items =>
        match schema.children with
        | [item] => validateResultItems limits items item depth m
        | _ => .error .schemaMismatch
      | .object members =>
        if limits.maxResultDepth < depth + 1 then .error .limitExceeded
        else validateResultMembers limits members schema.children (depth + 1) m

def validateResultItems (limits : HostLimits) (items : List JsonValue)
    (item : ResultFieldSchema) (depth : Nat) (m : ResultMetrics) :
    Validation ResultMetrics := do
  match items with
  | [] => .ok m
  | child :: rest =>
    let m ← m.addTotal limits 8
    let m ← m.addWork limits
    let m ← validateResultValue limits child item (depth + 1) m
    validateResultItems limits rest item depth m

/-- The loop of `validate_result_object`. -/
def validateResultMembers (limits : HostLimits) (members : List (String × JsonValue))
    (schemas : List ResultFieldSchema) (depth : Nat) (m : ResultMetrics) :
    Validation ResultMetrics := do
  match members with
  | [] => skipOptional limits schemas m
  | (key, child) :: rest =>
    let m ← chargeKey limits key m
    match ← seekField limits key schemas m with
    | ([], _) => .error .schemaMismatch
    | (schema :: others, m) =>
      let m ← validateResultValue limits child schema depth m
      validateResultMembers limits rest others depth m

end

def validateResultObject (limits : HostLimits) (members : List (String × JsonValue))
    (schemas : List ResultFieldSchema) (depth : Nat) (m : ResultMetrics) :
    Validation ResultMetrics :=
  if limits.maxResultDepth < depth then .error .limitExceeded
  else validateResultMembers limits members schemas depth m

def validateResultPayload (payload : List (String × JsonValue))
    (schemas : List ResultFieldSchema) (limits : HostLimits) : ResultValidationCode :=
  match (do
    let m ← ({} : ResultMetrics).enter limits
    validateResultObject limits payload schemas 1 m) with
  | .ok _ => .valid
  | .error failure => failure.code

/-! Options. -/

structure OptionMetrics where
  nodes : Nat := 0
  bytes : Nat := 0
  work : Nat := 0

namespace OptionMetrics

def addBytes (limits : HostLimits) (amount : Nat) (m : OptionMetrics) : Option OptionMetrics :=
  (addBounded m.bytes amount limits.maxOptionBytes).map (fun bytes => { m with bytes })

def addWork (limits : HostLimits) (m : OptionMetrics) : Option OptionMetrics :=
  (addBounded m.work 1 limits.maxOptionWork).map (fun work => { m with work })

def addNode (limits : HostLimits) (m : OptionMetrics) : Option OptionMetrics :=
  (addBounded m.nodes 1 limits.maxOptionNodes).map (fun nodes => { m with nodes })

/-- The keys before a key differ from it. -/
def scanKeys (limits : HostLimits) (key : String) : List String → OptionMetrics →
    Option OptionMetrics
  | [], m => some m
  | previous :: rest, m => do
    let m ← m.addWork limits
    if previous = key then none else scanKeys limits key rest m

end OptionMetrics

mutual

def validateOptionValue (limits : HostLimits) (value : JsonValue) (depth : Nat)
    (m : OptionMetrics) : Option OptionMetrics := do
  if limits.maxOptionDepth < depth then none
  else
    let m ← m.addNode limits
    let m ← m.addWork limits
    match value with
    | .null => some m
    | .boolean _ => m.addBytes limits 1
    | .integer _ => m.addBytes limits 8
    | .float _ => m.addBytes limits 8
    | .string text => m.addBytes limits text.utf8ByteSize
    | .array items => validateOptionItems limits items depth m
    | .object members => validateOptionMembers limits members [] depth m

def validateOptionItems (limits : HostLimits) (items : List JsonValue) (depth : Nat)
    (m : OptionMetrics) : Option OptionMetrics := do
  match items with
  | [] => some m
  | child :: rest =>
    let m ← m.addWork limits
    let m ← validateOptionValue limits child (depth + 1) m
    validateOptionItems limits rest depth m

def validateOptionMembers (limits : HostLimits) (members : List (String × JsonValue))
    (keys : List String) (depth : Nat) (m : OptionMetrics) : Option OptionMetrics := do
  match members with
  | [] => some m
  | (key, child) :: rest =>
    if key = "" then none
    else
      let m ← m.addBytes limits key.utf8ByteSize
      let m ← m.addWork limits
      let m ← m.scanKeys limits key keys
      let m ← validateOptionValue limits child (depth + 1) m
      validateOptionMembers limits rest (keys ++ [key]) depth m

end

/-! What a valid payload is: the fields in the order of the schema, the required ones all
there, each value of the type of its field. -/

mutual

inductive Conforms : JsonValue → ResultFieldSchema → Prop
  | null {schema : ResultFieldSchema} : schema.type = .null → Conforms .null schema
  | boolean {value : Bool} {schema : ResultFieldSchema} :
      schema.type = .boolean → Conforms (.boolean value) schema
  | integer {value : Int} {schema : ResultFieldSchema} :
      schema.type = .integer → Conforms (.integer value) schema
  | float {bits : UInt64} {schema : ResultFieldSchema} :
      schema.type = .float → finiteBits bits = true → Conforms (.float bits) schema
  | string {value : String} {schema : ResultFieldSchema} :
      schema.type = .string → Conforms (.string value) schema
  | array {items : List JsonValue} {schema item : ResultFieldSchema} :
      schema.type = .array → schema.children = [item] →
      (∀ child ∈ items, Conforms child item) → Conforms (.array items) schema
  | object {members : List (String × JsonValue)} {schema : ResultFieldSchema} :
      schema.type = .object → ConformsMembers members schema.children →
      Conforms (.object members) schema

inductive ConformsMembers : List (String × JsonValue) → List ResultFieldSchema → Prop
  | nil : ConformsMembers [] []
  | absent {members : List (String × JsonValue)} {schema : ResultFieldSchema}
      {schemas : List ResultFieldSchema} : schema.required = false →
      ConformsMembers members schemas → ConformsMembers members (schema :: schemas)
  | present {key : String} {child : JsonValue} {members : List (String × JsonValue)}
      {schema : ResultFieldSchema} {schemas : List ResultFieldSchema} :
      schema.name = key → key ≠ "" → key ≠ "end" → Conforms child schema →
      ConformsMembers members schemas →
      ConformsMembers ((key, child) :: members) (schema :: schemas)

end

section Conforming

variable {limits : HostLimits}

theorem ok_of_bind {α β : Type} {x : Validation α} {f : α → Validation β} {b : β}
    (ok : x >>= f = .ok b) : ∃ a, x = .ok a ∧ f a = .ok b := by
  cases x with
  | error code => cases ok
  | ok a => exact ⟨a, rfl, ok⟩

theorem skipOptional_conforms {schemas : List ResultFieldSchema} {m m' : ResultMetrics}
    (ok : skipOptional limits schemas m = .ok m') : ConformsMembers [] schemas := by
  induction schemas generalizing m with
  | nil => exact .nil
  | cons schema rest ih =>
    unfold skipOptional at ok
    by_cases required : schema.required = true
    · rw [if_pos required] at ok
      cases ok
    · rw [if_neg required] at ok
      obtain ⟨charged, -, ok⟩ := ok_of_bind ok
      exact .absent (by simpa using required) (ih ok)

/-- What `seek_field` passes over is optional, and what it stops at has the name. -/
theorem seekField_conforms {key : String} {schemas left : List ResultFieldSchema}
    {m m' : ResultMetrics} (ok : seekField limits key schemas m = .ok (left, m'))
    {members : List (String × JsonValue)} :
    (∀ schema ∈ left.head?, schema.name = key) ∧
      (ConformsMembers members left → ConformsMembers members schemas) := by
  induction schemas generalizing m with
  | nil =>
    cases ok
    exact ⟨nofun, id⟩
  | cons schema rest ih =>
    unfold seekField at ok
    by_cases named : schema.name = key
    · rw [if_pos named] at ok
      cases ok
      refine ⟨?_, id⟩
      rintro found ⟨⟩
      exact named
    · rw [if_neg named] at ok
      by_cases required : schema.required = true
      · rw [if_pos required] at ok
        cases ok
      · rw [if_neg required] at ok
        obtain ⟨charged, -, ok⟩ := ok_of_bind ok
        obtain ⟨head, conforms⟩ := ih ok
        exact ⟨head, fun held => .absent (by simpa using required) (conforms held)⟩

theorem chargeKey_named {key : String} {m m' : ResultMetrics}
    (ok : chargeKey limits key m = .ok m') : key ≠ "" ∧ key ≠ "end" := by
  unfold chargeKey at ok
  obtain ⟨charged, -, ok⟩ := ok_of_bind ok
  by_cases reserved : key = "" ∨ key = "end"
  · rw [if_pos reserved] at ok
    cases ok
  · exact not_or.mp reserved

mutual

theorem conforms_of_value (value : JsonValue) {schema : ResultFieldSchema} {depth : Nat}
    {m m' : ResultMetrics} (ok : validateResultValue limits value schema depth m = .ok m') :
    Conforms value schema := by
  unfold validateResultValue at ok
  by_cases deep : limits.maxResultDepth < depth
  · rw [if_pos deep] at ok
    cases ok
  rw [if_neg deep] at ok
  obtain ⟨entered, -, ok⟩ := ok_of_bind ok
  by_cases differs : value.kind ≠ schema.type
  · rw [if_pos differs] at ok
    cases ok
  rw [if_neg differs] at ok
  have type : schema.type = value.kind := (not_ne_iff.mp differs).symm
  cases value with
  | null => exact .null type
  | boolean value => exact .boolean type
  | integer value => exact .integer type
  | float bits =>
    simp only at ok
    by_cases finite : finiteBits bits = true
    · exact .float type finite
    · rw [if_neg finite] at ok
      cases ok
  | string text => exact .string type
  | array items =>
    simp only at ok
    split at ok
    · next item children => exact .array type children (conforms_of_items items ok)
    · cases ok
  | object members =>
    simp only at ok
    by_cases deeper : limits.maxResultDepth < depth + 1
    · rw [if_pos deeper] at ok
      cases ok
    · rw [if_neg deeper] at ok
      exact .object type (conforms_of_members members ok)

theorem conforms_of_items (items : List JsonValue) {item : ResultFieldSchema} {depth : Nat}
    {m m' : ResultMetrics} (ok : validateResultItems limits items item depth m = .ok m') :
    ∀ child ∈ items, Conforms child item := by
  cases items with
  | nil => nofun
  | cons first rest =>
    unfold validateResultItems at ok
    obtain ⟨total, -, ok⟩ := ok_of_bind ok
    obtain ⟨work, -, ok⟩ := ok_of_bind ok
    obtain ⟨after, valid, ok⟩ := ok_of_bind ok
    intro child there
    obtain same | later := List.mem_cons.mp there
    · rw [same]
      exact conforms_of_value first valid
    · exact conforms_of_items rest ok child later

theorem conforms_of_members (members : List (String × JsonValue))
    {schemas : List ResultFieldSchema} {depth : Nat} {m m' : ResultMetrics}
    (ok : validateResultMembers limits members schemas depth m = .ok m') :
    ConformsMembers members schemas := by
  cases members with
  | nil =>
    unfold validateResultMembers at ok
    exact skipOptional_conforms ok
  | cons first rest =>
    obtain ⟨key, child⟩ := first
    unfold validateResultMembers at ok
    obtain ⟨charged, charge, ok⟩ := ok_of_bind ok
    obtain ⟨⟨left, sought⟩, seek, ok⟩ := ok_of_bind ok
    obtain ⟨head, conforms⟩ := seekField_conforms seek
    have named := chargeKey_named charge
    cases left with
    | nil => cases ok
    | cons schema others =>
      obtain ⟨after, valid, ok⟩ := ok_of_bind ok
      apply conforms
      exact .present (head schema rfl) named.1 named.2 (conforms_of_value child valid)
        (conforms_of_members rest ok)

end

theorem conforms_of_payload {payload : List (String × JsonValue)}
    {schemas : List ResultFieldSchema}
    (valid : validateResultPayload payload schemas limits = .valid) :
    ConformsMembers payload schemas := by
  unfold validateResultPayload at valid
  split at valid
  · next m ok =>
    obtain ⟨entered, -, ok⟩ := ok_of_bind ok
    unfold validateResultObject at ok
    by_cases deep : limits.maxResultDepth < 1
    · rw [if_pos deep] at ok
      cases ok
    · rw [if_neg deep] at ok
      exact conforms_of_members payload ok
  · next failure stopped => cases failure <;> cases valid

end Conforming

end Baas.Procedure
