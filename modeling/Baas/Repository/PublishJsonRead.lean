import Baas.Repository.PublishJson

/-! `parse_pointer` and `parse_journal` read back what `pointer_json` and `journal_json`
write. -/
namespace Baas.Repository

open JsonText

variable {rest : Text}

/-! Strings. -/

/-- A text that `quote_json` can quote. -/
def Plain (value : Text) : Prop := ∀ c ∈ value, ¬ c < 0x20

def quotedByte (c : UInt8) : Text := if c = 34 ∨ c = 92 then [92, c] else [c]

theorem quoteJson_append (value rest : Text) :
    quoteJson value ++ rest = 34 :: (value.flatMap quotedByte ++ 34 :: rest) := by
  change 34 :: ((value.flatMap quotedByte ++ [34]) ++ rest) = _
  rw [List.append_assoc]
  rfl

theorem stringBody_quotedByte (fuel : Nat) (result : Text) {c : UInt8} (plain : ¬ c < 0x20) :
    stringBody (fuel + 1) result (quotedByte c ++ rest) =
      stringBody fuel (result ++ [c]) rest := by
  unfold quotedByte
  by_cases special : c = 34 ∨ c = 92
  · have escape : simpleEscape c = some c := by
      unfold simpleEscape
      rw [if_pos (by tauto)]
    rw [if_pos special]
    simp [stringBody, take, escape, bind, Except.bind]
  · rw [if_neg special]
    rw [not_or] at special
    simp [stringBody, special.1, special.2, plain]

theorem stringBody_quoted {fuel : Nat} {value : Text} (plain : Plain value)
    (enough : value.length < fuel) (result : Text) :
    stringBody fuel result (value.flatMap quotedByte ++ 34 :: rest) =
      .ok (result ++ value, rest) := by
  induction value generalizing fuel result with
  | nil =>
    obtain ⟨fuel, rfl⟩ := Nat.exists_eq_add_one_of_ne_zero (Nat.ne_of_gt enough)
    simp [stringBody]
  | cons c more ih =>
    obtain ⟨fuel, rfl⟩ :=
      Nat.exists_eq_add_one_of_ne_zero (Nat.ne_of_gt (Nat.zero_lt_of_lt enough))
    unfold Plain at plain
    rw [List.forall_mem_cons] at plain
    rw [List.flatMap_cons, List.append_assoc, stringBody_quotedByte fuel result plain.1,
      ih plain.2 (by simpa using enough), List.append_assoc]
    rfl

theorem length_quoted (value : Text) : value.length ≤ (value.flatMap quotedByte).length := by
  induction value with
  | nil => exact Nat.zero_le _
  | cons c more ih =>
    have one : 1 ≤ (quotedByte c).length := by
      unfold quotedByte
      split <;> simp
    rw [List.flatMap_cons, List.length_append, List.length_cons]
    omega

theorem parseString_quoteJson {value : Text} (plain : Plain value) (rest : Text) :
    parseString (quoteJson value ++ rest) = .ok (value, rest) := by
  have bound := length_quoted value
  have read : stringBody ((value.flatMap quotedByte ++ 34 :: rest).length + 1) []
      (value.flatMap quotedByte ++ 34 :: rest) = .ok ([] ++ value, rest) := by
    apply stringBody_quoted plain
    simp only [List.length_append, List.length_cons]
    omega
  rw [quoteJson_append, parseString]
  simp only [take, bind, Except.bind]
  rw [if_neg (by decide)]
  exact read

/-! Objects with a member on each line. -/

structure Field where
  name : Text
  text : Text
  json : Json

/-- The members of an object, the bracket behind them included. -/
def fieldsText : List Field → Text
  | [] => [10, 125]
  | field :: more =>
    10 :: 32 :: 32 :: (quoteJson field.name ++ 58 :: 32 :: (field.text ++
      (if more = [] then [10, 125] else 44 :: fieldsText more)))

def Reads (value : Text → Except String (Json × Text)) (text : Text) (json : Json) : Prop :=
  ∀ rest, value (32 :: (text ++ rest)) = .ok (json, rest)

theorem skipWhitespace_space (c : UInt8) (tail : Text) (space : isWhitespace c = true) :
    skipWhitespace (c :: tail) = skipWhitespace tail := by
  simp [skipWhitespace, space]

theorem skipWhitespace_quoteJson (value rest : Text) :
    skipWhitespace (quoteJson value ++ rest) = quoteJson value ++ rest :=
  skipWhitespace_cons (by decide)

/-- What is left behind a member. -/
def behind (more : List Field) (rest : Text) : Text :=
  if more = [] then 10 :: 125 :: rest else 44 :: (fieldsText more ++ rest)

theorem skipWhitespace_fieldsText (field : Field) (more : List Field) (rest : Text) :
    skipWhitespace (fieldsText (field :: more) ++ rest) =
      quoteJson field.name ++ 58 :: 32 :: (field.text ++ behind more rest) := by
  have whole : fieldsText (field :: more) ++ rest = 10 :: 32 :: 32 ::
      (quoteJson field.name ++ 58 :: 32 :: (field.text ++ behind more rest)) := by
    cases more <;> simp [fieldsText, behind]
  rw [whole, skipWhitespace_space _ _ (by decide), skipWhitespace_space _ _ (by decide),
    skipWhitespace_space _ _ (by decide), skipWhitespace_quoteJson]

section Body

variable {value : Text → Except String (Json × Text)} {field : Field} {fields : List Field}

/-- One turn of the loop of `object`, on a member that is not yet there. -/
theorem objectBody_turn {fuel : Nat} {result : List (Text × Json)} {input : Text}
    (plain : Plain field.name) (reads : Reads value field.text field.json)
    (fresh : ∀ m ∈ result, m.1 ≠ field.name)
    (same : skipWhitespace input = skipWhitespace (fieldsText (field :: fields) ++ rest)) :
    objectBody value (fuel + 1) result input =
      if fields = [] then .ok (result ++ [(field.name, field.json)], rest)
      else objectBody value fuel (result ++ [(field.name, field.json)])
        (fieldsText fields ++ rest) := by
  have key := parseString_quoteJson plain
  have item : ∀ rest, value (32 :: (field.text ++ rest)) = .ok (field.json, rest) := reads
  have colon (tail : Text) : skipWhitespace (58 :: tail) = 58 :: tail :=
    skipWhitespace_cons (by decide)
  have comma (tail : Text) : skipWhitespace (44 :: tail) = 44 :: tail :=
    skipWhitespace_cons (by decide)
  have close : skipWhitespace (10 :: 125 :: rest) = 125 :: rest := by
    rw [skipWhitespace_space _ _ (by decide), skipWhitespace_cons (by decide)]
  have unused : result.any (fun m => decide (m.1 = field.name)) = false := by
    simpa using fun a b there => fresh (a, b) there
  rw [objectBody, same, skipWhitespace_fieldsText, key]
  by_cases last : fields = []
  · simp [behind, last, bind, Except.bind, colon, take, item, unused, close]
  · simp [behind, last, bind, Except.bind, colon, take, item, unused, comma]

theorem objectBody_fieldsText {fuel : Nat} {result : List (Text × Json)} {input : Text}
    (plain : ∀ f ∈ field :: fields, Plain f.name)
    (reads : ∀ f ∈ field :: fields, Reads value f.text f.json)
    (distinct : ((field :: fields).map Field.name).Nodup)
    (fresh : ∀ f ∈ field :: fields, ∀ m ∈ result, m.1 ≠ f.name)
    (enough : fields.length < fuel)
    (same : skipWhitespace input = skipWhitespace (fieldsText (field :: fields) ++ rest)) :
    objectBody value fuel result input =
      .ok (result ++ (field :: fields).map (fun f => (f.name, f.json)), rest) := by
  induction fields generalizing field fuel result input with
  | nil =>
    obtain ⟨fuel, rfl⟩ := Nat.exists_eq_add_one_of_ne_zero (Nat.ne_of_gt enough)
    rw [objectBody_turn (plain field (by simp)) (reads field (by simp)) (fresh field (by simp))
      same]
    rfl
  | cons next more ih =>
    obtain ⟨fuel, rfl⟩ :=
      Nat.exists_eq_add_one_of_ne_zero (Nat.ne_of_gt (Nat.zero_lt_of_lt enough))
    rw [List.map_cons, List.nodup_cons] at distinct
    rw [objectBody_turn (plain field (by simp)) (reads field (by simp)) (fresh field (by simp))
      same, if_neg (List.cons_ne_nil _ _)]
    have later : ∀ f ∈ next :: more, ∀ m ∈ result ++ [(field.name, field.json)],
        m.1 ≠ f.name := by
      intro f there m listed
      obtain old | new := List.mem_append.mp listed
      · exact fresh f (List.mem_cons_of_mem _ there) m old
      · cases List.mem_singleton.mp new
        intro equal
        apply distinct.1
        simp only at equal
        rw [equal]
        exact List.mem_map_of_mem there
    rw [ih (fun f there => plain f (List.mem_cons_of_mem _ there))
      (fun f there => reads f (List.mem_cons_of_mem _ there)) distinct.2 later
      (by simpa using enough) rfl]
    simp

theorem length_fieldsText (more : List Field) (rest : Text) :
    more.length < (field.text ++ behind more rest).length := by
  induction more generalizing field rest with
  | nil =>
    simp only [behind, List.length_append, List.length_cons, List.length_nil, if_true]
    omega
  | cons next more ih =>
    have shorter := @ih next rest
    have text : (fieldsText (next :: more) ++ rest).length ≥
        (next.text ++ behind more rest).length := by
      cases more <;> simp [fieldsText, behind] <;> omega
    simp only [behind, List.length_append, List.length_cons, reduceCtorEq, if_false]
      at shorter text ⊢
    omega

theorem parseObject_fieldsText (plain : ∀ f ∈ field :: fields, Plain f.name)
    (reads : ∀ f ∈ field :: fields, Reads value f.text f.json)
    (distinct : ((field :: fields).map Field.name).Nodup) (rest : Text) :
    parseObject value (fieldsText (field :: fields) ++ rest) =
      .ok (.object ((field :: fields).map (fun f => (f.name, f.json))), rest) := by
  have whole := skipWhitespace_fieldsText field fields rest
  have fuel : fields.length <
      (skipWhitespace (fieldsText (field :: fields) ++ rest)).length + 1 := by
    have long := @length_fieldsText field fields rest
    rw [whole]
    simp only [List.length_append, List.length_cons] at long ⊢
    omega
  have again : skipWhitespace (skipWhitespace (fieldsText (field :: fields) ++ rest)) =
      skipWhitespace (fieldsText (field :: fields) ++ rest) := by
    rw [whole, skipWhitespace_quoteJson]
  have body := @objectBody_fieldsText rest value field fields _ [] _ plain reads distinct
    (by simp) fuel again
  unfold parseObject
  rw [whole] at body ⊢
  rw [quoteJson_append] at body ⊢
  split
  · next same => simp at same
  · rw [body]
    rfl

end Body

/-! Values. -/

theorem reads_string (room : Nat) {value : Text} (plain : Plain value) :
    Reads (parseValue (room + 1)) (quoteJson value) (.string value) := by
  intro rest
  have read := parseString_quoteJson plain rest
  rw [quoteJson_append] at read ⊢
  rw [parseValue, skipWhitespace_space _ _ (by decide), skipWhitespace_cons (by decide)]
  simp [read, Except.map]

theorem reads_null (room : Nat) : Reads (parseValue (room + 1)) (ascii "null") .null := by
  intro rest
  have text : ascii "null" = [110, 117, 108, 108] := by rw [ascii_eq]; decide
  rw [parseValue, skipWhitespace_space _ _ (by decide), text, List.cons_append,
    skipWhitespace_cons (by decide)]
  simp

theorem reads_object (room : Nat) {field : Field} {fields : List Field}
    (plain : ∀ f ∈ field :: fields, Plain f.name)
    (reads : ∀ f ∈ field :: fields, Reads (parseValue room) f.text f.json)
    (distinct : ((field :: fields).map Field.name).Nodup) :
    Reads (parseValue (room + 1)) (123 :: fieldsText (field :: fields))
      (.object ((field :: fields).map (fun f => (f.name, f.json)))) := by
  intro rest
  rw [parseValue, skipWhitespace_space _ _ (by decide), List.cons_append,
    skipWhitespace_cons (by decide)]
  simpa using parseObject_fieldsText plain reads distinct rest

/-! Pointers and journals. -/

def field (name : String) (text : Text) (json : Json) : Field := ⟨ascii name, text, json⟩

def stringField (name : String) (value : Text) : Field :=
  field name (quoteJson value) (.string value)

def fieldValue (field : Field) : Text × Json := (field.name, field.json)

theorem exactMembers_fields (fields : List Field) :
    exactMembers (fields.map fieldValue) (fields.map Field.name) = .ok () := by
  have every : (fields.map Field.name).all
      (fun name => (fields.map fieldValue).any (·.1 = name)) = true := by
    simp only [List.all_eq_true, List.mem_map, List.any_eq_true, decide_eq_true_eq]
    rintro name ⟨field, there, rfl⟩
    exact ⟨fieldValue field, ⟨field, there, rfl⟩, rfl⟩
  unfold exactMembers
  rw [if_neg]
  rw [every, List.length_map, List.length_map]
  simp

theorem member_fields {fields : List Field} (distinct : (fields.map Field.name).Nodup)
    {field : Field} (there : field ∈ fields) :
    member (fields.map fieldValue) field.name = .ok field.json := by
  have found : (fields.map fieldValue).find? (fun m => decide (m.1 = field.name)) =
      some (fieldValue field) := by
    induction fields with
    | nil => cases there
    | cons first more ih =>
      rw [List.map_cons, List.nodup_cons] at distinct
      obtain rfl | later := List.mem_cons.mp there
      · simp [fieldValue]
      · have other : first.name ≠ field.name := by
          intro equal
          apply distinct.1
          rw [equal]
          exact List.mem_map_of_mem later
        rw [List.map_cons, List.find?_cons]
        simp only [fieldValue, other, decide_false]
        exact ih distinct.2 later
  unfold member
  rw [found]
  rfl

theorem stringMember_fields {fields : List Field} (distinct : (fields.map Field.name).Nodup)
    {name : String} {value : Text} (there : stringField name value ∈ fields) :
    stringMember (fields.map fieldValue) (ascii name) = .ok value := by
  have found : member (fields.map fieldValue) (ascii name) = .ok (.string value) :=
    member_fields distinct there
  simp [stringMember, found, bind, Except.bind]

def pointerFields (pointer : Pointer) : List Field :=
  [stringField "schema" currentSchema, stringField "generation" pointer.generation,
    stringField "snapshot" pointer.snapshot]

def pointerValue (pointer : Pointer) : Json :=
  .object ((pointerFields pointer).map fieldValue)

theorem line_eq (name : String) (value : Text) :
    line name value = 10 :: 32 :: 32 :: (quoteJson (ascii name) ++ 58 :: 32 :: value) := by
  have indent : ascii "\n  " = [10, 32, 32] := by rw [ascii_eq]; decide
  have colon : ascii ": " = [58, 32] := by rw [ascii_eq]; decide
  simp [line, indent, colon]

theorem opening_eq : ascii "\x7b" = [123] := by rw [ascii_eq]; decide
theorem comma_eq : ascii "," = [44] := by rw [ascii_eq]; decide
theorem closing_eq : ascii "\n\x7d\n" = [10, 125, 10] := by rw [ascii_eq]; decide

theorem pointerJson_eq (pointer : Pointer) :
    pointerJson pointer = 123 :: fieldsText (pointerFields pointer) ++ [10] := by
  simp [pointerJson, line_eq, pointerFields, stringField, field, fieldsText, opening_eq, comma_eq,
    closing_eq]

/-! A digit of a generation is no control byte, nor is a byte of a snapshot's path. -/

theorem plain_lowerHex {value : Text} {length : Nat} (hex : lowerHex value length = true) :
    Plain value := by
  unfold lowerHex at hex
  simp only [Bool.and_eq_true, List.all_eq_true] at hex
  intro c there control
  have digit := hex.2 c there
  simp only [Bool.or_eq_true, Bool.and_eq_true, decide_eq_true_eq] at digit
  rw [UInt8.lt_iff_toNat_lt] at control
  simp only [UInt8.le_iff_toNat_le] at digit
  have bounds : (48 : UInt8).toNat = 48 ∧ (97 : UInt8).toNat = 97 ∧ (0x20 : UInt8).toNat = 32 := by
    decide
  omega

theorem plain_append {first second : Text} (one : Plain first) (two : Plain second) :
    Plain (first ++ second) := by
  intro c there
  obtain early | late := List.mem_append.mp there
  · exact one c early
  · exact two c late

theorem plain_of_all {value : Text} (all : value.all (fun c => !(c < 0x20)) = true) :
    Plain value := by
  intro c member
  simpa using List.all_eq_true.mp all c member

theorem plain_each {names : List Text}
    (all : names.all (fun name => name.all (fun c => !(c < 0x20))) = true) :
    ∀ name ∈ names, Plain name :=
  fun name member => plain_of_all (List.all_eq_true.mp all name member)

section Pointers

variable {pointer : Pointer}

theorem plain_pointer (valid : validPointer pointer = true) :
    Plain pointer.generation ∧ Plain pointer.snapshot := by
  unfold validPointer at valid
  rw [Bool.and_eq_true, decide_eq_true_eq] at valid
  have generation := plain_lowerHex valid.1
  have folder : Plain (ascii "snapshots/") := plain_of_all (by rw [ascii_eq]; decide)
  have extension : Plain (ascii ".json") := plain_of_all (by rw [ascii_eq]; decide)
  rw [valid.2]
  exact ⟨generation, plain_append (plain_append folder generation) extension⟩

theorem pointerNames : ((pointerFields pointer).map Field.name) =
    [ascii "schema", ascii "generation", ascii "snapshot"] := rfl

theorem pointerFields_plain : ∀ f ∈ pointerFields pointer, Plain f.name := by
  have names : ∀ name ∈ [ascii "schema", ascii "generation", ascii "snapshot"], Plain name := by
    refine plain_each ?_
    simp only [ascii_eq]
    decide
  intro f there
  exact names f.name (@pointerNames pointer ▸ List.mem_map_of_mem there)

theorem reads_pointer (room : Nat) (valid : validPointer pointer = true) :
    Reads (parseValue (room + 2)) (123 :: fieldsText (pointerFields pointer))
      (pointerValue pointer) := by
  have plain := plain_pointer valid
  have schema : Plain currentSchema :=
    plain_of_all (by rw [currentSchema, ascii_eq]; decide)
  apply reads_object
  · exact pointerFields_plain
  · intro f there
    simp only [List.mem_cons, List.not_mem_nil, or_false] at there
    obtain rfl | rfl | rfl := there
    · exact reads_string room schema
    · exact reads_string room plain.1
    · exact reads_string room plain.2
  · rw [← pointerFields, pointerNames]
    simp only [ascii_eq]
    decide

theorem parsePointer_pointerValue (valid : validPointer pointer = true) :
    parsePointer (pointerValue pointer) = .ok pointer := by
  have distinct : ((pointerFields pointer).map Field.name).Nodup := by
    rw [pointerNames]
    simp only [ascii_eq]
    decide
  have names := exactMembers_fields (pointerFields pointer)
  rw [pointerNames] at names
  have schema := @stringMember_fields (pointerFields pointer) distinct "schema"
    currentSchema (by simp [pointerFields])
  have generation := @stringMember_fields (pointerFields pointer) distinct "generation"
    pointer.generation (by simp [pointerFields])
  have snapshot := @stringMember_fields (pointerFields pointer) distinct "snapshot"
    pointer.snapshot (by simp [pointerFields])
  simp [parsePointer, pointerValue, asObject, bind, Except.bind, names, schema, generation,
    snapshot, valid]

/-- `parse` on what is written with a line feed at the end. -/
theorem parse_reads {text : Text} {json : Json} (reads : Reads (parseValue 13) text json) :
    parse (text ++ [10]) = .ok json := by
  have same : parseValue 13 (text ++ [10]) = parseValue 13 (32 :: (text ++ [10])) := by
    conv_rhs => rw [parseValue, skipWhitespace_space _ _ (by decide)]
    rw [parseValue]
  have read : parseValue 13 (32 :: (text ++ [10])) = .ok (json, [10]) := reads [10]
  unfold parse
  rw [same, read]
  simp [bind, Except.bind, skipWhitespace, isWhitespace]

/-- `parse_pointer` reads back every pointer that `pointer_json` writes. -/
theorem parsePointer_pointerJson (valid : validPointer pointer = true) :
    (parse (pointerJson pointer) >>= parsePointer) = .ok pointer := by
  rw [pointerJson_eq, parse_reads (reads_pointer 11 valid)]
  exact parsePointer_pointerValue valid

end Pointers

section Journals

def optionalPointerText : Option Pointer → Text
  | none => ascii "null"
  | some pointer => 123 :: fieldsText (pointerFields pointer)

def optionalPointerValue : Option Pointer → Json
  | none => .null
  | some pointer => pointerValue pointer

theorem optionalPointerJson_eq (pointer : Option Pointer) :
    optionalPointerJson pointer = optionalPointerText pointer := by
  cases pointer with
  | none => rfl
  | some pointer =>
    rw [optionalPointerJson, pointerJson_eq, List.dropLast_concat]
    rfl

def optionalField (name : String) (pointer : Option Pointer) : Field :=
  field name (optionalPointerText pointer) (optionalPointerValue pointer)

def journalFields (journal : Journal) : List Field :=
  [stringField "schema" journalSchema, stringField "operation" journal.operation,
    stringField "phase" journal.phase, optionalField "old_previous" journal.oldPrevious,
    optionalField "old_current" journal.oldCurrent,
    optionalField "new_previous" journal.newPrevious,
    optionalField "new_current" (some journal.newCurrent)]

theorem journalJson_eq (journal : Journal) :
    journalJson journal = 123 :: fieldsText (journalFields journal) ++ [10] := by
  have current := optionalPointerJson_eq (some journal.newCurrent)
  simp [journalJson, line_eq, journalFields, stringField, optionalField, field, fieldsText,
    opening_eq, comma_eq, closing_eq, optionalPointerJson_eq]

def ValidOptional (pointer : Option Pointer) : Prop := ∀ p ∈ pointer, validPointer p = true

theorem reads_optionalPointer (room : Nat) {pointer : Option Pointer}
    (valid : ValidOptional pointer) :
    Reads (parseValue (room + 2)) (optionalPointerText pointer) (optionalPointerValue pointer) := by
  cases pointer with
  | none => exact reads_null (room + 1)
  | some pointer => exact reads_pointer room (valid pointer rfl)

theorem parseOptionalPointer_optionalPointerValue {pointer : Option Pointer}
    (valid : ValidOptional pointer) :
    parseOptionalPointer (optionalPointerValue pointer) = .ok pointer := by
  cases pointer with
  | none => rfl
  | some pointer =>
    have read := parsePointer_pointerValue (valid pointer rfl)
    change (parsePointer (pointerValue pointer)).map some = _
    rw [read]
    rfl

/-- The pointers of a journal are such as `parse_journal` reads. -/
structure WellFormed (journal : Journal) : Prop where
  oldPrevious : ValidOptional journal.oldPrevious
  oldCurrent : ValidOptional journal.oldCurrent
  newPrevious : ValidOptional journal.newPrevious
  newCurrent : validPointer journal.newCurrent = true
  relationship : validJournal journal = true

variable {journal : Journal}

theorem journalNames : ((journalFields journal).map Field.name) =
    [ascii "schema", ascii "operation", ascii "phase", ascii "old_previous", ascii "old_current",
      ascii "new_previous", ascii "new_current"] := rfl

theorem journalNames_nodup : ((journalFields journal).map Field.name).Nodup := by
  rw [journalNames]
  simp only [ascii_eq]
  decide

theorem journalFields_plain : ∀ f ∈ journalFields journal, Plain f.name := by
  have names : ∀ name ∈ [ascii "schema", ascii "operation", ascii "phase", ascii "old_previous",
      ascii "old_current", ascii "new_previous", ascii "new_current"], Plain name := by
    refine plain_each ?_
    simp only [ascii_eq]
    decide
  intro f there
  exact names f.name (@journalNames journal ▸ List.mem_map_of_mem there)

theorem plain_operation (valid : validJournal journal = true) :
    Plain journal.operation ∧ Plain journal.phase := by
  have operations : ∀ name ∈ [publishOperation, rollbackOperation], Plain name := by
    refine plain_each ?_
    simp only [publishOperation, rollbackOperation, ascii_eq]
    decide
  have phases : ∀ name ∈ [prepared, previousReplaced, currentReplaced], Plain name := by
    refine plain_each ?_
    simp only [prepared, previousReplaced, currentReplaced, ascii_eq]
    decide
  unfold validJournal at valid
  simp only [Bool.and_eq_true, Bool.or_eq_true, decide_eq_true_eq] at valid
  obtain ⟨⟨⟨operation, phase⟩, -⟩, -⟩ := valid
  constructor
  · exact operations journal.operation (by simpa using operation)
  · exact phases journal.phase (by simpa [or_assoc] using phase)

theorem reads_journal (room : Nat) (formed : WellFormed journal) :
    Reads (parseValue (room + 3)) (123 :: fieldsText (journalFields journal))
      (.object ((journalFields journal).map fieldValue)) := by
  have schema : Plain journalSchema :=
    plain_of_all (by rw [journalSchema, ascii_eq]; decide)
  have plain := plain_operation formed.relationship
  apply reads_object
  · exact journalFields_plain
  · intro f there
    simp only [List.mem_cons, List.not_mem_nil, or_false] at there
    obtain rfl | rfl | rfl | rfl | rfl | rfl | rfl := there
    · exact reads_string (room + 1) schema
    · exact reads_string (room + 1) plain.1
    · exact reads_string (room + 1) plain.2
    · exact reads_optionalPointer room formed.oldPrevious
    · exact reads_optionalPointer room formed.oldCurrent
    · exact reads_optionalPointer room formed.newPrevious
    · exact reads_pointer room formed.newCurrent
  · exact journalNames_nodup

theorem parseJournal_fields (formed : WellFormed journal) :
    parseJournal (.object ((journalFields journal).map fieldValue)) = .ok journal := by
  have names := exactMembers_fields (journalFields journal)
  rw [journalNames] at names
  have schema := @stringMember_fields _ (@journalNames_nodup journal) "schema" journalSchema
    (by simp [journalFields])
  have operation := @stringMember_fields _ (@journalNames_nodup journal) "operation"
    journal.operation (by simp [journalFields])
  have phase := @stringMember_fields _ (@journalNames_nodup journal) "phase" journal.phase
    (by simp [journalFields])
  have optional (name : String) (pointer : Option Pointer)
      (there : optionalField name pointer ∈ journalFields journal) :
      member ((journalFields journal).map fieldValue) (ascii name) =
        .ok (optionalPointerValue pointer) :=
    member_fields journalNames_nodup there
  have oldPrevious := optional "old_previous" journal.oldPrevious (by simp [journalFields])
  have oldCurrent := optional "old_current" journal.oldCurrent (by simp [journalFields])
  have newPrevious := optional "new_previous" journal.newPrevious (by simp [journalFields])
  have newCurrent := optional "new_current" (some journal.newCurrent) (by simp [journalFields])
  rw [optionalPointerValue] at newCurrent
  have relationship := formed.relationship
  simp [parseJournal, asObject, bind, Except.bind, names, schema, operation, phase, oldPrevious,
    oldCurrent, newPrevious, newCurrent,
    parseOptionalPointer_optionalPointerValue formed.oldPrevious,
    parseOptionalPointer_optionalPointerValue formed.oldCurrent,
    parseOptionalPointer_optionalPointerValue formed.newPrevious,
    parsePointer_pointerValue formed.newCurrent, relationship]

/-- `parse_journal` reads back every journal that `journal_json` writes. -/
theorem parseJournal_journalJson (formed : WellFormed journal) :
    (parse (journalJson journal) >>= parseJournal) = .ok journal := by
  rw [journalJson_eq, parse_reads (reads_journal 10 formed)]
  exact parseJournal_fields formed

end Journals

end Baas.Repository
