import Baas.WebSocket.HandshakeGrammar
import Mathlib.Data.List.Nodup

/-! The pass over the header fields: what it gathers depends on the values of each field
alone. -/
namespace Baas.WebSocket

/-! Names in any case. -/

def lower (text : Bytes) : Bytes := text.map asciiFold

theorem asciiIequals_iff (left right : Bytes) :
    asciiIequals left right = true ↔ lower left = lower right := by
  unfold asciiIequals lower
  induction left generalizing right with
  | nil => cases right <;> simp
  | cons a left ih =>
    cases right with
    | nil => simp
    | cons b right =>
      have later := ih right
      simp only [Bool.and_eq_true, decide_eq_true_eq] at later
      simp only [List.length_cons, List.zip_cons_cons, List.all_cons, Bool.and_eq_true,
        decide_eq_true_eq, List.map_cons, List.cons.injEq, Nat.add_right_cancel_iff]
      rw [← later]
      exact ⟨fun ⟨size, same, rest⟩ => ⟨same, size, rest⟩,
        fun ⟨same, size, rest⟩ => ⟨size, same, rest⟩⟩

theorem fieldNames_distinct :
    (handshakeFields.map (fun field => lower field.name)).Nodup := by
  decide +kernel

theorem mem_handshakeFields (field : HandshakeField) : field ∈ handshakeFields := by
  cases field <;> decide

theorem fieldName_injective {first second : HandshakeField}
    (same : lower first.name = lower second.name) : first = second :=
  List.inj_on_of_nodup_map fieldNames_distinct (mem_handshakeFields first)
    (mem_handshakeFields second) same

theorem fieldOf_iff (name : Bytes) (field : HandshakeField) :
    fieldOf name = some field ↔ lower name = lower field.name := by
  unfold fieldOf
  constructor
  · intro found
    have here := List.find?_some found
    exact (asciiIequals_iff _ _).mp here
  · intro same
    cases found : handshakeFields.find? (fun other => asciiIequals name other.name) with
    | none =>
      have other := List.find?_eq_none.mp found field (mem_handshakeFields field)
      exact absurd ((asciiIequals_iff _ _).mpr same) other
    | some other =>
      have here := List.find?_some found
      have same' := (asciiIequals_iff _ _).mp here
      rw [fieldName_injective (same'.symm.trans same)]

/-! The pass over the fields. -/

/-- The values of a field, in their order. -/
def valuesOf (field : HandshakeField) (headers : List HandshakeHeaderField) : List Bytes :=
  (headers.filter (fun header => lower header.name = lower field.name)).map (·.value)

def headerBytes (headers : List HandshakeHeaderField) : Nat :=
  (headers.map (fun header => header.name.length + header.value.length)).sum

def occurrence (values : List Bytes) : Occurrence :=
  { count := values.length, first := values.headD [] }

def gathered (headers : List HandshakeHeaderField) : Gathered :=
  { headerBytes := headerBytes headers
    occurrences := fun field => occurrence (valuesOf field headers)
    extensionOffersValid := (valuesOf .extensions headers).all validExtensionOffer }

structure WellFormed (header : HandshakeHeaderField) : Prop where
  name : Token header.name
  value : ∀ c ∈ header.value, c = 9 ∨ 0x20 ≤ c ∧ c ≠ 0x7F

theorem validHeaderName_iff (name : Bytes) : validHeaderName name = true ↔ Token name := by
  unfold validHeaderName
  simp only [Bool.and_eq_true, Bool.not_eq_true', decide_eq_false_iff_not, List.all_eq_true]
  exact ⟨fun ⟨filled, each⟩ => ⟨filled, each⟩, fun token => ⟨token.some, token.each⟩⟩

theorem validHeaderValue_iff (value : Bytes) :
    validHeaderValue value = true ↔ ∀ c ∈ value, c = 9 ∨ 0x20 ≤ c ∧ c ≠ 0x7F := by
  unfold validHeaderValue
  simp only [List.all_eq_true, Bool.or_eq_true, decide_eq_true_eq, Bool.not_eq_true',
    Bool.or_eq_false_iff, decide_eq_false_iff_not, UInt8.not_lt]

theorem occurrence_add (values : List Bytes) (value : Bytes) :
    (occurrence values).add value = occurrence (values ++ [value]) := by
  cases values <;> simp [occurrence, Occurrence.add]

theorem valuesOf_snoc (field : HandshakeField) (headers : List HandshakeHeaderField)
    (header : HandshakeHeaderField) :
    valuesOf field (headers ++ [header]) = if lower header.name = lower field.name
      then valuesOf field headers ++ [header.value] else valuesOf field headers := by
  unfold valuesOf
  rw [List.filter_append, List.map_append]
  split
  · next same => simp [same]
  · next other => simp [other]

theorem headerBytes_snoc (headers : List HandshakeHeaderField) (header : HandshakeHeaderField) :
    headerBytes (headers ++ [header]) =
      headerBytes headers + (header.name.length + header.value.length) := by
  simp [headerBytes]

theorem sort_gathered (headers : List HandshakeHeaderField) (header : HandshakeHeaderField) :
    Gathered.sort { gathered headers with headerBytes := headerBytes (headers ++ [header]) }
      header = gathered (headers ++ [header]) := by
  unfold Gathered.sort
  split
  · next none_ =>
    have other (field : HandshakeField) : ¬ lower header.name = lower field.name := by
      intro same
      rw [(fieldOf_iff _ _).mpr same] at none_
      cases none_
    simp [gathered, valuesOf_snoc, other]
  · next field found =>
    have same := (fieldOf_iff _ _).mp found
    have only (other : HandshakeField) : lower header.name = lower other.name ↔ other = field := by
      rw [same]
      exact ⟨fun h => (fieldName_injective h).symm, fun h => by rw [h]⟩
    simp only [gathered, valuesOf_snoc, only, occurrence_add, Gathered.mk.injEq, true_and]
    constructor
    · funext other
      split
      · next here => rw [here]
      · rfl
    · by_cases extension : field = .extensions
      · subst extension
        simp
      · simp [extension, Ne.symm extension]

theorem gatherField_iff {before : List HandshakeHeaderField} {header : HandshakeHeaderField}
    {t : Gathered} (room : headerBytes before ≤ websocketHandshakeMaxHeaderBytes) :
    gatherField (gathered before) header = .ok t ↔ WellFormed header ∧
      headerBytes (before ++ [header]) ≤ websocketHandshakeMaxHeaderBytes ∧
        t = gathered (before ++ [header]) := by
  have next := sort_gathered before header
  rw [headerBytes_snoc] at *
  unfold gatherField
  have start : (gathered before).headerBytes = headerBytes before := rfl
  rw [start]
  constructor
  · intro done
    split at done
    · cases done
    dsimp only at done
    split at done
    · cases done
    split at done
    · cases done
    split at done
    · cases done
    next name value =>
    cases done
    simp only [Bool.not_eq_true', Bool.not_eq_false] at name value
    refine ⟨⟨(validHeaderName_iff _).mp name, (validHeaderValue_iff _).mp value⟩, ?_, ?_⟩
    · omega
    · rw [Nat.add_assoc]
      exact next
  · rintro ⟨formed, fits, rfl⟩
    have name := (validHeaderName_iff _).mpr formed.name
    have value := (validHeaderValue_iff _).mpr formed.value
    rw [if_neg (by omega)]
    dsimp only
    rw [if_neg (by omega), name, value, Nat.add_assoc, next]
    rfl

theorem gather_iff {before after : List HandshakeHeaderField} {t : Gathered}
    (room : headerBytes before ≤ websocketHandshakeMaxHeaderBytes) :
    after.foldlM gatherField (gathered before) = .ok t ↔ (∀ header ∈ after, WellFormed header) ∧
      headerBytes (before ++ after) ≤ websocketHandshakeMaxHeaderBytes ∧
        t = gathered (before ++ after) := by
  induction after generalizing before with
  | nil =>
    rw [List.append_nil, List.foldlM_nil]
    constructor
    · intro done
      cases done
      exact ⟨fun _ none => absurd none List.not_mem_nil, room, rfl⟩
    · rintro ⟨_, _, rfl⟩
      rfl
  | cons header after ih =>
    have whole : before ++ header :: after = (before ++ [header]) ++ after := by simp
    rw [List.foldlM_cons, whole, List.forall_mem_cons]
    constructor
    · intro done
      cases first : gatherField (gathered before) header with
      | error e =>
        rw [first] at done
        cases done
      | ok g =>
        rw [first] at done
        obtain ⟨formed, fits, rfl⟩ := (gatherField_iff room).mp first
        obtain ⟨rest, fits', rfl⟩ := (ih fits).mp done
        exact ⟨⟨formed, rest⟩, fits', rfl⟩
    · rintro ⟨⟨formed, rest⟩, fits, rfl⟩
      have fits' : headerBytes (before ++ [header]) ≤ websocketHandshakeMaxHeaderBytes := by
        refine Nat.le_trans ?_ fits
        simp [headerBytes]
      rw [(gatherField_iff room).mpr ⟨formed, fits', rfl⟩]
      exact (ih fits').mpr ⟨rest, fits, rfl⟩

end Baas.WebSocket
