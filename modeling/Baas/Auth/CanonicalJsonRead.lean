import Baas.Auth.CanonicalJsonText

/-! The parser reads back what the writer wrote. -/
namespace Baas.Auth

open Decimal JsonText

variable {limits : CanonicalJsonLimits} {rest : Text}

/-! UTF-8. -/

theorem continuation_large {byte : UInt8} (h : continuation byte = true) : ¬ byte ≤ 0x7F := by
  intro small
  have bound : byte.toNat < 128 := by
    rw [UInt8.le_iff_toNat_le] at small
    exact Nat.lt_succ_of_le small
  have none : ∀ n : Fin 128, continuation (UInt8.ofNat n) = false := by decide
  have this := none ⟨byte.toNat, bound⟩
  simp only [UInt8.ofNat_toNat, h] at this
  cases this

theorem validUtf8_cons (first : UInt8) (rest : Text) : validUtf8 (first :: rest) =
    if first ≤ 0x7F then validUtf8 rest
    else if 0xC2 ≤ first ∧ first ≤ 0xDF then
      match rest with
      | second :: rest => continuation second && validUtf8 rest
      | _ => false
    else if 0xE0 ≤ first ∧ first ≤ 0xEF then
      match rest with
      | second :: third :: rest =>
        continuation second && continuation third &&
          !(first = 0xE0 && second < 0xA0 || first = 0xED && 0xA0 ≤ second) && validUtf8 rest
      | _ => false
    else if 0xF0 ≤ first ∧ first ≤ 0xF4 then
      match rest with
      | second :: third :: fourth :: rest =>
        continuation second && continuation third && continuation fourth &&
          !(first = 0xF0 && second < 0x90 || first = 0xF4 && 0x8F < second) && validUtf8 rest
      | _ => false
    else false := by
  obtain _ | ⟨_, _ | ⟨_, _ | ⟨_, _⟩⟩⟩ := rest <;> rfl

/-- The bytes of a character that is not ascii. -/
theorem validUtf8_char {first : UInt8} {rest : Text} (large : ¬ first ≤ 0x7F)
    (valid : validUtf8 (first :: rest) = true) :
    ∃ tail more, rest = tail ++ more ∧ (∀ c ∈ tail, ¬ c ≤ 0x7F) ∧ validUtf8 more = true ∧
      ∀ other, validUtf8 (first :: (tail ++ other)) = validUtf8 other := by
  rw [validUtf8_cons, if_neg large] at valid
  split at valid
  · next two =>
    cases rest with
    | nil => cases valid
    | cons second more =>
      simp only [Bool.and_eq_true] at valid
      refine ⟨[second], more, rfl, ?_, valid.2, fun other => ?_⟩
      · exact List.forall_mem_singleton.mpr (continuation_large valid.1)
      · simp only [List.singleton_append]
        rw [validUtf8_cons, if_neg large, if_pos two]
        simp only [valid.1, Bool.true_and]
  next two =>
  split at valid
  · next three =>
    match rest, valid with
    | second :: third :: more, valid =>
      simp only [Bool.and_eq_true] at valid
      obtain ⟨⟨⟨s, t⟩, shape⟩, later⟩ := valid
      refine ⟨[second, third], more, rfl, ?_, later, fun other => ?_⟩
      · simp only [List.forall_mem_cons]
        exact ⟨continuation_large s, continuation_large t, by simp⟩
      · simp only [List.cons_append, List.nil_append]
        rw [validUtf8_cons, if_neg large, if_neg two, if_pos three]
        simp only [s, t, shape, Bool.true_and]
  next three =>
  split at valid
  · next four =>
    match rest, valid with
    | second :: third :: fourth :: more, valid =>
      simp only [Bool.and_eq_true] at valid
      obtain ⟨⟨⟨⟨s, t⟩, f⟩, shape⟩, later⟩ := valid
      refine ⟨[second, third, fourth], more, rfl, ?_, later, fun other => ?_⟩
      · simp only [List.forall_mem_cons]
        exact ⟨continuation_large s, continuation_large t, continuation_large f, by simp⟩
      · simp only [List.cons_append, List.nil_append]
        rw [validUtf8_cons, if_neg large, if_neg two, if_neg three, if_pos four]
        simp only [s, t, f, shape, Bool.true_and]
  · cases valid

/-- Induction over the characters of a valid text. -/
theorem utf8_induct {P : ∀ text, validUtf8 text = true → Prop} (nil : P [] rfl)
    (small : ∀ c rest (valid : validUtf8 (c :: rest) = true) (later : validUtf8 rest = true),
      c ≤ 0x7F → P rest later → P (c :: rest) valid)
    (large : ∀ char more (valid : validUtf8 (char ++ more) = true)
      (later : validUtf8 more = true), (∀ c ∈ char, ¬ c ≤ 0x7F) →
      (∀ other, validUtf8 (char ++ other) = validUtf8 other) → P more later →
      P (char ++ more) valid)
    (text : Text) (valid : validUtf8 text = true) : P text valid := by
  induction length : text.length using Nat.strongRecOn generalizing text with
  | _ n ih =>
    subst length
    cases text with
    | nil => exact nil
    | cons first rest =>
      by_cases ascii : first ≤ 0x7F
      · have later : validUtf8 rest = true := by simpa [validUtf8_cons, ascii] using valid
        exact small first rest valid later ascii (ih rest.length (by simp) rest later rfl)
      · obtain ⟨tail, more, rfl, high, later, through⟩ := validUtf8_char ascii valid
        apply large (first :: tail) more valid later
        · exact List.forall_mem_cons.mpr ⟨ascii, high⟩
        · exact through
        · refine ih more.length ?_ more later rfl
          rw [List.length_cons, List.length_append]
          omega

theorem validUtf8_append {first second : Text} (valid : validUtf8 first = true) :
    validUtf8 (first ++ second) = validUtf8 second := by
  induction first, valid using utf8_induct with
  | nil => rfl
  | small c rest _ later ascii ih => simp [validUtf8_cons, ascii, ih]
  | large char more _ later high through ih => rw [List.append_assoc, through, ih]

theorem validUtf8_ascii {text : Text} (small : ∀ c ∈ text, c ≤ 0x7F) : validUtf8 text = true := by
  induction text with
  | nil => rfl
  | cons c rest ih =>
    rw [List.forall_mem_cons] at small
    simp [validUtf8_cons, small.1, ih small.2]

/-- The forms of an escaped byte: the byte, a letter behind a backslash, or its code. -/
theorem escapeByte_forms {motive : Text → Prop} {byte : UInt8} (same : motive [byte])
    (letter : byte ≤ 0x7F → ∀ d : UInt8, d ≤ 0x7F → motive [92, d])
    (code : byte < 0x20 →
      motive [92, 117, 48, 48, hexDigitText (byte >>> 4), hexDigitText (byte &&& 0xF)]) :
    motive (escapeByte byte) := by
  have at_most {d : UInt8} (low : d ≤ 0x7F) (eq : byte = d) : byte ≤ 0x7F := eq ▸ low
  unfold escapeByte
  refine iteInduction (fun eq => letter (at_most (by decide) eq) _ (by decide)) (fun _ => ?_)
  refine iteInduction (fun eq => letter (at_most (by decide) eq) _ (by decide)) (fun _ => ?_)
  refine iteInduction (fun eq => letter (at_most (by decide) eq) _ (by decide)) (fun _ => ?_)
  refine iteInduction (fun eq => letter (at_most (by decide) eq) _ (by decide)) (fun _ => ?_)
  refine iteInduction (fun eq => letter (at_most (by decide) eq) _ (by decide)) (fun _ => ?_)
  refine iteInduction (fun eq => letter (at_most (by decide) eq) _ (by decide)) (fun _ => ?_)
  refine iteInduction (fun eq => letter (at_most (by decide) eq) _ (by decide)) (fun _ => ?_)
  exact iteInduction code (fun _ => same)

theorem hexDigitText_small : ∀ n : Fin 32,
    hexDigitText (UInt8.ofNat n >>> 4) ≤ 0x7F ∧ hexDigitText (UInt8.ofNat n &&& 0xF) ≤ 0x7F := by
  decide

theorem escapeByte_small {byte : UInt8} (small : byte ≤ 0x7F) :
    ∀ c ∈ escapeByte byte, c ≤ 0x7F := by
  refine escapeByte_forms (motive := fun text => ∀ c ∈ text, c ≤ 0x7F) ?_ ?_ ?_
  · simpa using small
  · intro _ d low
    simpa using low
  · intro control
    have bound : byte.toNat < 32 := control
    have digits := hexDigitText_small ⟨byte.toNat, bound⟩
    simpa using digits

theorem escapeByte_large {byte : UInt8} (large : ¬ byte ≤ 0x7F) : escapeByte byte = [byte] := by
  rw [UInt8.le_iff_toNat_le] at large
  have at_least {c : UInt8} (small : c.toNat ≤ 127) : byte ≠ c := by
    rintro rfl
    exact large small
  have control : ¬ byte < 0x20 := by
    rw [UInt8.lt_iff_toNat_lt]
    change ¬ byte.toNat < 32
    change ¬ byte.toNat ≤ 127 at large
    omega
  unfold escapeByte
  rw [if_neg (at_least (by decide)), if_neg (at_least (by decide)), if_neg (at_least (by decide)),
    if_neg (at_least (by decide)), if_neg (at_least (by decide)), if_neg (at_least (by decide)),
    if_neg (at_least (by decide)), if_neg control]

theorem validUtf8_escaped {value : Text} (valid : validUtf8 value = true) :
    validUtf8 (escaped value) = true := by
  induction value, valid using utf8_induct with
  | nil => rfl
  | small c rest _ later ascii ih =>
    have first := validUtf8_ascii (escapeByte_small ascii)
    unfold escaped at *
    rw [List.flatMap_cons, validUtf8_append first, ih]
  | large char more _ later high through ih =>
    have same : escaped char = char := by
      unfold escaped
      rw [List.flatMap_congr (fun c member => escapeByte_large (high c member))]
      simp
    unfold escaped at *
    rw [List.flatMap_append, same, through, ih]

/-! Strings. -/

theorem control_digits : ∀ n : Fin 32,
    hexDigit (hexDigitText (UInt8.ofNat n >>> 4)) = some (n / 16) ∧
      hexDigit (hexDigitText (UInt8.ofNat n &&& 0xF)) = some (n % 16) ∧
      utf8Bytes n = [UInt8.ofNat n] := by
  decide

theorem parseUnicode_control {byte : UInt8} (control : byte < 0x20) :
    parseUnicode (48 :: 48 :: hexDigitText (byte >>> 4) :: hexDigitText (byte &&& 0xF) :: rest) =
      .ok (byte.toNat, rest) := by
  have bound : byte.toNat < 32 := control
  obtain ⟨high, low, -⟩ := control_digits ⟨byte.toNat, bound⟩
  simp only [UInt8.ofNat_toNat] at high low
  have zero : hexDigit 48 = some 0 := by decide
  have quad : parseHexQuad
      (48 :: 48 :: hexDigitText (byte >>> 4) :: hexDigitText (byte &&& 0xF) :: rest) =
        .ok (byte.toNat, rest) := by
    have value : 16 * (byte.toNat / 16) + byte.toNat % 16 = byte.toNat := Nat.div_add_mod ..
    simp [parseHexQuad, hexDigits, zero, high, low, value]
  unfold parseUnicode
  rw [quad]
  have low : ¬ 0xD800 ≤ byte.toNat ∧ ¬ 0xDC00 ≤ byte.toNat := by omega
  simp [bind, Except.bind, low.1, low.2]

/-- One turn of the loop takes what stands for one byte. -/
theorem stringBody_escapeByte (fuel : Nat) (output : Text) (byte : UInt8) :
    stringBody (fuel + 1) output (escapeByte byte ++ rest) =
      stringBody fuel (output ++ [byte]) rest := by
  unfold escapeByte
  split
  · next same => simp [stringBody, simpleEscape, same]
  next quote =>
  split
  · next same => simp [stringBody, simpleEscape, same]
  next backslash =>
  split
  · next same => simp [stringBody, simpleEscape, same]
  split
  · next same => simp [stringBody, simpleEscape, same]
  split
  · next same => simp [stringBody, simpleEscape, same]
  split
  · next same => simp [stringBody, simpleEscape, same]
  split
  · next same => simp [stringBody, simpleEscape, same]
  split
  · next control =>
    have bytes : utf8Bytes byte.toNat = [byte] := by
      have bound : byte.toNat < 32 := control
      simpa using (control_digits ⟨byte.toNat, bound⟩).2.2
    have escape : simpleEscape 117 = none := by decide
    simp [stringBody, escape, parseUnicode_control control, bytes]
  · next control =>
    simp only [List.singleton_append, stringBody]
    rw [if_neg quote, if_neg control, if_pos backslash]

theorem stringBody_escaped {fuel : Nat} {value : Text} (enough : value.length < fuel)
    (output : Text) : stringBody fuel output (escaped value ++ 34 :: rest) = .ok (output ++ value, rest) := by
  induction value generalizing fuel output with
  | nil =>
    obtain ⟨fuel, rfl⟩ := Nat.exists_eq_add_one_of_ne_zero (Nat.ne_of_gt enough)
    simp [escaped, stringBody]
  | cons byte more ih =>
    obtain ⟨fuel, rfl⟩ := Nat.exists_eq_add_one_of_ne_zero (Nat.ne_of_gt (Nat.zero_lt_of_lt enough))
    unfold escaped at *
    rw [List.flatMap_cons, List.append_assoc, stringBody_escapeByte,
      ih (by simpa using enough), List.append_assoc]
    rfl

theorem escapeByte_ne_nil (byte : UInt8) : escapeByte byte ≠ [] :=
  escapeByte_forms (motive := (· ≠ [])) (List.cons_ne_nil _ _)
    (fun _ _ _ => List.cons_ne_nil _ _) (fun _ => List.cons_ne_nil _ _)

theorem length_escaped (value : Text) : value.length ≤ (escaped value).length := by
  induction value with
  | nil => exact Nat.zero_le _
  | cons byte more ih =>
    have some := List.length_pos_of_ne_nil (escapeByte_ne_nil byte)
    unfold escaped at *
    rw [List.flatMap_cons, List.length_append, List.length_cons]
    omega

theorem parseString_quoted (value rest : Text) :
    parseString (quoted value ++ rest) = .ok (value, rest) := by
  have enough : value.length < (escaped value ++ 34 :: rest).length := by
    have bound := length_escaped value
    simp only [List.length_append, List.length_cons]
    omega
  have read : stringBody _ [] (escaped value ++ 34 :: rest) = .ok ([] ++ value, rest) :=
    stringBody_escaped enough []
  simpa [parseString, quoted] using read

/-! Numbers. -/

/-- What stands behind a value: nothing, a comma or a bracket. -/
def Follow (rest : Text) : Prop := ∀ c, rest.head? = some c → c = 44 ∨ c = 93 ∨ c = 125

theorem follow_startsWith {p : UInt8 → Bool} (follow : Follow rest) (comma : p 44 = false)
    (bracket : p 93 = false) (brace : p 125 = false) : startsWith p rest = false := by
  unfold startsWith
  cases rest with
  | nil => rfl
  | cons c tail =>
    obtain rfl | rfl | rfl := follow c rfl
    · simpa using comma
    · simpa using bracket
    · simpa using brace

theorem span_digits {digits : Text} (all : ∀ c ∈ digits, isDigit c = true)
    (stop : startsWith isDigit rest = false) :
    (digits ++ rest).takeWhile isDigit = digits ∧ (digits ++ rest).dropWhile isDigit = rest := by
  induction digits with
  | nil =>
    cases rest with
    | nil => simp
    | cons c tail =>
      have stop : isDigit c = false := by simpa [startsWith] using stop
      simp [stop]
  | cons c digits ih =>
    rw [List.forall_mem_cons] at all
    simpa [all.1] using ih all.2

theorem parseMagnitude_decimal {n : Nat} (negative : Bool) (safe : n ≤ maximumSafeJsonInteger)
    (follow : Follow rest) : parseMagnitude negative (decimal n ++ rest) =
      .ok (.integer (if negative then -n else n), rest) := by
  have stop : startsWith isDigit rest = false :=
    follow_startsWith follow (by decide) (by decide) (by decide)
  have whole : startsWith (fun c => c = 46 || c = 101 || c = 69) rest = false :=
    follow_startsWith follow (by decide) (by decide) (by decide)
  have bound : ¬ n > maximumSafeJsonInteger := Nat.not_lt.mpr safe
  obtain rfl | positive := Nat.eq_zero_or_pos n
  · have zero : decimal 0 = [48] := by simp [decimal]
    have digit : isDigit 48 = true := by decide
    have value : valueOf [48] = 0 := by decide
    have small : ¬ 0 > maximumSafeJsonInteger := by decide
    rw [zero, List.singleton_append, parseMagnitude]
    simp [digit, stop, whole, value, small]
  · cases digits : decimal n with
    | nil => exact absurd digits (decimal_ne_nil n)
    | cons first others =>
      have all := decimal_digits n
      have head := decimal_head n positive
      have value := valueOf_decimal n
      rw [digits] at all head value
      rw [List.forall_mem_cons] at all
      have zero : first ≠ 48 := by simpa using head
      obtain ⟨take, drop⟩ := span_digits all.2 stop
      rw [List.cons_append, parseMagnitude]
      simp [all.1, zero, take, drop, stop, whole, value, bound]

theorem isDigit_ne_minus {c : UInt8} (digit : isDigit c = true) : c ≠ 45 := by
  rintro rfl
  revert digit
  decide

theorem integerText_head (value : Int) :
    ∃ c tail, integerText value = c :: tail ∧ (c = 45 ∨ isDigit c = true) := by
  cases value with
  | ofNat n =>
    cases digits : decimal n with
    | nil => exact absurd digits (decimal_ne_nil n)
    | cons first others =>
      exact ⟨first, others, digits, .inr (decimal_digits n first (by simp [digits]))⟩
  | negSucc n => exact ⟨45, _, rfl, .inl rfl⟩

theorem parseNumber_integerText {value : Int} (safe : value.natAbs ≤ maximumSafeJsonInteger)
    (follow : Follow rest) :
    parseNumber (integerText value ++ rest) = .ok (.integer value, rest) := by
  cases value with
  | ofNat n =>
    have read : parseMagnitude false (decimal n ++ rest) = .ok (.integer n, rest) :=
      parseMagnitude_decimal false safe follow
    cases digits : decimal n with
    | nil => exact absurd digits (decimal_ne_nil n)
    | cons first others =>
      have digit := decimal_digits n first (by simp [digits])
      rw [digits, List.cons_append] at read
      simp only [integerText, digits, List.cons_append]
      unfold parseNumber
      split
      · next same =>
        cases same
        exact absurd rfl (isDigit_ne_minus digit)
      · exact read
  | negSucc n =>
    have read : parseMagnitude true (decimal (n + 1) ++ rest) =
        .ok (.integer (-(n + 1 : Nat)), rest) := parseMagnitude_decimal true safe follow
    rw [integerText, List.cons_append, parseNumber, read]
    rfl

/-! Values. -/

theorem consume_append (expected rest : Text) : consume expected (expected ++ rest) = .ok rest := by
  have front : expected.isPrefixOf (expected ++ rest) = true := by simp
  simp [consume, front]

theorem ascii_null : ascii "null" = [110, 117, 108, 108] := by rw [ascii_eq]; decide

theorem ascii_true : ascii "true" = [116, 114, 117, 101] := by rw [ascii_eq]; decide

theorem ascii_false : ascii "false" = [102, 97, 108, 115, 101] := by rw [ascii_eq]; decide

/-- The first byte of a value tells it from a space and from the end of a container. -/
theorem render_head (value : CanonicalJsonValue) :
    ∃ c tail, render value = c :: tail ∧ isWhitespace c = false ∧ c ≠ 93 := by
  cases value with
  | null => exact ⟨110, _, ascii_null, by decide, by decide⟩
  | boolean value =>
    cases value with
    | true => exact ⟨116, _, ascii_true, by decide, by decide⟩
    | false => exact ⟨102, _, ascii_false, by decide, by decide⟩
  | integer value =>
    obtain ⟨c, tail, whole, first⟩ := integerText_head value
    refine ⟨c, tail, whole, ?_⟩
    obtain rfl | digit := first
    · decide
    · have numeric : 48 ≤ c.toNat ∧ c.toNat ≤ 57 := by
        simpa [isDigit, UInt8.le_iff_toNat_le] using digit
      have apart {b : UInt8} (outside : b.toNat < 48 ∨ 57 < b.toNat) : c ≠ b := by
        rintro rfl
        omega
      refine ⟨?_, apart (.inr (by decide))⟩
      simp [isWhitespace, apart (.inl (by decide : (32 : UInt8).toNat < 48)),
        apart (.inl (by decide : (9 : UInt8).toNat < 48)),
        apart (.inl (by decide : (13 : UInt8).toNat < 48)),
        apart (.inl (by decide : (10 : UInt8).toNat < 48))]
  | string value => exact ⟨34, _, rfl, by decide, by decide⟩
  | array items => exact ⟨91, _, rfl, by decide, by decide⟩
  | object members => exact ⟨123, _, rfl, by decide, by decide⟩

theorem follow_joinedTail {close : UInt8} (bracket : close = 93 ∨ close = 125)
    (texts : List Text) : Follow (joinedTail texts ++ close :: rest) := by
  intro c head
  cases texts with
  | nil =>
    cases head
    exact .inr bracket
  | cons text more =>
    cases head
    exact .inl rfl

/-- What a parser of values does with the text of a value. -/
def Reads (parse : ValueParser) (bound : Nat) (value : CanonicalJsonValue) : Prop :=
  ∀ rest count, Follow rest → count + values value ≤ bound →
    parse (render value ++ rest) count = .ok (value, rest, count + values value)

theorem parseItems_joined {parse : ValueParser} {bound fuel count : Nat}
    {behind items : List CanonicalJsonValue} {item : CanonicalJsonValue}
    (each : ∀ v ∈ item :: items, Reads parse bound v) (enough : items.length < fuel)
    (within : count + ((item :: items).map values).sum ≤ bound) :
    parseItems parse fuel behind (joined ((item :: items).map render) ++ 93 :: rest) count =
      .ok (behind ++ item :: items, rest, count + ((item :: items).map values).sum) := by
  induction items generalizing item fuel count behind with
  | nil =>
    obtain ⟨fuel, rfl⟩ := Nat.exists_eq_add_one_of_ne_zero (Nat.ne_of_gt enough)
    obtain ⟨c, tail, whole, dark, -⟩ := render_head item
    have first := each item (by simp) (93 :: rest) count (follow_joinedTail (.inl rfl) [])
      (by simpa using within)
    rw [whole, List.cons_append] at first
    have close : skipWhitespace (93 :: rest) = 93 :: rest := skipWhitespace_cons (by decide)
    simp [joined, joinedTail, whole, parseItems, skipWhitespace_cons dark, first, close, bind,
      Except.bind]
  | cons second items ih =>
    obtain ⟨fuel, rfl⟩ := Nat.exists_eq_add_one_of_ne_zero (Nat.ne_of_gt (Nat.zero_lt_of_lt enough))
    obtain ⟨c, tail, whole, dark, -⟩ := render_head item
    simp only [List.map_cons, List.sum_cons] at within
    have first := each item (by simp)
      (joinedTail ((second :: items).map render) ++ 93 :: rest) count
      (follow_joinedTail (.inl rfl) _) (by omega)
    rw [whole, List.cons_append] at first
    have comma : skipWhitespace (joinedTail ((second :: items).map render) ++ 93 :: rest) =
        44 :: (joined ((second :: items).map render) ++ 93 :: rest) := by
      simp [joinedTail, joined, skipWhitespace_cons (by decide : isWhitespace 44 = false)]
    have later : parseItems parse fuel (behind ++ [item])
        (joined ((second :: items).map render) ++ 93 :: rest) (count + values item) =
          .ok ((behind ++ [item]) ++ second :: items, rest, _) :=
      ih (fun v member => each v (List.mem_cons_of_mem _ member)) (by simpa using enough)
        (by simpa [Nat.add_assoc] using within)
    rw [List.map_cons, joined, whole, List.append_assoc, List.cons_append, parseItems,
      skipWhitespace_cons dark, first]
    simp only [bind, Except.bind, comma]
    simpa [Nat.add_assoc] using later

theorem parseMembers_joined {parse : ValueParser} {bound fuel count : Nat}
    {behind members : List (Text × CanonicalJsonValue)} {member : Text × CanonicalJsonValue}
    (each : ∀ m ∈ member :: members, Reads parse bound m.2) (enough : members.length < fuel)
    (within : count + ((member :: members).map (fun m => values m.2)).sum ≤ bound) :
    parseMembers parse fuel behind (joined ((member :: members).map renderMember) ++ 125 :: rest)
      count = .ok (behind ++ member :: members, rest,
        count + ((member :: members).map (fun m => values m.2)).sum) := by
  have quote (key tail : Text) : skipWhitespace (quoted key ++ tail) = quoted key ++ tail :=
    skipWhitespace_cons (by decide : isWhitespace 34 = false)
  have colon (tail : Text) : skipWhitespace (58 :: tail) = 58 :: tail :=
    skipWhitespace_cons (by decide)
  induction members generalizing member fuel count behind with
  | nil =>
    obtain ⟨fuel, rfl⟩ := Nat.exists_eq_add_one_of_ne_zero (Nat.ne_of_gt enough)
    obtain ⟨c, tail, whole, dark, -⟩ := render_head member.2
    have first := each member (by simp) (125 :: rest) count (follow_joinedTail (.inr rfl) [])
      (by simpa using within)
    rw [whole, List.cons_append] at first
    have close : skipWhitespace (125 :: rest) = 125 :: rest := skipWhitespace_cons (by decide)
    simp [joined, joinedTail, renderMember, whole, parseMembers, quote, parseString_quoted, colon,
      skipWhitespace_cons dark, first, close, bind, Except.bind]
  | cons second members ih =>
    obtain ⟨fuel, rfl⟩ := Nat.exists_eq_add_one_of_ne_zero (Nat.ne_of_gt (Nat.zero_lt_of_lt enough))
    obtain ⟨c, tail, whole, dark, -⟩ := render_head member.2
    simp only [List.map_cons, List.sum_cons] at within
    have first := each member (by simp)
      (joinedTail ((second :: members).map renderMember) ++ 125 :: rest) count
      (follow_joinedTail (.inr rfl) _) (by omega)
    rw [whole, List.cons_append] at first
    have comma : skipWhitespace (joinedTail ((second :: members).map renderMember) ++ 125 :: rest) =
        44 :: (joined ((second :: members).map renderMember) ++ 125 :: rest) := by
      simp [joinedTail, joined, skipWhitespace_cons (by decide : isWhitespace 44 = false)]
    have later : parseMembers parse fuel (behind ++ [member])
        (joined ((second :: members).map renderMember) ++ 125 :: rest) (count + values member.2) =
          .ok ((behind ++ [member]) ++ second :: members, rest, _) :=
      ih (fun m there => each m (List.mem_cons_of_mem _ there)) (by simpa using enough)
        (by simpa [Nat.add_assoc] using within)
    rw [List.map_cons, joined, renderMember, whole, List.append_assoc, List.append_assoc,
      parseMembers, quote, parseString_quoted]
    simp only [bind, Except.bind, List.cons_append, colon, skipWhitespace_cons dark, first, comma]
    simpa [Nat.add_assoc] using later

theorem length_joined (texts : List Text) : texts.length ≤ (joined texts).length + 1 := by
  cases texts with
  | nil => exact Nat.zero_le _
  | cons text more =>
    have tail : more.length ≤ (joinedTail more).length := by
      induction more with
      | nil => exact Nat.zero_le _
      | cons text more ih =>
        simp only [joinedTail, List.flatMap_cons, List.length_append, List.length_cons] at *
        omega
    simp only [joined, List.length_append, List.length_cons]
    omega

/-- What can be read back is read back. -/
theorem parseValue_render {room : Nat} {value : CanonicalJsonValue}
    (readable : Readable room value) : Reads (parseValue limits room) limits.maxValues value := by
  induction readable with
  | null =>
    intro rest count follow within
    have one : ¬ count + 1 > limits.maxValues := Nat.not_lt.mpr within
    have read := consume_append (ascii "null") rest
    rw [ascii_null] at read
    simp only [List.cons_append, List.nil_append] at read
    simp [render, ascii_null, values, parseValue, one, read, Except.map]
  | boolean value =>
    intro rest count follow within
    have one : ¬ count + 1 > limits.maxValues := Nat.not_lt.mpr within
    cases value with
    | true =>
      have read := consume_append (ascii "true") rest
      rw [ascii_true] at read
      simp only [List.cons_append, List.nil_append] at read
      simp [render, ascii_true, values, parseValue, one, read, Except.map]
    | false =>
      have read := consume_append (ascii "false") rest
      rw [ascii_false] at read
      simp only [List.cons_append, List.nil_append] at read
      simp [render, ascii_false, values, parseValue, one, read, Except.map]
  | @integer room value safe =>
    intro rest count follow within
    have one : ¬ count + 1 > limits.maxValues := Nat.not_lt.mpr within
    have read := parseNumber_integerText safe follow
    obtain ⟨c, tail, whole, first⟩ := integerText_head value
    rw [whole, List.cons_append] at read
    have others : c ≠ 110 ∧ c ≠ 116 ∧ c ≠ 102 ∧ c ≠ 34 ∧ c ≠ 91 ∧ c ≠ 123 := by
      obtain rfl | digit := first
      · decide
      · refine ⟨?_, ?_, ?_, ?_, ?_, ?_⟩ <;> rintro rfl <;> revert digit <;> decide
    obtain ⟨n, t, f, quote, bracket, brace⟩ := others
    simp [render, whole, values, parseValue, one, n, t, f, quote, bracket, brace, first, read,
      Except.map]
  | @string room value valid =>
    intro rest count follow within
    have one : ¬ count + 1 > limits.maxValues := Nat.not_lt.mpr within
    have read := parseString_quoted value rest
    unfold quoted at read
    simp only [List.cons_append, List.append_assoc, List.nil_append] at read
    simp [render, quoted, values, parseValue, one, read, Except.map]
  | @array room items readable ih =>
    intro rest count follow within
    have one : ¬ count + 1 > limits.maxValues := by
      simp only [values] at within
      omega
    simp only [render, renderItems_eq, values, itemValues_eq, List.cons_append, List.append_assoc,
      List.nil_append] at within ⊢
    have body : parseArray (parseValue limits room) (joined (items.map render) ++ 93 :: rest)
        (count + 1) = .ok (.array items, rest, count + 1 + (items.map values).sum) := by
      cases items with
      | nil => rfl
      | cons item items =>
        obtain ⟨c, tail, whole, dark, other⟩ := render_head item
        have enough := length_joined ((item :: items).map render)
        have loop : parseItems (parseValue limits room) _ []
            (joined ((item :: items).map render) ++ 93 :: rest) (count + 1) =
              .ok ([] ++ item :: items, rest, _) :=
          parseItems_joined ih (by
            simp only [List.length_map, List.length_cons, List.length_append] at enough ⊢
            omega : items.length < (joined ((item :: items).map render) ++ 93 :: rest).length + 1)
            (by omega)
        rw [List.map_cons, joined, whole, List.cons_append, List.cons_append] at loop ⊢
        unfold parseArray
        rw [skipWhitespace_cons dark]
        split
        · next same =>
          cases same
          exact absurd rfl other
        · rw [loop]
          rfl
    simp [parseValue, one, body, Nat.add_assoc]
  | @object room members sorted valid readable ih =>
    intro rest count follow within
    have one : ¬ count + 1 > limits.maxValues := by
      simp only [values] at within
      omega
    simp only [render, renderMembers_eq, values, memberValues_eq, List.cons_append,
      List.append_assoc, List.nil_append] at within ⊢
    have body : parseObject (parseValue limits room) (joined (members.map renderMember) ++ 125 :: rest)
        (count + 1) =
          .ok (.object members, rest, count + 1 + (members.map (fun m => values m.2)).sum) := by
      cases members with
      | nil => rfl
      | cons member members =>
        have enough := length_joined ((member :: members).map renderMember)
        have loop : parseMembers (parseValue limits room) _ []
            (joined ((member :: members).map renderMember) ++ 125 :: rest) (count + 1) =
              .ok ([] ++ member :: members, rest, _) :=
          parseMembers_joined ih (by
            simp only [List.length_map, List.length_cons, List.length_append] at enough ⊢
            omega : members.length <
              (joined ((member :: members).map renderMember) ++ 125 :: rest).length + 1)
            (by omega)
        have same := sortMembers_of_increasing sorted
        have distinct := no_duplicate_of_increasing sorted
        rw [List.map_cons, joined, renderMember, quoted] at loop ⊢
        simp only [List.cons_append] at loop ⊢
        unfold parseObject
        rw [skipWhitespace_cons (by decide)]
        split
        · next same => simp at same
        · rw [loop]
          simp only [bind, Except.bind, List.nil_append, same, distinct]
          rfl
    simp [parseValue, one, body, Nat.add_assoc]

theorem ascii_text {text : Text} (small : text.all (· ≤ 0x7F) = true) :
    validUtf8 text = true := by
  apply validUtf8_ascii
  simpa using small

theorem validUtf8_quoted {value : Text} (valid : validUtf8 value = true) :
    validUtf8 (quoted value) = true := by
  unfold quoted
  rw [validUtf8_cons, if_pos (by decide), validUtf8_append (validUtf8_escaped valid)]
  decide

theorem decimal_utf8 (n : Nat) : validUtf8 (decimal n) = true := by
  apply validUtf8_ascii
  intro c member
  have digit := decimal_digits n c member
  simp only [isDigit, Bool.and_eq_true, decide_eq_true_eq] at digit
  exact digit.2.trans (by decide)

theorem joinedTail_utf8 {texts : List Text} (each : ∀ text ∈ texts, validUtf8 text = true) :
    validUtf8 (joinedTail texts) = true := by
  induction texts with
  | nil => rfl
  | cons text more ih =>
    rw [List.forall_mem_cons] at each
    unfold joinedTail at *
    rw [List.flatMap_cons, List.cons_append, validUtf8_cons, if_pos (by decide),
      validUtf8_append each.1, ih each.2]

theorem joined_utf8 {texts : List Text} (each : ∀ text ∈ texts, validUtf8 text = true) :
    validUtf8 (joined texts) = true := by
  cases texts with
  | nil => rfl
  | cons text more =>
    rw [List.forall_mem_cons] at each
    rw [joined, validUtf8_append each.1, joinedTail_utf8 each.2]

theorem render_utf8 {room : Nat} {value : CanonicalJsonValue} (readable : Readable room value) :
    validUtf8 (render value) = true := by
  induction readable with
  | null => exact ascii_text (by rw [render, ascii_null]; decide)
  | boolean value =>
    cases value with
    | true => exact ascii_text (by simp only [render, if_true, ascii_true]; decide)
    | false => exact ascii_text (by
        simp only [render, Bool.false_eq_true, if_false, ascii_false]
        decide)
  | @integer room value safe =>
    cases value with
    | ofNat n => exact decimal_utf8 n
    | negSucc n =>
      rw [render, integerText, validUtf8_cons, if_pos (by decide), decimal_utf8]
  | string valid => exact validUtf8_quoted valid
  | @array room items readable ih =>
    have inner : validUtf8 (joined (items.map render)) = true := by
      apply joined_utf8
      simpa using ih
    rw [render, renderItems_eq, validUtf8_cons, if_pos (by decide), validUtf8_append inner]
    decide
  | @object room members sorted valid readable ih =>
    have inner : validUtf8 (joined (members.map renderMember)) = true := by
      apply joined_utf8
      intro text there
      obtain ⟨member, listed, rfl⟩ := List.mem_map.mp there
      rw [renderMember, validUtf8_append (validUtf8_quoted (valid member listed)), validUtf8_cons,
        if_pos (by decide), ih member listed]
    rw [render, renderMembers_eq, validUtf8_cons, if_pos (by decide), validUtf8_append inner]
    decide

/-! Whole documents. -/

theorem parseDocument_render {value : CanonicalJsonValue}
    (readable : Readable limits.maxDepth value) (within : values value ≤ limits.maxValues) :
    parseDocument limits (render value) = .ok value := by
  obtain ⟨c, tail, whole, dark, -⟩ := render_head value
  have read := @parseValue_render limits _ _ readable [] 0 (by simp [Follow])
    (by simpa using within)
  rw [List.append_nil] at read
  unfold parseDocument
  have start : skipWhitespace (render value) = render value := by
    rw [whole, skipWhitespace_cons dark]
  rw [start, read]
  rfl

theorem encode_adds {value : CanonicalJsonValue} {text : Text}
    (encoded : encodeCanonicalJsonValue value limits = .ok text) :
    limits.empty = false ∧ text = render (canonical value) ∧
      Readable limits.maxDepth (canonical value) ∧
      values (canonical value) ≤ limits.maxValues ∧ text.length ≤ limits.maxOutputBytes := by
  unfold encodeCanonicalJsonValue at encoded
  split at encoded
  · cases encoded
  next some =>
  cases written : appendValue limits value 1 {} with
  | error e =>
    rw [written] at encoded
    cases encoded
  | ok w =>
    rw [written] at encoded
    cases encoded
    obtain ⟨readable, adds⟩ := appendValue_adds written
    have count := adds.bound (Nat.zero_le _)
    rw [adds.valueCount] at count
    have output := adds.output
    simp only [List.nil_append] at output
    refine ⟨by simpa using some, output, by simpa using readable, by simpa using count, ?_⟩
    exact adds.bytes (Nat.zero_le _)

/-- A value that has been written is read back, with the members of its objects in order, if
the reader takes a text of that length. -/
theorem parse_encode {value : CanonicalJsonValue} {text : Text}
    (encoded : encodeCanonicalJsonValue value limits = .ok text)
    (small : text.length ≤ limits.maxInputBytes) :
    parseCanonicalJsonValue text limits = .ok (canonical value) := by
  obtain ⟨some, rfl, readable, count, -⟩ := encode_adds encoded
  have read := parseDocument_render readable count
  unfold parseCanonicalJsonValue
  rw [some, if_neg (by decide), if_neg (Nat.not_lt.mpr small), render_utf8 readable, read]
  rfl

theorem encode_canonical (value : CanonicalJsonValue) :
    encodeCanonicalJsonValue (canonical value) limits = encodeCanonicalJsonValue value limits := by
  unfold encodeCanonicalJsonValue
  rw [appendValue_canonical]

end Baas.Auth
