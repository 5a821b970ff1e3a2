import Baas.Pipe.Framing

/-! The decoder byte by byte: what it has found does not depend on how its input was cut. -/
namespace Baas.Pipe

theorem headerSize_eq : headerSize = 10 := rfl

/-- What a complete header says of its frame: its kind and the length of its payload. -/
def headerVerdict (header : Bytes) : Except FramingError (UInt8 × Nat) :=
  if header.take 4 ≠ magic then .error .invalidMagic
  else if header.getD 4 0 ≠ version then .error (.unsupportedVersion (header.getD 4 0))
  else if maxPayloadSize < declaredPayloadSize header then
    .error (.payloadTooLarge (declaredPayloadSize header))
  else .ok (header.getD 5 0, declaredPayloadSize header)

/-- Where in a stream of frames the bytes so far end. -/
inductive Scan
  | header (header : Bytes)
  | payload (header : Bytes) (kind : UInt8) (declared : Nat) (payload : Bytes)
  | broken (error : FramingError)

namespace Scan

def decoder : Scan → Decoder
  | header h => ⟨h, 0, none, [], none⟩
  | payload h kind declared p => ⟨h, kind, some declared, p, none⟩
  | broken error => ⟨[], 0, none, [], some error⟩

/-- Neither part is ever complete. -/
def Within : Scan → Prop
  | header h => h.length < headerSize
  | payload h _ declared p => h.length = headerSize ∧ p.length < declared
  | broken _ => True

def afterHeader (h : Bytes) : Scan × List Frame :=
  match headerVerdict h with
  | .error error => (broken error, [])
  | .ok (kind, declared) =>
    if declared = 0 then (header [], [⟨kind, []⟩]) else (payload h kind declared [], [])

def byte : Scan → UInt8 → Scan × List Frame
  | header h, b =>
    if (h ++ [b]).length < headerSize then (header (h ++ [b]), []) else afterHeader (h ++ [b])
  | payload h kind declared p, b =>
    if (p ++ [b]).length = declared then (header [], [⟨kind, p ++ [b]⟩])
    else (payload h kind declared (p ++ [b]), [])
  | broken error, _ => (broken error, [])

def bytes : Scan → Bytes → Scan × List Frame
  | s, [] => (s, [])
  | s, b :: rest =>
    let next := s.byte b
    let more := next.1.bytes rest
    (more.1, next.2 ++ more.2)

theorem bytes_nil (s : Scan) : s.bytes [] = (s, []) := by
  cases s <;> rfl

theorem bytes_cons (s : Scan) (b : UInt8) (rest : Bytes) :
    s.bytes (b :: rest) =
      (((s.byte b).1.bytes rest).1, (s.byte b).2 ++ ((s.byte b).1.bytes rest).2) := by
  cases s <;> rfl

theorem bytes_append (s : Scan) (a b : Bytes) :
    s.bytes (a ++ b) = (((s.bytes a).1.bytes b).1, (s.bytes a).2 ++ ((s.bytes a).1.bytes b).2) := by
  induction a generalizing s with
  | nil => simp only [List.nil_append, bytes_nil]
  | cons x more ih => simp only [List.cons_append, bytes_cons, ih, List.append_assoc]

theorem broken_bytes (error : FramingError) (a : Bytes) :
    (broken error).bytes a = (broken error, []) := by
  induction a with
  | nil => rfl
  | cons x more ih => simp only [bytes_cons, byte, ih, List.append_nil]

theorem afterHeader_within {h : Bytes} (full : h.length = headerSize) :
    (afterHeader h).1.Within := by
  unfold afterHeader
  cases headerVerdict h with
  | error e => trivial
  | ok found =>
    by_cases none : found.2 = 0
    · simp only [if_pos none]
      exact (by decide : 0 < headerSize)
    · simp only [if_neg none]
      exact ⟨full, Nat.pos_of_ne_zero none⟩

theorem byte_within {s : Scan} (within : s.Within) (b : UInt8) : (s.byte b).1.Within := by
  cases s with
  | header h =>
    simp only [byte]
    by_cases short : (h ++ [b]).length < headerSize
    · rw [if_pos short]
      exact short
    · rw [if_neg short]
      have one : (h ++ [b]).length = h.length + 1 := List.length_append
      have room : h.length < headerSize := within
      exact afterHeader_within (by omega)
  | payload h kind declared p =>
    simp only [byte]
    have room : h.length = headerSize ∧ p.length < declared := within
    by_cases full : (p ++ [b]).length = declared
    · rw [if_pos full]
      exact (by decide : 0 < headerSize)
    · rw [if_neg full]
      have one : (p ++ [b]).length = p.length + 1 := List.length_append
      exact ⟨room.1, by omega⟩
  | broken error => trivial

theorem bytes_within {s : Scan} (within : s.Within) (a : Bytes) : (s.bytes a).1.Within := by
  induction a generalizing s with
  | nil => simpa only [bytes_nil] using within
  | cons b rest ih =>
    rw [bytes_cons]
    exact ih (byte_within within b)

/-! A part of a header or of a payload at once. -/

theorem header_short (h a : Bytes) (short : (h ++ a).length < headerSize) :
    (header h).bytes a = (header (h ++ a), []) := by
  induction a generalizing h with
  | nil => rw [bytes_nil, List.append_nil]
  | cons b rest ih =>
    have split : h ++ b :: rest = h ++ [b] ++ rest := by simp
    rw [split] at short ⊢
    have first : (h ++ [b]).length < headerSize := by
      rw [List.length_append] at short
      omega
    simp only [bytes_cons, byte, if_pos first, ih _ short, List.nil_append]

theorem header_full (h a : Bytes) (full : (h ++ a).length = headerSize) (some : a ≠ []) :
    (header h).bytes a = afterHeader (h ++ a) := by
  obtain ⟨init, b, rfl⟩ := List.eq_nil_or_concat a |>.resolve_left some
  rw [List.concat_eq_append] at full ⊢
  rw [← List.append_assoc] at full ⊢
  have short : (h ++ init).length < headerSize := by
    rw [List.length_append, List.length_singleton] at full
    omega
  have last : ¬ (h ++ init ++ [b]).length < headerSize := by omega
  simp only [bytes_append, header_short h init short, bytes_cons, bytes_nil, byte, if_neg last,
    List.nil_append, List.append_nil]

theorem payload_short (h : Bytes) (kind : UInt8) (declared : Nat) (p a : Bytes)
    (short : (p ++ a).length < declared) :
    (payload h kind declared p).bytes a = (payload h kind declared (p ++ a), []) := by
  induction a generalizing p with
  | nil => rw [bytes_nil, List.append_nil]
  | cons b rest ih =>
    have split : p ++ b :: rest = p ++ [b] ++ rest := by simp
    rw [split] at short ⊢
    have first : ¬ (p ++ [b]).length = declared := by
      rw [List.length_append] at short
      omega
    simp only [bytes_cons, byte, if_neg first, ih _ short, List.nil_append]

theorem payload_full (h : Bytes) (kind : UInt8) (declared : Nat) (p a : Bytes)
    (full : (p ++ a).length = declared) (some : a ≠ []) :
    (payload h kind declared p).bytes a = (header [], [⟨kind, p ++ a⟩]) := by
  obtain ⟨init, b, rfl⟩ := List.eq_nil_or_concat a |>.resolve_left some
  rw [List.concat_eq_append] at full ⊢
  rw [← List.append_assoc] at full ⊢
  have short : (p ++ init).length < declared := by
    rw [List.length_append, List.length_singleton] at full
    omega
  simp only [bytes_append, payload_short h kind declared p init short, bytes_cons, bytes_nil,
    byte, if_pos full, List.nil_append, List.append_nil]

end Scan

/-- How far into its input one round of a decoder goes. -/
def FedOnce (s : Scan) (input : Bytes) : Prop :=
  ∃ taken rest frame next, input = taken ++ rest ∧ taken ≠ [] ∧
    s.decoder.feedOnce input = (next.decoder, frame, rest) ∧
    s.bytes taken = (next, Option.toList frame)

theorem take_min_eq (n : Nat) (a : Bytes) : a.take (min n a.length) = a.take n := by
  rcases Nat.le_total n a.length with h | h
  · rw [Nat.min_eq_left h]
  · rw [Nat.min_eq_right h, List.take_length, List.take_of_length_le h]

theorem drop_min_eq (n : Nat) (a : Bytes) : a.drop (min n a.length) = a.drop n := by
  rcases Nat.le_total n a.length with h | h
  · rw [Nat.min_eq_left h]
  · rw [Nat.min_eq_right h, List.drop_length, List.drop_of_length_le h]

theorem takePayload_scan (h : Bytes) (kind : UInt8) (declared : Nat) (p input : Bytes)
    (room : p.length < declared) :
    ∃ frame next, (Scan.payload h kind declared p).decoder.takePayload declared input =
        (next.decoder, frame, input.drop (declared - p.length)) ∧
      (Scan.payload h kind declared p).bytes (input.take (declared - p.length)) =
        (next, Option.toList frame) := by
  have size : (p ++ input.take (declared - p.length)).length =
      p.length + min (declared - p.length) input.length := by
    rw [List.length_append, List.length_take]
  unfold Decoder.takePayload
  simp only [Scan.decoder, take_min_eq, drop_min_eq]
  by_cases full : (p ++ input.take (declared - p.length)).length = declared
  · rw [if_pos full]
    refine ⟨some ⟨kind, p ++ input.take (declared - p.length)⟩, .header [], rfl, ?_⟩
    refine Scan.payload_full h kind declared p _ full (fun none => ?_)
    rw [none, List.append_nil] at full
    omega
  · rw [if_neg full]
    exact ⟨none, .payload h kind declared (p ++ input.take (declared - p.length)), rfl,
      Scan.payload_short h kind declared p _ (by omega)⟩

theorem openFrame_scan (h input : Bytes) :
    ∃ taken rest frame next, input = taken ++ rest ∧
      Decoder.openFrame ⟨h, 0, none, [], none⟩ input = (next.decoder, frame, rest) ∧
      ((Scan.afterHeader h).1.bytes taken).1 = next ∧
      (Scan.afterHeader h).2 ++ ((Scan.afterHeader h).1.bytes taken).2 =
        Option.toList frame := by
  unfold Decoder.openFrame Scan.afterHeader headerVerdict
  by_cases other : h.take 4 ≠ magic
  · simp only [if_pos other]
    exact ⟨[], input, none, .broken .invalidMagic, rfl, rfl, rfl, rfl⟩
  by_cases foreign : h.getD 4 0 ≠ version
  · simp only [if_neg other, if_pos foreign]
    exact ⟨[], input, none, .broken (.unsupportedVersion (h.getD 4 0)), rfl, rfl, rfl, rfl⟩
  by_cases large : maxPayloadSize < declaredPayloadSize h
  · simp only [if_neg other, if_neg foreign, if_pos large]
    exact ⟨[], input, none, .broken (.payloadTooLarge (declaredPayloadSize h)), rfl, rfl, rfl, rfl⟩
  simp only [if_neg other, if_neg foreign, if_neg large]
  by_cases empty : declaredPayloadSize h = 0
  · simp only [if_pos empty]
    exact ⟨[], input, some ⟨h.getD 5 0, []⟩, .header [], rfl, rfl, rfl, rfl⟩
  · simp only [if_neg empty]
    obtain ⟨frame, next, fed, scanned⟩ := takePayload_scan h (h.getD 5 0)
      (declaredPayloadSize h) [] input (Nat.pos_of_ne_zero empty)
    refine ⟨input.take (declaredPayloadSize h), input.drop (declaredPayloadSize h), frame, next,
      (List.take_append_drop _ _).symm, fed, ?_⟩
    simp only [List.length_nil, Nat.sub_zero] at scanned
    rw [scanned]
    exact ⟨rfl, rfl⟩

theorem feedOnce_scan {s : Scan} (within : s.Within) (sound : s.decoder.error = none)
    {input : Bytes} (some : input ≠ []) : FedOnce s input := by
  have positive : 0 < input.length := List.length_pos_iff.mpr some
  cases s with
  | broken error => cases sound
  | payload h kind declared p =>
    have room : h.length = headerSize ∧ p.length < declared := within
    obtain ⟨frame, next, fed, scanned⟩ := takePayload_scan h kind declared p input room.2
    refine ⟨_, _, frame, next, (List.take_append_drop (declared - p.length) input).symm, ?_, ?_,
      scanned⟩
    · intro none
      have size := congrArg List.length none
      rw [List.length_take, List.length_nil] at size
      omega
    · have whole : ¬ h.length < headerSize := by omega
      unfold Decoder.feedOnce
      rw [if_neg (by exact whole)]
      exact fed
  | header h =>
    have room : h.length < headerSize := within
    unfold FedOnce Decoder.feedOnce
    simp only [Scan.decoder, if_pos room, take_min_eq, drop_min_eq]
    have size : (h ++ input.take (headerSize - h.length)).length =
        h.length + min (headerSize - h.length) input.length := by
      rw [List.length_append, List.length_take]
    by_cases short : (h ++ input.take (headerSize - h.length)).length < headerSize
    · simp only [if_pos short]
      have all : input.take (headerSize - h.length) = input :=
        List.take_of_length_le (by omega)
      refine ⟨input, [], none, .header (h ++ input), (List.append_nil _).symm, some, ?_, ?_⟩
      · rw [all, List.drop_of_length_le (by omega)]
      · rw [all] at short
        exact Scan.header_short h input short
    · simp only [if_neg short]
      have full : (h ++ input.take (headerSize - h.length)).length = headerSize := by omega
      have piece : input.take (headerSize - h.length) ≠ [] := by
        intro none
        have size := congrArg List.length none
        rw [List.length_take, List.length_nil] at size
        omega
      obtain ⟨taken, rest, frame, next, cut, fed, last, frames⟩ :=
        openFrame_scan (h ++ input.take (headerSize - h.length))
          (input.drop (headerSize - h.length))
      refine ⟨input.take (headerSize - h.length) ++ taken, rest, frame, next, ?_, ?_, fed, ?_⟩
      · rw [List.append_assoc, ← cut, List.take_append_drop]
      · intro none
        exact piece (List.append_eq_nil_iff.mp none).1
      · rw [Scan.bytes_append, Scan.header_full h _ full piece, last, frames]

theorem feedLoop_scan {s : Scan} (within : s.Within) {rounds : Nat} {input : Bytes}
    (enough : input.length ≤ rounds) :
    Decoder.feedLoop rounds s.decoder input =
      ((s.bytes input).1.decoder, (s.bytes input).2) := by
  induction rounds generalizing s input with
  | zero =>
    have none : input = [] := List.eq_nil_of_length_eq_zero (Nat.le_zero.mp enough)
    subst none
    rw [Scan.bytes_nil]
    rfl
  | succ rounds ih =>
    unfold Decoder.feedLoop
    by_cases none : input = []
    · rw [if_pos (.inl none), none, Scan.bytes_nil]
    cases sound : s.decoder.error with
    | some error =>
      rw [if_pos (.inr rfl)]
      cases s with
      | header _ => cases sound
      | payload _ _ _ _ => cases sound
      | broken error => rw [Scan.broken_bytes]
    | none =>
      have going : ¬ (input = [] ∨ (Option.none : Option FramingError).isSome = true) := by
        simp [none]
      rw [if_neg going]
      obtain ⟨taken, rest, frame, next, rfl, piece, fed, scanned⟩ :=
        feedOnce_scan within sound none
      have inside : next.Within := by
        have kept := Scan.bytes_within within taken
        rwa [scanned] at kept
      have fewer : rest.length ≤ rounds := by
        have positive : 0 < taken.length := List.length_pos_iff.mpr piece
        rw [List.length_append] at enough
        omega
      rw [fed]
      simp only [ih inside fewer, Scan.bytes_append, scanned]

theorem feed_scan {s : Scan} (within : s.Within) (input : Bytes) :
    s.decoder.feed input = ((s.bytes input).1.decoder, (s.bytes input).2) :=
  feedLoop_scan within (Nat.le_refl _)

theorem fresh_within : (Scan.header []).Within := (by decide : 0 < headerSize)

/-- Feeding piece after piece gives the frames of feeding everything at once. -/
theorem feed_append (a b : Bytes) :
    let first := Decoder.fresh.feed a
    let second := first.1.feed b
    Decoder.fresh.feed (a ++ b) = (second.1, first.2 ++ second.2) := by
  have whole := feed_scan fresh_within (a ++ b)
  have part := feed_scan fresh_within a
  have inside := Scan.bytes_within fresh_within a
  show (Scan.header []).decoder.feed (a ++ b) =
    ((((Scan.header []).decoder.feed a).1.feed b).1,
      ((Scan.header []).decoder.feed a).2 ++ (((Scan.header []).decoder.feed a).1.feed b).2)
  rw [whole, part, feed_scan inside b, Scan.bytes_append]

end Baas.Pipe
