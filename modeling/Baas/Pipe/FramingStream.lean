import Baas.Pipe.FramingRun

/-! Whole streams through the decoder: what the encoder wrote comes back, however it is
cut, within a fixed buffer. -/
namespace Baas.Pipe

/-- The chunks of a stream, one `feed` after the other. -/
def Decoder.feedAll (d : Decoder) : List Bytes → Decoder × List Frame
  | [] => (d, [])
  | chunk :: rest =>
    let first := d.feed chunk
    let later := first.1.feedAll rest
    (later.1, first.2 ++ later.2)

def Encodes (frame : Frame) (bytes : Bytes) : Prop :=
  encodeFrame frame.kind frame.payload = .ok bytes

namespace Scan

/-- No payload is announced beyond the limit. -/
def Capped : Scan → Prop
  | payload _ _ declared _ => declared ≤ maxPayloadSize
  | _ => True

theorem afterHeader_capped (h : Bytes) : (afterHeader h).1.Capped := by
  unfold afterHeader headerVerdict
  by_cases other : h.take 4 ≠ magic
  · rw [if_pos other]
    trivial
  by_cases foreign : h.getD 4 0 ≠ version
  · rw [if_neg other, if_pos foreign]
    trivial
  by_cases large : maxPayloadSize < declaredPayloadSize h
  · rw [if_neg other, if_neg foreign, if_pos large]
    trivial
  rw [if_neg other, if_neg foreign, if_neg large]
  by_cases empty : declaredPayloadSize h = 0
  · simp only [if_pos empty]
    trivial
  · simp only [if_neg empty]
    exact Nat.not_lt.mp large

theorem byte_capped {s : Scan} (capped : s.Capped) (b : UInt8) : (s.byte b).1.Capped := by
  cases s with
  | header h =>
    simp only [byte]
    split
    · trivial
    · exact afterHeader_capped _
  | payload h kind declared p =>
    simp only [byte]
    split
    · trivial
    · exact capped
  | broken error => trivial

theorem fresh_capped : (header []).Capped := trivial

theorem bytes_capped {s : Scan} (capped : s.Capped) (a : Bytes) : (s.bytes a).1.Capped := by
  induction a generalizing s with
  | nil => simpa only [bytes_nil] using capped
  | cons b rest ih =>
    rw [bytes_cons]
    exact ih (byte_capped capped b)

theorem buffered {s : Scan} (within : s.Within) (capped : s.Capped) :
    s.decoder.bufferedBytes ≤ headerSize + maxPayloadSize := by
  cases s with
  | header h =>
    have room : h.length < headerSize := within
    simp only [decoder, Decoder.bufferedBytes, List.length_nil]
    omega
  | payload h kind declared p =>
    have room : h.length = headerSize ∧ p.length < declared := within
    have least : declared ≤ maxPayloadSize := capped
    simp only [decoder, Decoder.bufferedBytes]
    omega
  | broken error => exact Nat.zero_le _

end Scan

/-! The chunks against the whole. -/

theorem feedAll_scan {s : Scan} (within : s.Within) (chunks : List Bytes) :
    s.decoder.feedAll chunks = ((s.bytes chunks.flatten).1.decoder, (s.bytes chunks.flatten).2) := by
  induction chunks generalizing s with
  | nil =>
    rw [List.flatten_nil, Scan.bytes_nil]
    rfl
  | cons chunk rest ih =>
    have inside := Scan.bytes_within within chunk
    rw [List.flatten_cons, Scan.bytes_append]
    simp only [Decoder.feedAll, feed_scan within chunk, ih inside]

theorem fresh_feedAll (chunks : List Bytes) :
    Decoder.fresh.feedAll chunks =
      (((Scan.header []).bytes chunks.flatten).1.decoder,
        ((Scan.header []).bytes chunks.flatten).2) :=
  feedAll_scan fresh_within chunks

theorem fresh_feed (bytes : Bytes) :
    Decoder.fresh.feed bytes =
      (((Scan.header []).bytes bytes).1.decoder, ((Scan.header []).bytes bytes).2) :=
  feed_scan fresh_within bytes

/-! What the encoder wrote. -/

theorem declared_of_size {size : Nat} (fits : size ≤ maxPayloadSize) (kind : UInt8) :
    declaredPayloadSize (magic ++ [version, kind, UInt8.ofNat size, UInt8.ofNat (size / 2 ^ 8),
      UInt8.ofNat (size / 2 ^ 16), UInt8.ofNat (size / 2 ^ 24)]) = size := by
  have bound : size ≤ 64 * 1024 * 1024 := fits
  simp only [declaredPayloadSize, magic, List.cons_append, List.nil_append, List.getD_cons_succ,
    List.getD_cons_zero, UInt8.toNat_ofNat']
  omega

theorem frame_scan {frame : Frame} {bytes : Bytes} (encodes : Encodes frame bytes) :
    (Scan.header []).bytes bytes = (.header [], [frame]) := by
  obtain ⟨kind, payload⟩ := frame
  have encodes : encodeFrame kind payload = .ok bytes := encodes
  unfold encodeFrame encodeHeader at encodes
  by_cases large : maxPayloadSize < payload.length
  · simp only [if_pos large] at encodes
    cases encodes
  simp only [if_neg large] at encodes
  cases encodes
  generalize shape : magic ++ [version, kind, UInt8.ofNat payload.length,
    UInt8.ofNat (payload.length / 2 ^ 8), UInt8.ofNat (payload.length / 2 ^ 16),
    UInt8.ofNat (payload.length / 2 ^ 24)] = header
  have size : header.length = headerSize := by
    rw [← shape]
    rfl
  have declared : declaredPayloadSize header = payload.length := by
    rw [← shape]
    exact declared_of_size (Nat.not_lt.mp large) kind
  have verdict : headerVerdict header = .ok (kind, payload.length) := by
    have genuine : ¬ header.take 4 ≠ magic := by
      rw [← shape]
      exact not_not_intro rfl
    have current : ¬ header.getD 4 0 ≠ version := by
      rw [← shape]
      exact not_not_intro rfl
    have named : header.getD 5 0 = kind := by
      rw [← shape]
      rfl
    rw [headerVerdict, if_neg genuine, if_neg current, declared, if_neg large, named]
  have opened : (Scan.header []).bytes header = Scan.afterHeader header :=
    Scan.header_full [] header size (fun none => by rw [none] at size; cases size)
  rw [Scan.bytes_append, opened]
  by_cases empty : payload = []
  · subst empty
    have after : Scan.afterHeader header = (.header [], [⟨kind, []⟩]) := by
      rw [Scan.afterHeader, verdict]
      rfl
    rw [after, Scan.bytes_nil, List.append_nil]
  · have after : Scan.afterHeader header = (.payload header kind payload.length [], []) := by
      rw [Scan.afterHeader, verdict]
      exact if_neg (fun none => empty (List.eq_nil_of_length_eq_zero none))
    rw [after, Scan.payload_full header kind payload.length [] payload rfl empty]
    rfl

theorem frames_scan {frames : List Frame} {encodings : List Bytes}
    (encodes : List.Forall₂ Encodes frames encodings) :
    (Scan.header []).bytes encodings.flatten = (.header [], frames) := by
  induction encodes with
  | nil => rfl
  | cons first rest ih =>
    rw [List.flatten_cons, Scan.bytes_append, frame_scan first, ih]
    rfl

/-- Nothing is delivered after an error. -/
theorem broken_silent {s : Scan} (broken : s.decoder.error.isSome) (more : Bytes) :
    s.bytes more = (s, []) := by
  cases s with
  | header h => cases broken
  | payload h kind declared p => cases broken
  | broken error => exact Scan.broken_bytes error more

/-- Encoded frames come back exactly; the cut of a stream does not matter; the buffer is
bounded; an error is the end. -/
theorem streams_decode_exactly :
    (∀ frames encodings, List.Forall₂ Encodes frames encodings →
      Decoder.fresh.feed encodings.flatten = (Decoder.fresh, frames)) ∧
    (∀ chunks, Decoder.fresh.feedAll chunks = Decoder.fresh.feed chunks.flatten) ∧
    (∀ chunks, (Decoder.fresh.feedAll chunks).1.bufferedBytes ≤ headerSize + maxPayloadSize) ∧
    ∀ chunks, (Decoder.fresh.feedAll chunks).1.error.isSome = true → ∀ more,
      Decoder.fresh.feedAll (chunks ++ more) = Decoder.fresh.feedAll chunks := by
  refine ⟨fun frames encodings encodes => ?_, fun chunks => ?_, fun chunks => ?_,
    fun chunks broken more => ?_⟩
  · rw [fresh_feed, frames_scan encodes]
    rfl
  · rw [fresh_feedAll, fresh_feed]
  · rw [fresh_feedAll]
    exact Scan.buffered (Scan.bytes_within fresh_within _) (Scan.bytes_capped Scan.fresh_capped _)
  · rw [fresh_feedAll] at broken
    rw [fresh_feedAll, fresh_feedAll, List.flatten_append, Scan.bytes_append,
      broken_silent broken, List.append_nil]

/-- A frame and an empty one, and a header that is not ours cut in two. -/
theorem streams_decode_exactly_small :
    Decoder.fresh.feed ([[0x42, 0x50, 0x49, 0x50, 1, 1, 2, 0, 0, 0, 123, 125],
        [0x42, 0x50, 0x49, 0x50, 1, 3, 0, 0, 0, 0]].flatten) =
      (Decoder.fresh, [⟨1, [123, 125]⟩, ⟨3, []⟩]) ∧
    Decoder.fresh.feedAll ([[0, 0, 0], [0, 0, 0, 0, 0, 0, 0]] ++ [[0x42]]) =
      Decoder.fresh.feedAll [[0, 0, 0], [0, 0, 0, 0, 0, 0, 0]] :=
  ⟨streams_decode_exactly.1 _ _ (.cons rfl (.cons rfl .nil)),
    streams_decode_exactly.2.2.2 _ (by decide) _⟩

end Baas.Pipe
