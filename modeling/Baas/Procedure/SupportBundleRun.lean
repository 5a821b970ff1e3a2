import Baas.Lib.LittleEndian
import Baas.Procedure.SupportBundle

/-! Which byte strings `preflight_zip` accepts: the concatenation of the local headers with their
payloads, of the central headers and of the end record, and nothing else. -/
namespace Baas.SupportBundle

open JsonText (ascii)
open LittleEndian (bytes field)

variable {archive : Bytes} {limits : CoDetectSupportBundleLimits}

/-! Reading. -/

theorem take_cons {offset n : Nat} (inside : offset < archive.length) :
    (archive.drop offset).take (n + 1) =
      archive[offset] :: (archive.drop (offset + 1)).take n := by
  rw [List.drop_eq_getElem_cons inside, List.take_succ_cons]

/-- A byte placed above `n` bits. -/
theorem or_above {x y n : Nat} (small : x < 2 ^ n) : x ||| y <<< n = x + 2 ^ n * y := by
  rw [Nat.or_comm, ← Nat.shiftLeft_add_eq_or_of_lt small, Nat.shiftLeft_eq]
  ring

theorem byteAt_eq (offset : Nat) (inside : offset < archive.length) :
    byteAt archive offset = .ok (archive[offset]).toNat := by
  rw [byteAt, List.getElem?_eq_getElem inside]

theorem byteAt_outside (offset : Nat) (past : ¬ offset < archive.length) :
    byteAt archive offset = .error .outside := by
  rw [byteAt, List.getElem?_eq_none (Nat.le_of_not_lt past)]

theorem le16_eq (offset : Nat) : le16 archive offset =
    if offset + 2 ≤ archive.length then .ok (field archive offset 2) else .error .outside := by
  unfold le16
  by_cases inside : offset + 2 ≤ archive.length
  · rw [if_pos inside, byteAt_eq offset (by omega), byteAt_eq (offset + 1) (by omega), field,
      take_cons (by omega), take_cons (by omega)]
    have low := (archive[offset]).toNat_lt
    simp only [bind, Except.bind, LittleEndian.value, List.take_zero, or_above (n := 8) low]
    rfl
  · rw [if_neg inside]
    by_cases first : offset < archive.length
    · rw [byteAt_eq offset first, byteAt_outside (offset + 1) (by omega)]
      rfl
    · rw [byteAt_outside offset first]
      rfl

theorem le32_eq (offset : Nat) : le32 archive offset =
    if offset + 4 ≤ archive.length then .ok (field archive offset 4) else .error .outside := by
  unfold le32
  by_cases inside : offset + 4 ≤ archive.length
  · rw [if_pos inside, byteAt_eq offset (by omega), byteAt_eq (offset + 1) (by omega),
      byteAt_eq (offset + 2) (by omega), byteAt_eq (offset + 3) (by omega), field,
      take_cons (by omega), take_cons (by omega), take_cons (by omega), take_cons (by omega)]
    have b0 := (archive[offset]).toNat_lt
    have b1 := (archive[offset + 1]).toNat_lt
    have b2 := (archive[offset + 2]).toNat_lt
    simp only [bind, Except.bind, LittleEndian.value, List.take_zero]
    rw [or_above (n := 8) (by omega), or_above (n := 16) (by omega), or_above (n := 24) (by omega)]
    congr 1
    ring
  · rw [if_neg inside]
    by_cases first : offset < archive.length
    · rw [byteAt_eq offset first]
      by_cases second : offset + 1 < archive.length
      · rw [byteAt_eq (offset + 1) second]
        by_cases third : offset + 2 < archive.length
        · rw [byteAt_eq (offset + 2) third, byteAt_outside (offset + 3) (by omega)]
          rfl
        · rw [byteAt_outside (offset + 2) third]
          rfl
      · rw [byteAt_outside (offset + 1) second]
        rfl
    · rw [byteAt_outside offset first]
      rfl

variable {α β : Type}

theorem le16_then {offset : Nat} {next : Nat → Checked β} {b : β} :
    (le16 archive offset >>= next) = .ok b ↔
      offset + 2 ≤ archive.length ∧ next (field archive offset 2) = .ok b := by
  rw [le16_eq]
  by_cases inside : offset + 2 ≤ archive.length
  · rw [if_pos inside]
    exact ⟨fun done => ⟨inside, done⟩, fun both => both.2⟩
  · rw [if_neg inside]
    exact ⟨fun done => (by cases done), fun both => absurd both.1 inside⟩

theorem le32_then {offset : Nat} {next : Nat → Checked β} {b : β} :
    (le32 archive offset >>= next) = .ok b ↔
      offset + 4 ≤ archive.length ∧ next (field archive offset 4) = .ok b := by
  rw [le32_eq]
  by_cases inside : offset + 4 ≤ archive.length
  · rw [if_pos inside]
    exact ⟨fun done => ⟨inside, done⟩, fun both => both.2⟩
  · rw [if_neg inside]
    exact ⟨fun done => (by cases done), fun both => absurd both.1 inside⟩

theorem slice_then {offset size : Nat} {next : Bytes → Checked β} {b : β} :
    (slice archive offset size >>= next) = .ok b ↔
      offset + size ≤ archive.length ∧ next ((archive.drop offset).take size) = .ok b := by
  unfold slice
  by_cases inside : offset + size ≤ archive.length
  · rw [if_pos inside]
    exact ⟨fun done => ⟨inside, done⟩, fun both => both.2⟩
  · rw [if_neg inside]
    exact ⟨fun done => (by cases done), fun both => absurd both.1 inside⟩

theorem failIf_then {c : Prop} [Decidable c] {error : CoDetectSupportBundleError}
    {member : Option Nat} {next : Unit → Checked β} {b : β} :
    (failIf c error member >>= next) = .ok b ↔ ¬ c ∧ next () = .ok b := by
  unfold failIf
  by_cases refused : c
  · rw [if_pos refused]
    exact ⟨fun done => (by cases done), fun both => absurd refused both.1⟩
  · rw [if_neg refused]
    exact ⟨fun done => ⟨refused, done⟩, fun both => both.2⟩

/-! Headers. -/

/-- A header of the central directory. -/
structure CentralHeader where
  versionMade : Nat
  time : Nat
  internal : Nat
  external : Nat
  entry : ZipEntry

def centralText (header : CentralHeader) : Bytes :=
  bytes 4 0x02014b50 ++ (bytes 2 header.versionMade ++ (bytes 2 header.entry.versionNeeded ++
    (bytes 2 header.entry.flags ++ (bytes 2 header.entry.method ++ (bytes 4 header.time ++
    (bytes 4 header.entry.crc32 ++ (bytes 4 header.entry.compressedSize ++
    (bytes 4 header.entry.uncompressedSize ++ (bytes 2 header.entry.name.length ++
    (bytes 2 0 ++ (bytes 2 0 ++ (bytes 2 0 ++ (bytes 2 header.internal ++
    (bytes 4 header.external ++ (bytes 4 header.entry.localOffset ++ header.entry.name)))))))))))))))

/-- A local header and the payload behind it. -/
def localText (entry : ZipEntry) (time : Nat) (payload : Bytes) : Bytes :=
  bytes 4 0x04034b50 ++ (bytes 2 entry.versionNeeded ++ (bytes 2 entry.flags ++
    (bytes 2 entry.method ++ (bytes 4 time ++ (bytes 4 entry.crc32 ++
    (bytes 4 entry.compressedSize ++ (bytes 4 entry.uncompressedSize ++
    (bytes 2 entry.name.length ++ (bytes 2 0 ++ (entry.name ++ payload))))))))))

/-- The end record, with no comment. -/
def endText (count size offset : Nat) : Bytes :=
  bytes 4 0x06054b50 ++ (bytes 2 0 ++ (bytes 2 0 ++ (bytes 2 count ++ (bytes 2 count ++
    (bytes 4 size ++ (bytes 4 offset ++ bytes 2 0))))))

theorem text_then {offset : Nat} {text rest : Bytes} (some : text ≠ []) :
    archive.drop offset = text ++ rest ↔
      offset + text.length ≤ archive.length ∧ (archive.drop offset).take text.length = text ∧
        archive.drop (offset + text.length) = rest := by
  constructor
  · intro here
    have size := congrArg List.length here
    rw [List.length_drop, List.length_append] at size
    have positive := List.length_pos_iff.mpr some
    refine ⟨by omega, ?_, ?_⟩
    · rw [here, List.take_left]
    · rw [← List.drop_drop, here, List.drop_left]
  · rintro ⟨-, front, back⟩
    rw [← List.take_append_drop text.length (archive.drop offset), front, List.drop_drop, back]

theorem bytes_then {offset n x : Nat} {rest : Bytes} (positive : 0 < n) (small : x < 256 ^ n) :
    archive.drop offset = bytes n x ++ rest ↔
      offset + n ≤ archive.length ∧ field archive offset n = x ∧
        archive.drop (offset + n) = rest := by
  have some : bytes n x ≠ [] := List.length_pos_iff.mp (by rwa [LittleEndian.bytes_length])
  rw [text_then some, LittleEndian.bytes_length]
  constructor
  · rintro ⟨inside, front, back⟩
    refine ⟨inside, ?_, back⟩
    rw [field, front, LittleEndian.value_bytes small]
  · rintro ⟨inside, rfl, back⟩
    refine ⟨inside, ?_, back⟩
    rw [LittleEndian.drop_field inside, List.take_left' (LittleEndian.bytes_length _ _)]

/-- The numbers of a header fit their fields. -/
structure ZipEntry.Fits (entry : ZipEntry) : Prop where
  name : entry.name.length < 256 ^ 2
  versionNeeded : entry.versionNeeded < 256 ^ 2
  flags : entry.flags < 256 ^ 2
  method : entry.method < 256 ^ 2
  crc32 : entry.crc32 < 256 ^ 4
  compressedSize : entry.compressedSize < 256 ^ 4
  uncompressedSize : entry.uncompressedSize < 256 ^ 4
  localOffset : entry.localOffset < 256 ^ 4

structure CentralHeader.Fits (header : CentralHeader) : Prop where
  versionMade : header.versionMade < 256 ^ 2
  time : header.time < 256 ^ 4
  internal : header.internal < 256 ^ 2
  external : header.external < 256 ^ 4
  entry : header.entry.Fits

/-- A central header stands at `cursor` exactly when its fields are read there. -/
theorem central_iff {header : CentralHeader} {cursor : Nat} (fits : header.Fits)
    (named : header.entry.name ≠ []) :
    archive.drop cursor = centralText header ++
        archive.drop (cursor + 46 + header.entry.name.length) ↔
      cursor + 46 + header.entry.name.length ≤ archive.length ∧
      field archive cursor 4 = 0x02014b50 ∧
      field archive (cursor + 4) 2 = header.versionMade ∧
      field archive (cursor + 6) 2 = header.entry.versionNeeded ∧
      field archive (cursor + 8) 2 = header.entry.flags ∧
      field archive (cursor + 10) 2 = header.entry.method ∧
      field archive (cursor + 12) 4 = header.time ∧
      field archive (cursor + 16) 4 = header.entry.crc32 ∧
      field archive (cursor + 20) 4 = header.entry.compressedSize ∧
      field archive (cursor + 24) 4 = header.entry.uncompressedSize ∧
      field archive (cursor + 28) 2 = header.entry.name.length ∧
      field archive (cursor + 30) 2 = 0 ∧
      field archive (cursor + 32) 2 = 0 ∧
      field archive (cursor + 34) 2 = 0 ∧
      field archive (cursor + 36) 2 = header.internal ∧
      field archive (cursor + 38) 4 = header.external ∧
      field archive (cursor + 42) 4 = header.entry.localOffset ∧
      (archive.drop (cursor + 46)).take header.entry.name.length = header.entry.name := by
  have entry := fits.entry
  simp only [centralText, List.append_assoc]
  rw [bytes_then (by decide) (by decide), bytes_then (by decide) fits.versionMade,
    bytes_then (by decide) entry.versionNeeded, bytes_then (by decide) entry.flags,
    bytes_then (by decide) entry.method, bytes_then (by decide) fits.time,
    bytes_then (by decide) entry.crc32, bytes_then (by decide) entry.compressedSize,
    bytes_then (by decide) entry.uncompressedSize, bytes_then (by decide) entry.name,
    bytes_then (by decide) (by decide), bytes_then (by decide) (by decide),
    bytes_then (by decide) (by decide), bytes_then (by decide) fits.internal,
    bytes_then (by decide) fits.external, bytes_then (by decide) entry.localOffset,
    text_then named]
  simp only [Nat.add_assoc, Nat.reduceAdd]
  constructor
  · rintro ⟨-, h0, -, h1, -, h2, -, h3, -, h4, -, h5, -, h6, -, h7, -, h8, -, h9, -, h10, -, h11,
      -, h12, -, h13, -, h14, -, h15, inside, h16, -⟩
    exact ⟨inside, h0, h1, h2, h3, h4, h5, h6, h7, h8, h9, h10, h11, h12, h13, h14, h15, h16⟩
  · rintro ⟨inside, h0, h1, h2, h3, h4, h5, h6, h7, h8, h9, h10, h11, h12, h13, h14, h15, h16⟩
    exact ⟨by omega, h0, by omega, h1, by omega, h2, by omega, h3, by omega, h4, by omega, h5,
      by omega, h6, by omega, h7, by omega, h8, by omega, h9, by omega, h10, by omega, h11,
      by omega, h12, by omega, h13, by omega, h14, by omega, h15, inside, h16, trivial⟩

/-- A local header and a payload stand at `offset` exactly when their fields are read there. -/
theorem local_iff {entry : ZipEntry} {time : Nat} {payload : Bytes} {offset : Nat}
    (fits : entry.Fits) (dated : time < 256 ^ 4) (named : entry.name ≠ []) :
    archive.drop offset = localText entry time payload ++
        archive.drop (offset + 30 + entry.name.length + payload.length) ↔
      offset + 30 + entry.name.length ≤ archive.length ∧
      field archive offset 4 = 0x04034b50 ∧
      field archive (offset + 4) 2 = entry.versionNeeded ∧
      field archive (offset + 6) 2 = entry.flags ∧
      field archive (offset + 8) 2 = entry.method ∧
      field archive (offset + 10) 4 = time ∧
      field archive (offset + 14) 4 = entry.crc32 ∧
      field archive (offset + 18) 4 = entry.compressedSize ∧
      field archive (offset + 22) 4 = entry.uncompressedSize ∧
      field archive (offset + 26) 2 = entry.name.length ∧
      field archive (offset + 28) 2 = 0 ∧
      (archive.drop (offset + 30)).take entry.name.length = entry.name ∧
      archive.drop (offset + 30 + entry.name.length) = payload ++
        archive.drop (offset + 30 + entry.name.length + payload.length) := by
  simp only [localText, List.append_assoc]
  rw [bytes_then (by decide) (by decide), bytes_then (by decide) fits.versionNeeded,
    bytes_then (by decide) fits.flags, bytes_then (by decide) fits.method,
    bytes_then (by decide) dated, bytes_then (by decide) fits.crc32,
    bytes_then (by decide) fits.compressedSize, bytes_then (by decide) fits.uncompressedSize,
    bytes_then (by decide) fits.name, bytes_then (by decide) (by decide), text_then named]
  simp only [Nat.add_assoc, Nat.reduceAdd]
  constructor
  · rintro ⟨-, h0, -, h1, -, h2, -, h3, -, h4, -, h5, -, h6, -, h7, -, h8, -, h9, inside, h10, h11⟩
    exact ⟨inside, h0, h1, h2, h3, h4, h5, h6, h7, h8, h9, h10, h11⟩
  · rintro ⟨inside, h0, h1, h2, h3, h4, h5, h6, h7, h8, h9, h10, h11⟩
    exact ⟨by omega, h0, by omega, h1, by omega, h2, by omega, h3, by omega, h4, by omega, h5,
      by omega, h6, by omega, h7, by omega, h8, by omega, h9, inside, h10, h11⟩

theorem end_iff {count size offset eocd : Nat} (ends : eocd + 22 = archive.length)
    (counted : count < 256 ^ 2) (sized : size < 256 ^ 4) (placed : offset < 256 ^ 4) :
    archive.drop eocd = endText count size offset ↔
      field archive eocd 4 = 0x06054b50 ∧ field archive (eocd + 4) 2 = 0 ∧
      field archive (eocd + 6) 2 = 0 ∧ field archive (eocd + 8) 2 = count ∧
      field archive (eocd + 10) 2 = count ∧ field archive (eocd + 12) 4 = size ∧
      field archive (eocd + 16) 4 = offset ∧ field archive (eocd + 20) 2 = 0 := by
  have whole := (List.append_nil (endText count size offset)).symm
  rw [whole, endText]
  simp only [List.append_assoc]
  rw [bytes_then (by decide) (by decide), bytes_then (by decide) (by decide),
    bytes_then (by decide) (by decide), bytes_then (by decide) counted,
    bytes_then (by decide) counted, bytes_then (by decide) sized, bytes_then (by decide) placed,
    bytes_then (by decide) (by decide)]
  simp only [Nat.add_assoc, Nat.reduceAdd]
  constructor
  · rintro ⟨-, h0, -, h1, -, h2, -, h3, -, h4, -, h5, -, h6, -, h7, -⟩
    exact ⟨h0, h1, h2, h3, h4, h5, h6, h7⟩
  · rintro ⟨h0, h1, h2, h3, h4, h5, h6, h7⟩
    exact ⟨by omega, h0, by omega, h1, by omega, h2, by omega, h3, by omega, h4, by omega, h5,
      by omega, h6, by omega, h7, List.drop_eq_nil_of_le (by omega)⟩

/-! One entry. -/

/-- What is asked of the header of an entry, apart from its place and its name. -/
structure Plain (header : CentralHeader) : Prop where
  noFlags : header.entry.flags = 0
  method : (header.entry.method = 0 ∧ header.entry.versionNeeded = 10) ∨
    (header.entry.method = 8 ∧ header.entry.versionNeeded = 20)
  regular : regularPhysicalType header.versionMade header.external = true
  compressed : header.entry.compressedSize ≠ 0xffffffff
  uncompressed : header.entry.uncompressedSize ≠ 0xffffffff
  placed : header.entry.localOffset ≠ 0xffffffff
  named : header.entry.name ≠ []
  short : header.entry.name.length ≤ 32

/-- The header that is read at `cursor`. -/
def headerAt (archive : Bytes) (cursor : Nat) : CentralHeader where
  versionMade := field archive (cursor + 4) 2
  time := field archive (cursor + 12) 4
  internal := field archive (cursor + 36) 2
  external := field archive (cursor + 38) 4
  entry := {
    name := (archive.drop (cursor + 46)).take (field archive (cursor + 28) 2)
    versionNeeded := field archive (cursor + 6) 2
    flags := field archive (cursor + 8) 2
    method := field archive (cursor + 10) 2
    crc32 := field archive (cursor + 16) 4
    compressedSize := field archive (cursor + 20) 4
    uncompressedSize := field archive (cursor + 24) 4
    localOffset := field archive (cursor + 42) 4 }

theorem headerAt_name {cursor : Nat}
    (inside : cursor + 46 + field archive (cursor + 28) 2 ≤ archive.length) :
    (headerAt archive cursor).entry.name.length = field archive (cursor + 28) 2 := by
  rw [headerAt, List.length_take, List.length_drop]
  omega

theorem headerAt_fits {cursor : Nat}
    (inside : cursor + 46 + field archive (cursor + 28) 2 ≤ archive.length) :
    (headerAt archive cursor).Fits where
  versionMade := LittleEndian.field_lt (by omega)
  time := LittleEndian.field_lt (by omega)
  internal := LittleEndian.field_lt (by omega)
  external := LittleEndian.field_lt (by omega)
  entry := {
    name := by
      rw [headerAt_name inside]
      exact LittleEndian.field_lt (by omega)
    versionNeeded := LittleEndian.field_lt (by omega)
    flags := LittleEndian.field_lt (by omega)
    method := LittleEndian.field_lt (by omega)
    crc32 := LittleEndian.field_lt (by omega)
    compressedSize := LittleEndian.field_lt (by omega)
    uncompressedSize := LittleEndian.field_lt (by omega)
    localOffset := LittleEndian.field_lt (by omega) }

theorem centralEntry_iff {eocd cursor index total total' : Nat} {names : List Bytes}
    {entry : ZipEntry} (inside : eocd ≤ archive.length) :
    centralEntry archive limits eocd cursor index total names = .ok (entry, total') ↔
      ∃ header : CentralHeader, header.entry = entry ∧ header.Fits ∧ Plain header ∧
        cursor + 46 + entry.name.length ≤ eocd ∧
        archive.drop cursor = centralText header ++
          archive.drop (cursor + 46 + entry.name.length) ∧
        checkEntry limits index total names entry = .ok total' := by
  unfold centralEntry
  simp only [failIf_then, le32_then, le16_then, slice_then]
  simp only [JsonGrammar.bind_ok, Except.ok.injEq, Prod.mk.injEq, not_or, not_and_or, not_not,
    Bool.not_eq_true', Bool.not_eq_false]
  constructor
  · rintro ⟨room, -, signature, -, -, -, -, -, -, -, -, -, -, -, -, -, wide, feature, name,
      insideName, total, checked, rfl, rfl⟩
    obtain ⟨unflagged, methods, stored, deflated, noExtra, noComment, noDisk, regular⟩ := feature
    have size := headerAt_name insideName
    have named : (headerAt archive cursor).entry.name ≠ [] := by
      apply List.length_pos_iff.mp
      omega
    have fits := headerAt_fits insideName
    refine ⟨headerAt archive cursor, rfl, fits, ?_, ?_, ?_, checked⟩
    · refine ⟨unflagged, ?_, regular, wide.2.1, wide.2.2.1, wide.2.2.2, named, by omega⟩
      obtain stored' | deflated' := methods
      · exact .inl ⟨stored', stored.resolve_left (not_not.mpr stored')⟩
      · exact .inr ⟨deflated', deflated.resolve_left (not_not.mpr deflated')⟩
    · show cursor + 46 + (headerAt archive cursor).entry.name.length ≤ eocd
      omega
    · show archive.drop cursor = centralText (headerAt archive cursor) ++
        archive.drop (cursor + 46 + (headerAt archive cursor).entry.name.length)
      refine (central_iff fits named).mpr ⟨by omega, signature, rfl, rfl, rfl, rfl, rfl, rfl, rfl,
        rfl, size.symm, noExtra, noComment, noDisk, rfl, rfl, rfl, ?_⟩
      rw [size]
      rfl
  · rintro ⟨header, rfl, fits, plain, within, here, checked⟩
    obtain ⟨-, h0, h1, h2, h3, h4, -, h6, h7, h8, h9, h10, h11, h12, -, h14, h15, h16⟩ :=
      (central_iff fits plain.named).mp here
    have positive := List.length_pos_iff.mpr plain.named
    have short := plain.short
    rw [h0, h1, h2, h3, h4, h6, h7, h8, h9, h10, h11, h12, h14, h15, h16]
    refine ⟨by omega, by omega, rfl, by omega, by omega, by omega, by omega, by omega, by omega,
      by omega, by omega, by omega, by omega, by omega, by omega, by omega, ?_, ?_, by omega,
      by omega, total', checked, rfl, rfl⟩
    · refine ⟨?_, plain.compressed, plain.uncompressed, plain.placed⟩
      obtain ⟨-, version⟩ | ⟨-, version⟩ := plain.method <;> omega
    · refine ⟨plain.noFlags, ?_, ?_, ?_, rfl, rfl, rfl, plain.regular⟩ <;>
        obtain ⟨method, version⟩ | ⟨method, version⟩ := plain.method <;> omega

theorem localText_length (entry : ZipEntry) (time : Nat) (payload : Bytes) :
    (localText entry time payload).length = 30 + entry.name.length + payload.length := by
  simp only [localText, List.length_append, LittleEndian.bytes_length]
  omega

theorem centralText_length (header : CentralHeader) :
    (centralText header).length = 46 + header.entry.name.length := by
  simp only [centralText, List.length_append, LittleEndian.bytes_length]
  omega

theorem localEntry_iff {centralOffset index expected next : Nat} {entry : ZipEntry}
    (fits : entry.Fits) (named : entry.name ≠ []) (inside : centralOffset ≤ archive.length) :
    localEntry archive centralOffset index expected entry = .ok next ↔
      ∃ time payload, time < 256 ^ 4 ∧ entry.compressedSize = payload.length ∧
        entry.localOffset = expected ∧
        next = expected + (localText entry time payload).length ∧ next ≤ centralOffset ∧
        archive.drop expected = localText entry time payload ++ archive.drop next := by
  unfold localEntry
  simp only [failIf_then, le32_then, le16_then, slice_then]
  simp only [Except.ok.injEq, not_or, not_not]
  constructor
  · rintro ⟨⟨rfl, -, room⟩, -, signature, -, -, ⟨noExtra, nameSize⟩, -, -, -, -, -, -, agrees,
      ⟨-, nameRoom⟩, -, name, ⟨-, dataRoom⟩, rfl⟩
    obtain ⟨version, flags, method, crc, compressed, uncompressed⟩ := agrees
    have size : ((archive.drop (entry.localOffset + 30 + entry.name.length)).take
        entry.compressedSize).length = entry.compressedSize := by
      rw [List.length_take, List.length_drop]
      omega
    refine ⟨field archive (entry.localOffset + 10) 4,
      (archive.drop (entry.localOffset + 30 + entry.name.length)).take entry.compressedSize,
      LittleEndian.field_lt (by omega), size.symm, rfl, ?_, by omega, ?_⟩
    · rw [localText_length, size]
      omega
    · have rest : archive.drop (entry.localOffset + 30 + entry.name.length) =
          (archive.drop (entry.localOffset + 30 + entry.name.length)).take entry.compressedSize ++
            archive.drop (entry.localOffset + 30 + entry.name.length + entry.compressedSize) := by
        rw [← List.drop_drop (i := entry.compressedSize), List.take_append_drop]
      rw [nameSize] at name ⊢
      have here := (local_iff fits (LittleEndian.field_lt (by omega)) named).mpr ⟨by omega,
        signature, version.symm, flags.symm, method.symm, rfl, crc.symm, compressed.symm,
        uncompressed.symm, nameSize, noExtra, name, by rwa [size]⟩
      rwa [size] at here
  · rintro ⟨time, payload, dated, compressed, rfl, rfl, within, here⟩
    have length := localText_length entry time payload
    rw [length, ← Nat.add_assoc, ← Nat.add_assoc] at here within ⊢
    obtain ⟨-, signature, version, flags, method, -, crc, packed, unpacked, nameSize, noExtra,
      name, -⟩ := (local_iff fits dated named).mp here
    rw [signature, version, flags, method, crc, packed, unpacked, nameSize, noExtra, name]
    refine ⟨by omega, by omega, rfl, by omega, by omega, by omega, by omega, by omega, by omega,
      by omega, by omega, by omega, by omega, by omega, by omega, rfl, by omega, by omega⟩

/-! Names. -/

theorem digit_injective : ∀ a < 16, ∀ b < 16, digit a = digit b → a = b := by
  simp only [digit, JsonText.ascii_eq]
  decide

theorem low_digit (value : Nat) : value &&& 0xf = value % 16 :=
  Nat.and_two_pow_sub_one_eq_mod value 4

theorem digits_injective {n a b : Nat} {text text' : Bytes}
    (same : digits n a text = digits n b text') : a % 16 ^ n = b % 16 ^ n ∧ text = text' := by
  induction n generalizing a b text text' with
  | zero => exact ⟨by rw [pow_zero, Nat.mod_one, Nat.mod_one], same⟩
  | succ n ih =>
    obtain ⟨high, rest⟩ := ih same
    obtain ⟨low, rfl⟩ := List.cons.inj rest
    rw [low_digit, low_digit] at low
    have least := digit_injective _ (Nat.mod_lt a (by decide)) _ (Nat.mod_lt b (by decide)) low
    rw [Nat.shiftRight_eq_div_pow, Nat.shiftRight_eq_div_pow] at high
    refine ⟨?_, rfl⟩
    rw [pow_succ', Nat.mod_mul, Nat.mod_mul, least]
    exact congrArg (fun x => b % 16 + 16 * x) high

theorem digits_length (n value : Nat) (text : Bytes) :
    (digits n value text).length = n + text.length := by
  induction n generalizing value text with
  | zero => exact (Nat.zero_add _).symm
  | succ n ih =>
    rw [digits, ih, List.length_cons]
    omega

/-- A byte that a name may have. -/
def cleanByte (c : UInt8) : Bool := !(c = 0 || c = 47 || c = 92)

theorem digit_clean : ∀ a < 16, cleanByte (digit a) = true := by
  simp only [digit, JsonText.ascii_eq]
  decide

theorem digits_clean {n value : Nat} {text : Bytes} (rest : ∀ c ∈ text, cleanByte c) :
    ∀ c ∈ digits n value text, cleanByte c := by
  induction n generalizing value text with
  | zero => exact rest
  | succ n ih =>
    apply ih
    intro c mem
    obtain rfl | mem := List.mem_cons.mp mem
    · rw [low_digit]
      exact digit_clean _ (Nat.mod_lt value (by decide))
    · exact rest c mem

theorem expectedEntryName_clean (index : Nat) : ∀ c ∈ expectedEntryName index, cleanByte c := by
  unfold expectedEntryName
  split
  · rw [JsonText.ascii_eq]
    exact List.all_eq_true.mp (by decide)
  · split
    · rw [JsonText.ascii_eq]
      exact List.all_eq_true.mp (by decide)
    · have letter : ∀ c ∈ ascii "m", cleanByte c := by
        rw [JsonText.ascii_eq]
        exact List.all_eq_true.mp (by decide)
      intro c mem
      exact (List.mem_append.mp mem).elim (letter c) (digits_clean (by rintro c ⟨⟩) c)

theorem physicalMemberName_length (k : Nat) : (physicalMemberName k).length = 9 := by
  rw [physicalMemberName, List.length_append, digits_length, JsonText.ascii_eq]
  rfl

theorem expectedEntryName_length (index : Nat) : (expectedEntryName index).length =
    if index = 0 then 12 else if index = 1 then 13 else 9 := by
  unfold expectedEntryName
  split
  · rw [JsonText.ascii_eq]
    rfl
  · split
    · rw [JsonText.ascii_eq]
      rfl
    · exact physicalMemberName_length _

/-- The numbers of the entries of an archive stay below the width of a name. -/
theorem expectedEntryName_injective {i j : Nat} (small : i < 2 ^ 32) (small' : j < 2 ^ 32)
    (same : expectedEntryName i = expectedEntryName j) : i = j := by
  have size := congrArg List.length same
  rw [expectedEntryName_length, expectedEntryName_length] at size
  by_cases members : 2 ≤ i ∧ 2 ≤ j
  · unfold expectedEntryName at same
    rw [if_neg (by omega), if_neg (by omega), if_neg (by omega), if_neg (by omega)] at same
    have number := (digits_injective (List.append_cancel_left same)).1
    omega
  · split_ifs at size <;> omega

/-! What is asked of the entries one after the other. -/

/-- The limits and the restrictions that depend on the place of an entry. -/
structure Allowed (limits : CoDetectSupportBundleLimits) (index : Nat) (entry : ZipEntry) :
    Prop where
  stored : index < 2 → entry.method = 0
  magic : index = 0 → entry.uncompressedSize = 16
  manifest : index = 1 → entry.uncompressedSize ≤ limits.maxManifestBytes
  member : 2 ≤ index → 0 < entry.uncompressedSize ∧ entry.uncompressedSize ≤ limits.maxMemberBytes
  ratio : entry.uncompressedSize ≤ entry.compressedSize * limits.maxCompressionRatio

/-- What the members among `entries` unpack to, where the first of them has number `index`. -/
def unpacked (index : Nat) (entries : List ZipEntry) : Nat :=
  ((entries.drop (2 - index)).map ZipEntry.uncompressedSize).sum

theorem unpacked_cons (index : Nat) (entry : ZipEntry) (entries : List ZipEntry) :
    unpacked index (entry :: entries) =
      (if index ≥ 2 then entry.uncompressedSize else 0) + unpacked (index + 1) entries := by
  unfold unpacked
  by_cases late : index ≥ 2
  · rw [if_pos late, show 2 - index = 0 by omega, show 2 - (index + 1) = 0 by omega]
    rfl
  · rw [if_neg late, show 2 - index = (2 - (index + 1)) + 1 by omega, List.drop_succ_cons,
      Nat.zero_add]

/-- The names of the entries before `index`, in the order in which a set of them grew. -/
def namesBefore : Nat → List Bytes
  | 0 => []
  | index + 1 => expectedEntryName index :: namesBefore index

theorem mem_namesBefore {index : Nat} {name : Bytes} :
    name ∈ namesBefore index ↔ ∃ i < index, name = expectedEntryName i := by
  induction index with
  | zero => simp [namesBefore]
  | succ index ih =>
    rw [namesBefore, List.mem_cons, ih]
    constructor
    · rintro (rfl | ⟨i, before, rfl⟩)
      · exact ⟨index, by omega, rfl⟩
      · exact ⟨i, by omega, rfl⟩
    · rintro ⟨i, before, rfl⟩
      obtain rfl | earlier := Nat.eq_or_lt_of_le (Nat.le_of_lt_succ before)
      · exact .inl rfl
      · exact .inr ⟨i, earlier, rfl⟩

theorem checkEntry_iff {index total total' : Nat} {entry : ZipEntry} (valid : validLimits limits)
    (fits : entry.Fits) (small : index < 2 ^ 32) (below : total ≤ limits.maxTotalUncompressedBytes) :
    checkEntry limits index total (namesBefore index) entry = .ok total' ↔
      entry.name = expectedEntryName index ∧ Allowed limits index entry ∧
        total' = total + (if index ≥ 2 then entry.uncompressedSize else 0) ∧
        total' ≤ limits.maxTotalUncompressedBytes := by
  unfold checkEntry
  simp only [failIf_then, Except.ok.injEq, not_or, not_and_or, not_not]
  have fresh : expectedEntryName index ∉ namesBefore index := by
    rw [mem_namesBefore]
    rintro ⟨i, before, same⟩
    exact absurd (expectedEntryName_injective small (by omega) same) (by omega)
  obtain ⟨positive, ratio⟩ : 0 < limits.maxCompressionRatio ∧ limits.maxCompressionRatio ≤ 4096 := by
    simp only [validLimits, Bool.and_eq_true, decide_eq_true_eq] at valid
    omega
  -- A size of four bytes is never too large to be multiplied by the ratio.
  have product : entry.compressedSize ≤ (2 ^ 64 - 1) / limits.maxCompressionRatio := by
    have size := fits.compressedSize
    rw [Nat.le_div_iff_mul_le positive]
    calc entry.compressedSize * limits.maxCompressionRatio
        ≤ 2 ^ 32 * 4096 := Nat.mul_le_mul (by omega) ratio
      _ ≤ 2 ^ 64 - 1 := by decide
  have clean : ¬ ((expectedEntryName index).any (fun c => c = 0 || c = 47 || c = 92)) = true := by
    rw [Bool.not_eq_true, List.any_eq_false]
    intro c mem
    simpa [cleanByte] using expectedEntryName_clean index c mem
  constructor
  · rintro ⟨-, -, name, place, member, room, ratio, rfl⟩
    refine ⟨name, ⟨by omega, by omega, by omega, by omega, ?_⟩, ?_, ?_⟩
    · obtain zero | ⟨-, -, ratio⟩ := ratio
      · rw [zero]
        exact Nat.zero_le _
      · exact Nat.le_of_not_lt ratio
    · split_ifs <;> rfl
    · split_ifs <;> omega
  · rintro ⟨name, allowed, rfl, within⟩
    have member := allowed.member
    have bounded := allowed.ratio
    rw [name]
    refine ⟨clean, fresh, rfl, ⟨?_, ?_, ?_⟩, ?_, ?_, ?_, ?_⟩
    · exact (em (index < 2)).elim (fun first => .inr (allowed.stored first)) .inl
    · exact (em (index = 0)).elim (fun first => .inr (allowed.magic first)) .inl
    · exact (em (index = 1)).elim (fun second => .inr (Nat.not_lt.mpr (allowed.manifest second)))
        .inl
    · omega
    · split_ifs at within <;> omega
    · by_cases zero : entry.uncompressedSize = 0
      · exact .inl zero
      · refine .inr ⟨?_, Nat.not_lt.mpr product, Nat.not_lt.mpr bounded⟩
        rintro none
        rw [none, Nat.zero_mul] at bounded
        omega
    · split_ifs <;> rfl

/-- The checks of `centralLoop`, one entry after the other. -/
def CheckedAll (limits : CoDetectSupportBundleLimits) : Nat → Nat → List Bytes → List ZipEntry → Prop
  | _, _, _, [] => True
  | index, total, names, entry :: entries =>
    ∃ total', checkEntry limits index total names entry = .ok total' ∧
      CheckedAll limits (index + 1) total' (entry.name :: names) entries

theorem checkedAll_iff {entries : List ZipEntry} {index total : Nat} (valid : validLimits limits)
    (fits : ∀ entry ∈ entries, entry.Fits) (small : index + entries.length ≤ 2 ^ 32)
    (below : total ≤ limits.maxTotalUncompressedBytes) :
    CheckedAll limits index total (namesBefore index) entries ↔
      (∀ i entry, entries[i]? = some entry →
        entry.name = expectedEntryName (index + i) ∧ Allowed limits (index + i) entry) ∧
      total + unpacked index entries ≤ limits.maxTotalUncompressedBytes := by
  induction entries generalizing index total with
  | nil => simpa [CheckedAll, unpacked] using below
  | cons entry entries ih =>
    rw [List.length_cons] at small
    have rest : ∀ entry ∈ entries, entry.Fits := fun _ mem => fits _ (List.mem_cons_of_mem _ mem)
    rw [CheckedAll, unpacked_cons]
    constructor
    · rintro ⟨total', checked, others⟩
      obtain ⟨name, allowed, rfl, within⟩ :=
        (checkEntry_iff valid (fits entry List.mem_cons_self) (by omega) below).mp checked
      rw [name] at others
      obtain ⟨each, sum⟩ := (ih rest (by omega) within).mp others
      refine ⟨?_, by omega⟩
      rintro (_ | i) other at_i
      · obtain rfl := Option.some.inj at_i
        exact ⟨name, allowed⟩
      · rw [show index + (i + 1) = index + 1 + i by omega]
        exact each i other at_i
    · rintro ⟨each, sum⟩
      obtain ⟨name, allowed⟩ := each 0 entry rfl
      rw [Nat.add_zero] at name allowed
      have checked := (checkEntry_iff valid (fits entry List.mem_cons_self) (by omega) below).mpr
        ⟨name, allowed, rfl, by omega⟩
      refine ⟨_, checked, ?_⟩
      rw [name]
      refine (ih rest (by omega) (by omega)).mpr ⟨?_, by omega⟩
      intro i other at_i
      rw [show index + 1 + i = index + (i + 1) by omega]
      exact each (i + 1) other at_i

/-! The two passes. -/

def directory (headers : List CentralHeader) : Bytes := headers.flatMap centralText

theorem directory_cons (header : CentralHeader) (headers : List CentralHeader) :
    directory (header :: headers) = centralText header ++ directory headers :=
  List.flatMap_cons

theorem directory_length_cons (header : CentralHeader) (headers : List CentralHeader) :
    (directory (header :: headers)).length =
      46 + header.entry.name.length + (directory headers).length := by
  rw [directory_cons, List.length_append, centralText_length]

/-- What follows a text in an archive. -/
theorem drop_after {offset : Nat} {text rest : Bytes} (here : archive.drop offset = text ++ rest) :
    archive.drop (offset + text.length) = rest := by
  rw [← List.drop_drop, here, List.drop_left]

theorem centralLoop_iff {eocd n cursor index total last : Nat} {names : List Bytes}
    {entries : List ZipEntry} (inside : eocd ≤ archive.length) (start : cursor ≤ eocd) :
    centralLoop archive limits eocd n cursor index total names = .ok (entries, last) ↔
      ∃ headers : List CentralHeader, headers.length = n ∧ headers.map (·.entry) = entries ∧
        (∀ header ∈ headers, header.Fits ∧ Plain header) ∧
        last = cursor + (directory headers).length ∧ last ≤ eocd ∧
        archive.drop cursor = directory headers ++ archive.drop last ∧
        CheckedAll limits index total names entries := by
  induction n generalizing cursor index total last names entries with
  | zero =>
    rw [centralLoop]
    constructor
    · intro done
      obtain ⟨rfl, rfl⟩ := Prod.mk.inj (Except.ok.inj done)
      exact ⟨[], rfl, rfl, by rintro header ⟨⟩, rfl, start, rfl, trivial⟩
    · rintro ⟨headers, none, rfl, -, rfl, -⟩
      obtain rfl := List.length_eq_zero_iff.mp none
      rfl
  | succ n ih =>
    simp only [centralLoop, JsonGrammar.bind_ok, Except.ok.injEq, Prod.mk.injEq, Prod.exists]
    constructor
    · rintro ⟨entry, total', first, others, last', rest, rfl, rfl⟩
      obtain ⟨header, rfl, fits, plain, within, here, checked⟩ := (centralEntry_iff inside).mp first
      obtain ⟨headers, rfl, rfl, sound, rfl, below, there, all⟩ := (ih within).mp rest
      refine ⟨header :: headers, rfl, rfl, ?_, ?_, below, ?_, total', checked, all⟩
      · intro other mem
        obtain rfl | mem := List.mem_cons.mp mem
        · exact ⟨fits, plain⟩
        · exact sound other mem
      · rw [directory_length_cons]
        omega
      · rw [here, there, directory_cons, List.append_assoc]
    · rintro ⟨headers, count, rfl, sound, rfl, below, here, all⟩
      obtain ⟨header, headers, rfl⟩ := List.exists_cons_of_length_eq_add_one count
      obtain ⟨total', checked, others⟩ := all
      obtain ⟨fits, plain⟩ := sound header List.mem_cons_self
      have size : cursor + (directory (header :: headers)).length =
          cursor + 46 + header.entry.name.length + (directory headers).length := by
        rw [directory_length_cons]
        omega
      rw [size] at below here ⊢
      rw [directory_cons, List.append_assoc] at here
      have there := drop_after here
      rw [centralText_length, ← Nat.add_assoc] at there
      rw [← there] at here
      refine ⟨header.entry, total', ?_, headers.map (·.entry), _, ?_, rfl, rfl⟩
      · exact (centralEntry_iff inside).mpr
          ⟨header, rfl, fits, plain, by omega, here, checked⟩
      · exact (ih (by omega)).mpr ⟨headers, Nat.succ.inj count, rfl,
          fun other mem => sound other (List.mem_cons_of_mem _ mem), rfl, below, there, others⟩

/-- An entry of an archive: its header in the central directory, the time in its local header and
its payload. -/
structure Item where
  header : CentralHeader
  time : Nat
  payload : Bytes

def Item.text (item : Item) : Bytes := localText item.header.entry item.time item.payload

def front (items : List Item) : Bytes := items.flatMap Item.text

theorem front_cons (item : Item) (items : List Item) :
    front (item :: items) = item.text ++ front items :=
  List.flatMap_cons

/-- The recorded offsets and sizes are the real ones, where the first entry is at `offset`. -/
def Placed : Nat → List Item → Prop
  | _, [] => True
  | offset, item :: items => item.header.entry.localOffset = offset ∧
      item.header.entry.compressedSize = item.payload.length ∧
      Placed (offset + item.text.length) items

theorem localLoop_iff {headers : List CentralHeader} {centralOffset index expected last : Nat}
    (sound : ∀ header ∈ headers, header.Fits ∧ Plain header)
    (inside : centralOffset ≤ archive.length) (start : expected ≤ centralOffset) :
    localLoop archive centralOffset index expected (headers.map (·.entry)) = .ok last ↔
      ∃ items : List Item, items.map (·.header) = headers ∧ (∀ item ∈ items, item.time < 256 ^ 4) ∧
        Placed expected items ∧ last = expected + (front items).length ∧ last ≤ centralOffset ∧
        archive.drop expected = front items ++ archive.drop last := by
  induction headers generalizing index expected last with
  | nil =>
    rw [List.map_nil, localLoop]
    constructor
    · intro done
      obtain rfl := Except.ok.inj done
      exact ⟨[], rfl, by rintro item ⟨⟩, trivial, rfl, start, rfl⟩
    · rintro ⟨items, none, -, -, rfl, -⟩
      obtain rfl := List.map_eq_nil_iff.mp none
      rfl
  | cons header headers ih =>
    have others : ∀ header ∈ headers, header.Fits ∧ Plain header :=
      fun other mem => sound other (List.mem_cons_of_mem _ mem)
    obtain ⟨fits, plain⟩ := sound header List.mem_cons_self
    simp only [List.map_cons, localLoop, JsonGrammar.bind_ok]
    constructor
    · rintro ⟨next, first, rest⟩
      obtain ⟨time, payload, dated, size, placed, rfl, within, here⟩ :=
        (localEntry_iff fits.entry plain.named inside).mp first
      obtain ⟨items, rfl, times, places, rfl, below, there⟩ := (ih others within).mp rest
      refine ⟨⟨header, time, payload⟩ :: items, rfl, ?_, ⟨placed, size, places⟩, ?_, below, ?_⟩
      · intro other mem
        obtain rfl | mem := List.mem_cons.mp mem
        · exact dated
        · exact times other mem
      · rw [front_cons, List.length_append, Nat.add_assoc]
        rfl
      · rw [here, there, front_cons, List.append_assoc]
        rfl
    · rintro ⟨items, split, times, placed, rfl, below, here⟩
      obtain ⟨item, items, rfl, rfl, rfl⟩ := List.map_eq_cons_iff.mp split
      obtain ⟨offset, size, places⟩ := placed
      rw [front_cons, List.length_append, ← Nat.add_assoc] at below here ⊢
      rw [List.append_assoc] at here
      have there := drop_after here
      rw [← there] at here
      refine ⟨expected + item.text.length, ?_, ?_⟩
      · exact (localEntry_iff fits.entry plain.named inside).mpr ⟨item.time, item.payload,
          times item List.mem_cons_self, size, offset, rfl, by omega, here⟩
      · exact (ih others (by omega)).mpr ⟨items, rfl,
          fun other mem => times other (List.mem_cons_of_mem _ mem), places, rfl, below, there⟩

end Baas.SupportBundle
