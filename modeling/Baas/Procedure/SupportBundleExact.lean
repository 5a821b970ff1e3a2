import Baas.Procedure.SupportBundleRun

/-! `preflight_zip` accepts the archives of well formed lists of entries and nothing else, an
archive is that of one list only, and no byte outside the archive is read. -/
namespace Baas.SupportBundle

open JsonText (ascii)
open LittleEndian (bytes field)

variable {archive : Bytes} {limits : CoDetectSupportBundleLimits}

/-- The local headers with their payloads, the central directory and the end record. -/
def archiveOf (items : List Item) : Bytes :=
  front items ++ (directory (items.map (·.header)) ++
    endText items.length (directory (items.map (·.header))).length (front items).length)

/-- What an accepted archive is made of. -/
structure Layout (limits : CoDetectSupportBundleLimits) (items : List Item) : Prop where
  fits : ∀ item ∈ items, item.header.Fits ∧ item.time < 256 ^ 4
  plain : ∀ item ∈ items, Plain item.header
  placed : Placed 0 items
  names : ∀ i item, items[i]? = some item → item.header.entry.name = expectedEntryName i
  allowed : ∀ i item, items[i]? = some item → Allowed limits i item.header.entry
  total : (((items.map (·.header.entry)).drop 2).map ZipEntry.uncompressedSize).sum ≤
    limits.maxTotalUncompressedBytes
  few : 3 ≤ items.length
  many : items.length ≤ limits.maxEntries + 2
  size : (archiveOf items).length ≤ limits.maxArchiveBytes

theorem endText_length (count size offset : Nat) : (endText count size offset).length = 22 := by
  simp only [endText, List.length_append, LittleEndian.bytes_length]

theorem archiveOf_length (items : List Item) : (archiveOf items).length =
    (front items).length + (directory (items.map (·.header))).length + 22 := by
  rw [archiveOf, List.length_append, List.length_append, endText_length]
  omega

/-- The checks of the entries, from those of the places of the list. -/
theorem checked_iff {items : List Item} (valid : validLimits limits)
    (fits : ∀ item ∈ items, item.header.Fits) (small : items.length ≤ 2 ^ 32) :
    CheckedAll limits 0 0 [] ((items.map (·.header)).map (·.entry)) ↔
      (∀ i item, items[i]? = some item → item.header.entry.name = expectedEntryName i) ∧
      (∀ i item, items[i]? = some item → Allowed limits i item.header.entry) ∧
      (((items.map (·.header.entry)).drop 2).map ZipEntry.uncompressedSize).sum ≤
        limits.maxTotalUncompressedBytes := by
  have entries : ∀ entry ∈ (items.map (·.header)).map (·.entry), entry.Fits := by
    intro entry mem
    obtain ⟨header, listed, rfl⟩ := List.mem_map.mp mem
    obtain ⟨item, there, rfl⟩ := List.mem_map.mp listed
    exact (fits item there).entry
  have steps := @checkedAll_iff limits ((items.map (·.header)).map (·.entry)) 0 0 valid entries
    (by rw [List.length_map, List.length_map]; omega) (Nat.zero_le _)
  rw [List.map_map] at steps ⊢
  rw [namesBefore] at steps
  rw [steps, Nat.zero_add]
  constructor
  · rintro ⟨each, sum⟩
    refine ⟨fun i item at_i => ?_, fun i item at_i => ?_, sum⟩
    all_goals
      have here := each i item.header.entry (by rw [List.getElem?_map, at_i]; rfl)
      rw [Nat.zero_add] at here
    · exact here.1
    · exact here.2
  · rintro ⟨names, allowed, sum⟩
    refine ⟨fun i entry at_i => ?_, sum⟩
    rw [List.getElem?_map] at at_i
    obtain ⟨item, there, rfl⟩ := Option.map_eq_some_iff.mp at_i
    rw [Nat.zero_add]
    exact ⟨names i item there, allowed i item there⟩

/-- Both passes, over a directory from `offset` to `eocd`. -/
theorem passes_iff {eocd count offset : Nat} {entries : List ZipEntry}
    (inside : eocd ≤ archive.length) (start : offset ≤ eocd) :
    (centralLoop archive limits eocd count offset 0 0 [] = .ok (entries, eocd) ∧
        localLoop archive offset 0 0 entries = .ok offset) ↔
      ∃ items : List Item, items.length = count ∧ entries = items.map (·.header.entry) ∧
        (∀ item ∈ items, item.header.Fits ∧ item.time < 256 ^ 4) ∧
        (∀ item ∈ items, Plain item.header) ∧ Placed 0 items ∧
        offset = (front items).length ∧
        eocd = (front items).length + (directory (items.map (·.header))).length ∧
        archive = front items ++ (directory (items.map (·.header)) ++ archive.drop eocd) ∧
        CheckedAll limits 0 0 [] ((items.map (·.header)).map (·.entry)) := by
  rw [centralLoop_iff inside start]
  constructor
  · rintro ⟨⟨headers, rfl, rfl, sound, stop, -, central, checked⟩, pass⟩
    obtain ⟨items, rfl, times, placed, place, -, locals⟩ :=
      (localLoop_iff sound (start.trans inside) (Nat.zero_le offset)).mp pass
    have each : ∀ item ∈ items, item.header.Fits ∧ Plain item.header :=
      fun item mem => sound item.header (List.mem_map_of_mem mem)
    rw [Nat.zero_add] at place
    refine ⟨items, (List.length_map _).symm, List.map_map, fun item mem =>
      ⟨(each item mem).1, times item mem⟩, fun item mem => (each item mem).2, placed, place,
      by omega, ?_, checked⟩
    rwa [central] at locals
  · rintro ⟨items, rfl, rfl, fits, plain, placed, place, stop, whole, checked⟩
    have central : archive.drop offset = directory (items.map (·.header)) ++ archive.drop eocd := by
      conv_lhs => rw [whole, place, List.drop_left]
    have sound : ∀ header ∈ items.map (·.header), header.Fits ∧ Plain header := by
      intro header mem
      obtain ⟨item, there, rfl⟩ := List.mem_map.mp mem
      exact ⟨(fits item there).1, plain item there⟩
    rw [List.map_map] at checked
    refine ⟨⟨items.map (·.header), List.length_map _, List.map_map, sound, by omega, Nat.le_refl _,
      central, checked⟩, ?_⟩
    have pass := (@localLoop_iff archive (items.map (·.header)) offset 0 0 offset sound
      (start.trans inside) (Nat.zero_le offset)).mpr ⟨items, rfl, fun item mem => (fits item mem).2,
        placed, by omega, Nat.le_refl _, by rwa [central]⟩
    rwa [List.map_map] at pass

theorem failIf_ok {c : Prop} [Decidable c] {error : CoDetectSupportBundleError}
    {member : Option Nat} {done : Unit} : failIf c error member = .ok done ↔ ¬ c := by
  unfold failIf
  split
  · exact ⟨fun h => (by cases h), fun free => absurd ‹c› free⟩
  · exact ⟨fun _ => ‹¬ c›, fun _ => rfl⟩

theorem preflightZip_iff {work left : Nat} {entries : List ZipEntry} (valid : validLimits limits) :
    preflightZip archive limits work = .ok (entries, left) ↔
      archive.length ≤ work ∧ left = work - archive.length ∧
      ∃ items, Layout limits items ∧ archive = archiveOf items ∧
        entries = items.map (·.header.entry) := by
  have room : limits.maxArchiveBytes ≤ 67108864 ∧ limits.maxEntries ≤ 4096 := by
    simp only [validLimits, Bool.and_eq_true, decide_eq_true_eq] at valid
    omega
  unfold preflightZip
  simp only [failIf_then, le32_then, le16_then]
  simp only [JsonGrammar.bind_ok, failIf_ok, Prod.exists, not_or, not_not, Except.ok.injEq,
    Prod.mk.injEq]
  constructor
  · rintro ⟨⟨least, size⟩, worth, -, -, -, -, ⟨signature, bare⟩, -, -, ⟨disk, central⟩, -, -, -,
      ⟨disks, few⟩, many, -, -, ⟨-, -, start, sized⟩, found, cursor, pass, -, rfl, last, pass', -,
      rfl, rfl, rfl⟩
    obtain ⟨items, count, rfl, fits, plain, placed, place, stop, whole, checked⟩ :=
      (passes_iff (Nat.sub_le _ _) (Nat.le_of_not_lt start)).mp ⟨pass, pass'⟩
    obtain ⟨names, allowed, total⟩ :=
      (checked_iff valid (fun item mem => (fits item mem).1) (by omega)).mp checked
    have final := (end_iff (by omega) (by omega) (by omega) (by omega)).mpr
      ⟨signature, disk, central, disks, rfl, sized, place, bare⟩
    have same : archive = archiveOf items := by
      have narrow : archive.length - 22 - (front items).length =
          (directory (items.map (·.header))).length := by omega
      rw [final, place, narrow, ← count] at whole
      exact whole
    refine ⟨by omega, rfl, items, ⟨fits, plain, placed, names, allowed, total, by omega, by omega,
      ?_⟩, same, rfl⟩
    rw [← same]
    omega
  · rintro ⟨worth, rfl, items, layout, rfl, rfl⟩
    have length := archiveOf_length items
    have few := layout.few
    have many := layout.many
    have size := layout.size
    have eocd : (archiveOf items).length - 22 =
        (front items).length + (directory (items.map (·.header))).length := by omega
    have final : (archiveOf items).drop ((archiveOf items).length - 22) =
        endText items.length (directory (items.map (·.header))).length (front items).length := by
      rw [eocd, archiveOf, ← List.append_assoc, List.drop_left' (List.length_append)]
    obtain ⟨signature, disk, central, disks, count, sized, place, bare⟩ :=
      (end_iff (by omega) (by omega) (by omega) (by omega)).mp final
    have first : field (archiveOf items) 0 4 = 0x04034b50 := by
      obtain ⟨item, others, rfl⟩ := List.exists_cons_of_length_pos (Nat.lt_of_lt_of_le (by decide) few)
      rw [field, List.drop_zero, archiveOf, front_cons, Item.text, localText]
      simp only [List.append_assoc]
      rw [List.take_left' (LittleEndian.bytes_length _ _), LittleEndian.value_bytes (by decide)]
    have passes := (@passes_iff (archiveOf items) limits ((archiveOf items).length - 22)
      items.length (front items).length _ (Nat.sub_le _ _) (by omega)).mpr
      ⟨items, rfl, rfl, layout.fits, layout.plain, layout.placed, rfl, eocd, by rw [final]; rfl,
        (checked_iff valid (fun item mem => (layout.fits item mem).1) (by omega)).mpr
          ⟨layout.names, layout.allowed, layout.total⟩⟩
    rw [first, signature, disk, central, disks, count, sized, place, bare]
    exact ⟨⟨by omega, by omega⟩, by omega, by omega, rfl, by omega, by omega, ⟨rfl, rfl⟩, by omega,
      by omega, ⟨rfl, rfl⟩, by omega, by omega, ⟨by omega, by omega⟩, ⟨rfl, by omega⟩, by omega,
      by omega, by omega, ⟨by omega, by omega, by omega, by omega⟩, _, _, passes.1, (), rfl, _,
      passes.2, (), rfl, rfl, rfl⟩

/-! One list only. -/

theorem headerAt_of_central {header : CentralHeader} {cursor : Nat} (fits : header.Fits)
    (named : header.entry.name ≠ []) (here : archive.drop cursor = centralText header ++
      archive.drop (cursor + 46 + header.entry.name.length)) :
    headerAt archive cursor = header := by
  obtain ⟨-, -, h1, h2, h3, h4, h5, h6, h7, h8, h9, -, -, -, h10, h11, h12, h13⟩ :=
    (central_iff fits named).mp here
  rw [headerAt, h1, h2, h3, h4, h5, h6, h7, h8, h9, h10, h11, h12, h13]

theorem centralText_injective {header header' : CentralHeader} {rest rest' : Bytes}
    (fits : header.Fits) (fits' : header'.Fits) (named : header.entry.name ≠ [])
    (named' : header'.entry.name ≠ [])
    (same : centralText header ++ rest = centralText header' ++ rest') :
    header = header' ∧ rest = rest' := by
  have whole : ∀ (h : CentralHeader) (r : Bytes), (centralText h ++ r).drop 0 =
      centralText h ++ (centralText h ++ r).drop (0 + 46 + h.entry.name.length) := by
    intro h r
    rw [Nat.zero_add, ← centralText_length, List.drop_left, List.drop_zero]
  have read := headerAt_of_central fits named (whole header rest)
  have read' := headerAt_of_central fits' named' (whole header' rest')
  obtain rfl : header = header' := by rw [← read, same, read']
  exact ⟨rfl, List.append_cancel_left same⟩

theorem directory_injective {headers headers' : List CentralHeader}
    (sound : ∀ header ∈ headers, header.Fits ∧ header.entry.name ≠ [])
    (sound' : ∀ header ∈ headers', header.Fits ∧ header.entry.name ≠ [])
    (count : headers.length = headers'.length) (same : directory headers = directory headers') :
    headers = headers' := by
  induction headers generalizing headers' with
  | nil => exact (List.length_eq_zero_iff.mp count.symm).symm
  | cons header headers ih =>
    obtain ⟨header', headers', rfl⟩ := List.exists_cons_of_length_eq_add_one count.symm
    obtain ⟨fits, named⟩ := sound header List.mem_cons_self
    obtain ⟨fits', named'⟩ := sound' header' List.mem_cons_self
    rw [directory_cons, directory_cons] at same
    obtain ⟨rfl, rest⟩ := centralText_injective fits fits' named named' same
    rw [ih (fun other mem => sound other (List.mem_cons_of_mem _ mem))
      (fun other mem => sound' other (List.mem_cons_of_mem _ mem)) (Nat.succ.inj count) rest]

theorem localText_injective {entry : ZipEntry} {time time' : Nat} {payload payload' : Bytes}
    (dated : time < 256 ^ 4) (dated' : time' < 256 ^ 4)
    (same : localText entry time payload = localText entry time' payload') :
    time = time' ∧ payload = payload' := by
  unfold localText at same
  have times := List.append_cancel_left (List.append_cancel_left (List.append_cancel_left
    (List.append_cancel_left same)))
  obtain ⟨stamp, others⟩ := List.append_inj times
    (by rw [LittleEndian.bytes_length, LittleEndian.bytes_length])
  refine ⟨LittleEndian.bytes_injective dated dated' stamp, ?_⟩
  simpa only [List.append_cancel_left_eq] using others

theorem front_injective {items items' : List Item} {offset : Nat}
    (dated : ∀ item ∈ items, item.time < 256 ^ 4) (dated' : ∀ item ∈ items', item.time < 256 ^ 4)
    (headers : items.map (·.header) = items'.map (·.header)) (placed : Placed offset items)
    (placed' : Placed offset items') (same : front items = front items') : items = items' := by
  induction items generalizing items' offset with
  | nil => exact (List.map_eq_nil_iff.mp headers.symm).symm
  | cons item items ih =>
    obtain ⟨item', items', rfl, equal, others⟩ := List.map_eq_cons_iff.mp headers.symm
    obtain ⟨-, size, places⟩ := placed
    obtain ⟨-, size', places'⟩ := placed'
    obtain ⟨header, time, payload⟩ := item
    obtain ⟨header', time', payload'⟩ := item'
    obtain rfl : header' = header := equal
    rw [front_cons, front_cons] at same
    obtain ⟨text, rest⟩ := List.append_inj same (by
      rw [Item.text, Item.text, localText_length, localText_length, ← size, ← size'])
    obtain ⟨rfl, rfl⟩ := localText_injective (dated _ List.mem_cons_self)
      (dated' _ List.mem_cons_self) text
    rw [ih (fun other mem => dated other (List.mem_cons_of_mem _ mem))
      (fun other mem => dated' other (List.mem_cons_of_mem _ mem)) others.symm places places' rest]

/-- An archive is that of one list of entries only. -/
theorem archiveOf_injective {items items' : List Item} (valid : validLimits limits)
    (layout : Layout limits items) (layout' : Layout limits items')
    (same : archiveOf items = archiveOf items') : items = items' := by
  obtain ⟨small, few⟩ : limits.maxArchiveBytes ≤ 67108864 ∧ limits.maxEntries ≤ 4096 := by
    simp only [validLimits, Bool.and_eq_true, decide_eq_true_eq] at valid
    omega
  have length := archiveOf_length items
  have length' := archiveOf_length items'
  have size := layout.size
  have size' := layout'.size
  have many := layout.many
  have many' := layout'.many
  have final : ∀ (list : List Item), (archiveOf list).drop ((archiveOf list).length - 22) =
      endText list.length (directory (list.map (·.header))).length (front list).length := by
    intro list
    rw [archiveOf_length, Nat.add_sub_cancel, archiveOf, ← List.append_assoc,
      List.drop_left' List.length_append]
  have ends := (@end_iff (archiveOf items) _ _ _ _ (by omega) (by omega) (by omega) (by omega)).mp
    (final items)
  have ends' := (@end_iff (archiveOf items') _ _ _ _ (by omega) (by omega) (by omega)
    (by omega)).mp (final items')
  rw [same] at ends
  obtain ⟨-, -, -, -, count, sized, placed, -⟩ := ends
  obtain ⟨-, -, -, -, count', sized', placed', -⟩ := ends'
  have counts : items.length = items'.length := by rw [← count, ← count']
  obtain ⟨locals, rest⟩ := List.append_inj same (by rw [← placed, ← placed'])
  obtain ⟨central, -⟩ := List.append_inj rest (by rw [← sized, ← sized'])
  have sound : ∀ list : List Item, Layout limits list → ∀ header ∈ list.map (·.header),
      header.Fits ∧ header.entry.name ≠ [] := by
    intro list listed header mem
    obtain ⟨item, there, rfl⟩ := List.mem_map.mp mem
    exact ⟨(listed.fits item there).1, (listed.plain item there).named⟩
  have headers := directory_injective (sound items layout) (sound items' layout')
    (by rw [List.length_map, List.length_map, counts]) central
  exact front_injective (fun item mem => (layout.fits item mem).2)
    (fun item mem => (layout'.fits item mem).2) headers layout.placed layout'.placed locals

/-! The parts of an archive. -/

def ZipEntry.payloadStart (entry : ZipEntry) : Nat := entry.localOffset + 30 + entry.name.length

def ZipEntry.payloadStop (entry : ZipEntry) : Nat := entry.payloadStart + entry.compressedSize

/-- Local headers and payloads follow each other from one offset to another without a gap. -/
def Tiled : Nat → List ZipEntry → Nat → Prop
  | start, [], stop => start = stop
  | start, entry :: entries, stop =>
    entry.localOffset = start ∧ Tiled entry.payloadStop entries stop

theorem tiled_of_placed {items : List Item} {offset : Nat} (placed : Placed offset items) :
    Tiled offset (items.map (·.header.entry)) (offset + (front items).length) := by
  induction items generalizing offset with
  | nil => rfl
  | cons item items ih =>
    obtain ⟨place, size, places⟩ := placed
    refine ⟨place, ?_⟩
    have stop : item.header.entry.payloadStop = offset + item.text.length := by
      rw [ZipEntry.payloadStop, ZipEntry.payloadStart, Item.text, localText_length, place, size]
      omega
    rw [stop, front_cons, List.length_append, ← Nat.add_assoc]
    exact ih places

theorem Tiled.le {start stop : Nat} {entries : List ZipEntry} (tiled : Tiled start entries stop) :
    start ≤ stop ∧ ∀ entry ∈ entries, start ≤ entry.payloadStart ∧ entry.payloadStop ≤ stop := by
  induction entries generalizing start with
  | nil => exact ⟨Nat.le_of_eq tiled, by rintro entry ⟨⟩⟩
  | cons first entries ih =>
    obtain ⟨rfl, rest⟩ := tiled
    obtain ⟨below, each⟩ := ih rest
    have start : first.localOffset ≤ first.payloadStart := by
      rw [ZipEntry.payloadStart]
      omega
    have width : first.payloadStart ≤ first.payloadStop := Nat.le_add_right _ _
    refine ⟨by omega, ?_⟩
    intro entry mem
    obtain rfl | mem := List.mem_cons.mp mem
    · exact ⟨start, below⟩
    · obtain ⟨after, inside⟩ := each entry mem
      exact ⟨by omega, inside⟩

/-- The payloads of tiled entries lie one behind the other. -/
theorem Tiled.pairwise {start stop : Nat} {entries : List ZipEntry}
    (tiled : Tiled start entries stop) :
    entries.Pairwise fun a b => a.payloadStop ≤ b.payloadStart := by
  induction entries generalizing start with
  | nil => exact List.Pairwise.nil
  | cons first entries ih =>
    obtain ⟨-, rest⟩ := tiled
    exact List.pairwise_cons.mpr ⟨fun entry mem => (rest.le.2 entry mem).1, ih rest⟩

/-! No byte outside the archive is read. -/

def Safe {α : Type} (checked : Checked α) : Prop := checked ≠ .error .outside

section

variable {α β : Type} {next : α → Checked β}

theorem safe_bind {checked : Checked α} (first : Safe checked)
    (rest : ∀ a, checked = .ok a → Safe (next a)) : Safe (checked >>= next) := by
  cases checked with
  | error fault => exact fun h => first (congrArg Except.error (Except.error.inj h))
  | ok a => exact rest a rfl

theorem safe_ok (a : α) : Safe (.ok a) := by rintro ⟨⟩

theorem safe_failIf {c : Prop} [Decidable c] {error : CoDetectSupportBundleError}
    {member : Option Nat} {next : Unit → Checked β} (rest : ¬ c → Safe (next ())) :
    Safe (failIf c error member >>= next) := by
  unfold failIf
  split
  · rintro ⟨⟩
  · exact rest ‹_›

theorem safe_le16 {offset : Nat} {next : Nat → Checked β} (inside : offset + 2 ≤ archive.length)
    (rest : Safe (next (field archive offset 2))) : Safe (le16 archive offset >>= next) := by
  rw [le16_eq, if_pos inside]
  exact rest

theorem safe_le32 {offset : Nat} {next : Nat → Checked β} (inside : offset + 4 ≤ archive.length)
    (rest : Safe (next (field archive offset 4))) : Safe (le32 archive offset >>= next) := by
  rw [le32_eq, if_pos inside]
  exact rest

theorem safe_slice {offset size : Nat} {next : Bytes → Checked β}
    (inside : offset + size ≤ archive.length)
    (rest : Safe (next ((archive.drop offset).take size))) :
    Safe (slice archive offset size >>= next) := by
  rw [slice, if_pos inside]
  exact rest

end

theorem checkEntry_safe (index total : Nat) (names : List Bytes) (entry : ZipEntry) :
    Safe (checkEntry limits index total names entry) := by
  unfold checkEntry
  iterate 7 refine safe_failIf fun _ => ?_
  exact safe_ok _

theorem centralEntry_safe {eocd : Nat} (inside : eocd ≤ archive.length)
    (cursor index total : Nat) (names : List Bytes) :
    Safe (centralEntry archive limits eocd cursor index total names) := by
  unfold centralEntry
  refine safe_failIf fun room => safe_le32 (by omega) (safe_failIf fun _ => ?_)
  refine safe_le16 (by omega) (safe_le16 (by omega) (safe_le16 (by omega) ?_))
  refine safe_le16 (by omega) (safe_le32 (by omega) (safe_le32 (by omega) ?_))
  refine safe_le32 (by omega) (safe_le16 (by omega) (safe_le16 (by omega) ?_))
  refine safe_le16 (by omega) (safe_le16 (by omega) (safe_le32 (by omega) ?_))
  refine safe_le32 (by omega) (safe_failIf fun _ => safe_failIf fun _ => ?_)
  refine safe_failIf fun named => safe_slice (by omega) ?_
  exact safe_bind (checkEntry_safe _ _ _ _) fun total _ => safe_ok _

theorem centralLoop_safe {eocd : Nat} (inside : eocd ≤ archive.length) (n cursor index total : Nat)
    (names : List Bytes) :
    Safe (centralLoop archive limits eocd n cursor index total names) := by
  induction n generalizing cursor index total names with
  | zero => exact safe_ok _
  | succ n ih =>
    rw [centralLoop]
    refine safe_bind (centralEntry_safe inside _ _ _ _) ?_
    rintro ⟨entry, total⟩ -
    refine safe_bind (ih _ _ _ _) ?_
    rintro ⟨entries, last⟩ -
    exact safe_ok _

theorem localEntry_safe {centralOffset : Nat} (inside : centralOffset ≤ archive.length)
    (index expected : Nat) (entry : ZipEntry) :
    Safe (localEntry archive centralOffset index expected entry) := by
  unfold localEntry
  refine safe_failIf fun room => safe_le32 (by omega) (safe_failIf fun _ => ?_)
  refine safe_le16 (by omega) (safe_le16 (by omega) (safe_failIf fun _ => ?_))
  refine safe_le16 (by omega) (safe_le16 (by omega) (safe_le16 (by omega) ?_))
  refine safe_le32 (by omega) (safe_le32 (by omega) (safe_le32 (by omega) ?_))
  refine safe_failIf fun _ => safe_failIf fun named => safe_slice (by omega) ?_
  exact safe_failIf fun _ => safe_failIf fun _ => safe_ok _

theorem localLoop_safe {centralOffset : Nat} (inside : centralOffset ≤ archive.length)
    (index expected : Nat) (entries : List ZipEntry) :
    Safe (localLoop archive centralOffset index expected entries) := by
  induction entries generalizing index expected with
  | nil => exact safe_ok _
  | cons entry entries ih =>
    rw [localLoop]
    exact safe_bind (localEntry_safe inside _ _ _) fun next _ => ih _ _

theorem preflightZip_safe (work : Nat) : Safe (preflightZip archive limits work) := by
  unfold preflightZip
  refine safe_failIf fun size => safe_failIf fun _ => safe_le32 (by omega) ?_
  refine safe_failIf fun _ => safe_le32 (by omega) (safe_le16 (by omega) ?_)
  refine safe_failIf fun _ => safe_le16 (by omega) (safe_le16 (by omega) ?_)
  refine safe_failIf fun _ => safe_le16 (by omega) (safe_le16 (by omega) ?_)
  refine safe_failIf fun _ => safe_failIf fun _ => safe_failIf fun _ => ?_
  refine safe_le32 (by omega) (safe_le32 (by omega) (safe_failIf fun sized => ?_))
  refine safe_bind (centralLoop_safe (Nat.sub_le _ _) _ _ _ _ _) ?_
  rintro ⟨entries, cursor⟩ -
  refine safe_failIf fun _ => safe_bind (localLoop_safe (by omega) _ _ _) fun last _ => ?_
  exact safe_failIf fun _ => safe_ok _

/-- An archive is accepted exactly when it is the concatenation of the local headers with their
payloads, the central directory and the end record of a well formed list of entries. It is that of
no other list, the entries it yields tile what is before the directory, and no byte outside it is
ever read. -/
theorem preflightZip_exact (archive : Bytes) (limits : ValidLimits) (work : Nat) :
    (∀ entries left, preflightZip archive limits.1 work = .ok (entries, left) ↔
      archive.length ≤ work ∧ left = work - archive.length ∧
      ∃ items, Layout limits.1 items ∧ archive = archiveOf items ∧
        entries = items.map (·.header.entry)) ∧
    (∀ items items', Layout limits.1 items → Layout limits.1 items' →
      archive = archiveOf items → archive = archiveOf items' → items = items') ∧
    (∀ entries left, preflightZip archive limits.1 work = .ok (entries, left) →
      ∃ centralOffset, Tiled 0 entries centralOffset ∧
        (entries.Pairwise fun a b => a.payloadStop ≤ b.payloadStart) ∧
        (∀ entry ∈ entries, entry.payloadStop ≤ centralOffset) ∧
        centralOffset + (entries.map (fun entry => 46 + entry.name.length)).sum + 22 =
          archive.length) ∧
    preflightZip archive limits.1 work ≠ .error .outside := by
  refine ⟨fun entries left => preflightZip_iff limits.2, ?_, ?_, preflightZip_safe work⟩
  · rintro items items' layout layout' rfl same
    exact archiveOf_injective limits.2 layout layout' same
  · intro entries left accepted
    obtain ⟨-, -, items, layout, rfl, rfl⟩ := (preflightZip_iff limits.2).mp accepted
    have tiled := tiled_of_placed layout.placed
    rw [Nat.zero_add] at tiled
    refine ⟨(front items).length, tiled, tiled.pairwise, fun entry mem => (tiled.le.2 entry mem).2,
      ?_⟩
    have central : (directory (items.map (·.header))).length =
        ((items.map (·.header.entry)).map (fun entry => 46 + entry.name.length)).sum := by
      rw [directory, List.length_flatMap, List.map_map, List.map_map]
      exact congrArg List.sum (List.map_congr_left fun item _ => centralText_length item.header)
    rw [archiveOf_length, central]

end Baas.SupportBundle
