import Baas.Scheduler.PolicyJsonRead

/-! A document as it is written: its octets, its size and its shape. -/
namespace Baas.Scheduler

open Utf8 Decimal JsonText

/-! The octets. -/

theorem ascii_octets (text : Text) (low : text.all (· ≤ 0x7F) = true) : Octets text :=
  .of_ascii (fun c member => by simpa using List.all_eq_true.mp low c member)

theorem decimal_octets (n : Nat) : Octets (decimal n) := by
  refine .of_ascii (fun c member => ?_)
  have digit := decimal_digits n c member
  simp only [isDigit, Bool.and_eq_true, decide_eq_true_eq] at digit
  exact UInt8.le_trans digit.2 (by decide)

theorem integerText_octets (value : Int) : Octets (integerText value) := by
  cases value with
  | ofNat n => exact decimal_octets n
  | negSucc n => exact .append (ascii_octets [45] (by decide)) (decimal_octets (n + 1))

/-- The forms of an escaped byte: the byte, a letter behind a backslash, or its code. -/
theorem escapeByte_forms {motive : Text → Prop} {c : UInt8} (same : motive [c])
    (letter : c ≤ 0x7F → ∀ d : UInt8, d ≤ 0x7F → motive [92, d])
    (code : c < 0x20 →
      motive [92, 117, 48, 48, hexDigitText (c >>> 4), hexDigitText (c &&& 0xF)]) :
    motive (escapeByte c) := by
  have at_most {d : UInt8} (low : d ≤ 0x7F) (eq : c = d) : c ≤ 0x7F := eq ▸ low
  unfold escapeByte
  refine iteInduction (fun eq => letter (at_most (by decide) eq) _ (by decide)) (fun _ => ?_)
  refine iteInduction (fun eq => letter (at_most (by decide) eq) _ (by decide)) (fun _ => ?_)
  refine iteInduction (fun eq => letter (at_most (by decide) eq) _ (by decide)) (fun _ => ?_)
  refine iteInduction (fun eq => letter (at_most (by decide) eq) _ (by decide)) (fun _ => ?_)
  refine iteInduction (fun eq => letter (at_most (by decide) eq) _ (by decide)) (fun _ => ?_)
  refine iteInduction (fun eq => letter (at_most (by decide) eq) _ (by decide)) (fun _ => ?_)
  refine iteInduction (fun eq => letter (at_most (by decide) eq) _ (by decide)) (fun _ => ?_)
  exact iteInduction code (fun _ => same)

theorem hexDigitText_low : ∀ n : Fin 32,
    hexDigitText (UInt8.ofNat n >>> 4) ≤ 0x7F ∧ hexDigitText (UInt8.ofNat n &&& 0xF) ≤ 0x7F := by
  decide

theorem escapeByte_low (c : UInt8) (low : c ≤ 0x7F) : ∀ d ∈ escapeByte c, d ≤ 0x7F := by
  refine escapeByte_forms (motive := fun text => ∀ d ∈ text, d ≤ 0x7F) ?_ ?_ ?_
  · simpa using low
  · intro _ d letter
    simpa using letter
  · intro control
    have bound : c.toNat < 32 := control
    have digits := hexDigitText_low ⟨c.toNat, bound⟩
    simpa using digits

theorem escapeByte_high (c : UInt8) (high : 0x80 ≤ c) : escapeByte c = [c] := by
  have past : ¬ c ≤ 0x7F := fun low => absurd (UInt8.le_trans high low) (by decide)
  refine escapeByte_forms (motive := (· = [c])) rfl (fun low => absurd low past) (fun control => ?_)
  exact absurd (UInt8.le_trans (UInt8.le_of_lt control) (by decide)) past

theorem quoted_octets {text : Text} (octets : Octets text) : Octets (quoted text) := by
  have quote : Octets [34] := ascii_octets _ (by decide)
  exact (quote.append (octets.flatMap escapeByte_low escapeByte_high)).append quote

theorem spaces_octets (count : Nat) : Octets (spaces count) := by
  refine .of_ascii (fun c member => ?_)
  rw [(List.mem_replicate.mp member).2]
  decide

theorem lines_octets {indent : Nat} {elements : List Text} (each : ∀ text ∈ elements, Octets text) :
    Octets (lines indent elements) := by
  induction elements with
  | nil => exact .nil
  | cons text rest ih =>
    have first := (spaces_octets indent).append (each text List.mem_cons_self)
    cases rest with
    | nil => exact first.append (ascii_octets _ (by decide))
    | cons next rest =>
      have more := ih (fun other member => each other (List.mem_cons_of_mem text member))
      exact (first.append (ascii_octets _ (by decide))).append more

theorem container_octets {opening closing : UInt8} {indent : Nat} {elements : List Text}
    (low : opening ≤ 0x7F ∧ closing ≤ 0x7F) (each : ∀ text ∈ elements, Octets text) :
    Octets (container opening closing indent elements) := by
  have bracket : Octets [opening] := .of_ascii (by simpa using low.1)
  have last : Octets [closing] := .of_ascii (by simpa using low.2)
  unfold container
  split
  · exact bracket.append last
  · have start : Octets [opening, 10] := bracket.append (ascii_octets [10] (by decide))
    exact ((start.append (lines_octets each)).append (spaces_octets indent)).append last

theorem itemTexts_eq (indent : Nat) (items : List Json) :
    itemTexts indent items = items.map (Json.dump indent) := by
  induction items with
  | nil => rfl
  | cons item rest ih => rw [itemTexts, ih, List.map_cons]

theorem array_octets {indent : Nat} {items : List Json}
    (each : ∀ item ∈ items, Octets (item.dump (indent + 2))) :
    Octets ((Json.array items).dump indent) := by
  rw [Json.dump, itemTexts_eq]
  refine container_octets ⟨by decide, by decide⟩ (fun text member => ?_)
  obtain ⟨item, there, rfl⟩ := List.mem_map.mp member
  exact each item there

theorem time_octets (time : TimeOfDay) (indent : Nat) : Octets ((encodeTime time).dump indent) := by
  refine array_octets (fun item member => ?_)
  simp only [List.mem_cons, List.not_mem_nil, or_false] at member
  rcases member with rfl | rfl | rfl
  · exact integerText_octets time.hour.toNat
  · exact integerText_octets time.minute.toNat
  · exact integerText_octets time.second.toNat

theorem range_octets (range : DisabledTimeRange) (indent : Nat) :
    Octets ((encodeRange range).dump indent) := by
  refine array_octets (fun item member => ?_)
  simp only [List.mem_cons, List.not_mem_nil, or_false] at member
  rcases member with rfl | rfl
  · exact time_octets range.start _
  · exact time_octets range.finish _

theorem tasks_octets {texts : List Text} (clean : ∀ text ∈ texts, isValidUtf8 text = true)
    (indent : Nat) : Octets ((Json.array (texts.map .string)).dump indent) := by
  refine array_octets (fun item member => ?_)
  obtain ⟨text, there, rfl⟩ := List.mem_map.mp member
  exact quoted_octets (isValidUtf8_iff.mp (clean text there))

theorem memberTexts_eq (indent : Nat) (members : List (Text × Json)) :
    memberTexts indent members =
      members.map (fun member => quoted member.1 ++ [58, 32] ++ member.2.dump indent) := by
  induction members with
  | nil => rfl
  | cons member rest ih => rw [memberTexts, ih, List.map_cons]

theorem event_octets {event : SchedulerEvent}
    (clean : ∀ text ∈ event.strings, isValidUtf8 text = true) (indent : Nat) :
    Octets ((encodeEvent event).dump indent) := by
  have at_string {text : Text} (member : text ∈ event.strings) (indent : Nat) :
      Octets ((Json.string text).dump indent) :=
    quoted_octets (isValidUtf8_iff.mp (clean text member))
  have keys : ∀ key ∈ storedKeys, Octets (ascii key) := by
    have all : storedKeys.all (fun key => (ascii key).all (· ≤ 0x7F)) = true := by
      simp only [storedKeys, ascii_eq]
      decide
    exact fun key member => ascii_octets _ (List.all_eq_true.mp all key member)
  rw [encodeEvent_eq, Json.dump, memberTexts_eq]
  refine container_octets ⟨by decide, by decide⟩ (fun text listed => ?_)
  obtain ⟨member, there, rfl⟩ := List.mem_map.mp listed
  have key : Octets member.1 := by
    have named : member.1 ∈ storedKeys.map ascii := List.mem_map_of_mem (f := Prod.fst) there
    obtain ⟨key, stored, same⟩ := List.mem_map.mp named
    exact same ▸ keys key stored
  refine ((quoted_octets key).append (ascii_octets _ (by decide))).append ?_
  simp only [storedMembers, List.mem_cons, List.not_mem_nil, or_false] at there
  rcases there with rfl | rfl | rfl | rfl | rfl | rfl | rfl | rfl | rfl | rfl
  · refine array_octets (fun item member => ?_)
    obtain ⟨time, -, rfl⟩ := List.mem_map.mp member
    exact time_octets time _
  · refine array_octets (fun item member => ?_)
    obtain ⟨range, -, rfl⟩ := List.mem_map.mp member
    exact range_octets range _
  · cases enabled : event.enabled with
    | true => exact ascii_octets (ascii "true") (by rw [ascii_eq]; decide)
    | false => exact ascii_octets (ascii "false") (by rw [ascii_eq]; decide)
  · exact at_string (by simp [SchedulerEvent.strings]) _
  · exact at_string (by simp [SchedulerEvent.strings]) _
  · exact integerText_octets event.intervalSeconds
  · exact integerText_octets event.nextTick
  · exact tasks_octets (fun text task => clean text (by simp [SchedulerEvent.strings, task])) _
  · exact tasks_octets (fun text task => clean text (by simp [SchedulerEvent.strings, task])) _
  · exact integerText_octets event.priority.toInt

/-- The strings of a document are UTF-8. -/
def SchedulerDocument.Clean (document : SchedulerDocument) : Prop :=
  ∀ event ∈ document.events, ∀ text ∈ event.strings, isValidUtf8 text = true

theorem document_octets {document : SchedulerDocument} (clean : document.Clean) :
    Octets ((encodeDocument document).dump 0) := by
  refine array_octets (fun item member => ?_)
  obtain ⟨event, there, rfl⟩ := List.mem_map.mp member
  exact event_octets (clean event there) _

/-! The size. -/

theorem escapeByte_length (c : UInt8) : (escapeByte c).length ≤ 6 :=
  escapeByte_forms (motive := fun text => text.length ≤ 6) (Nat.le_add_left 1 5)
    (fun _ _ _ => Nat.le_add_left 2 4) (fun _ => Nat.le_refl 6)

theorem quoted_length (text : Text) : (quoted text).length ≤ 2 + 6 * text.length := by
  have inside : (text.flatMap escapeByte).length ≤ 6 * text.length := by
    induction text with
    | nil => exact Nat.le_refl _
    | cons c rest ih =>
      have first := escapeByte_length c
      rw [List.flatMap_cons, List.length_append, List.length_cons]
      omega
  simp only [quoted, List.length_append, List.length_cons, List.length_nil]
  omega

theorem integerText_length {value : Int} {k : Nat} (low : -10 ^ (k + 1) < value)
    (high : value < 10 ^ (k + 1)) : (integerText value).length ≤ k + 2 := by
  have cast : ((10 ^ (k + 1) : Nat) : Int) = 10 ^ (k + 1) := by push_cast; rfl
  cases value with
  | ofNat n =>
    have small : n < 10 ^ (k + 1) := by
      have h : (n : Int) < 10 ^ (k + 1) := high
      omega
    exact Nat.le_succ_of_le (decimal_length small)
  | negSucc n =>
    have small : n + 1 < 10 ^ (k + 1) := by
      omega
    exact Nat.succ_le_succ (decimal_length small)

theorem lines_length (indent : Nat) {elements : List Text} (some : elements ≠ []) :
    (lines indent elements).length + 1 =
      (elements.map (fun text => indent + text.length + 2)).sum := by
  induction elements with
  | nil => exact absurd rfl some
  | cons text rest ih =>
    have blank : (spaces indent).length = indent := List.length_replicate
    cases rest with
    | nil =>
      simp only [lines, List.length_append, blank, List.length_cons, List.length_nil,
        List.map_cons, List.map_nil, List.sum_cons, List.sum_nil]
      omega
    | cons next rest =>
      have more := ih (List.cons_ne_nil next rest)
      rw [List.map_cons, List.sum_cons, ← more]
      simp only [lines, List.length_append, blank, List.length_cons, List.length_nil]
      omega

theorem container_length (opening closing : UInt8) (indent : Nat) (elements : List Text) :
    (container opening closing indent elements).length ≤
      indent + 2 + (elements.map (fun text => indent + 2 + text.length + 2)).sum := by
  unfold container
  split
  · simp only [List.length_cons, List.length_nil]
    omega
  · rename_i filled
    have blank : (spaces indent).length = indent := List.length_replicate
    have inside := lines_length (indent + 2)
      (List.isEmpty_eq_false_iff.mp (Bool.not_eq_true _ ▸ filled))
    simp only [List.length_append, blank, List.length_cons, List.length_nil]
    omega

theorem sum_le {α : Type} {f g : α → Nat} {l : List α} (each : ∀ a ∈ l, f a ≤ g a) :
    (l.map f).sum ≤ (l.map g).sum := by
  induction l with
  | nil => exact Nat.le_refl _
  | cons a rest ih =>
    have first := each a List.mem_cons_self
    have more := ih (fun b member => each b (List.mem_cons_of_mem a member))
    simp only [List.map_cons, List.sum_cons]
    omega

theorem sum_const {α : Type} (l : List α) (size : Nat) :
    (l.map (fun _ => size)).sum = size * l.length := by
  induction l with
  | nil => rfl
  | cons a rest ih => rw [List.map_cons, List.sum_cons, ih, List.length_cons, Nat.mul_succ,
      Nat.add_comm]

/-- An array of encoded elements of known sizes. -/
theorem array_length {α : Type} {encode : α → Json} (indent : Nat) (size : α → Nat) {l : List α}
    (each : ∀ a ∈ l, ((encode a).dump (indent + 2)).length ≤ size a) :
    ((Json.array (l.map encode)).dump indent).length ≤
      indent + 2 + (l.map (fun a => indent + 4 + size a)).sum := by
  have whole := container_length 91 93 indent ((l.map encode).map (Json.dump (indent + 2)))
  have less : (l.map (fun a => indent + 2 + ((encode a).dump (indent + 2)).length + 2)).sum ≤
      (l.map (fun a => indent + 4 + size a)).sum := by
    refine sum_le (fun a member => ?_)
    have here := each a member
    omega
  rw [List.map_map, List.map_map] at whole
  rw [Json.dump, itemTexts_eq, List.map_map]
  exact whole.trans (Nat.add_le_add_left less _)

theorem dump_integer (indent : Nat) (value : Int) :
    (Json.integer value).dump indent = integerText value := by
  rw [Json.dump]

theorem dump_string (indent : Nat) (value : Text) :
    (Json.string value).dump indent = quoted value := by
  rw [Json.dump]

theorem time_length {time : TimeOfDay} (valid : time.valid = true) (indent : Nat) :
    ((encodeTime time).dump indent).length ≤ 4 * indent + 20 := by
  simp only [TimeOfDay.valid, Bool.not_eq_true', Bool.or_eq_false_iff, decide_eq_false_iff_not,
    gt_iff_lt, UInt8.lt_iff_toNat_lt] at valid
  have h : time.hour.toNat ≤ 23 := Nat.not_lt.mp valid.1.1
  have m : time.minute.toNat ≤ 59 := Nat.not_lt.mp valid.1.2
  have s : time.second.toNat ≤ 59 := Nat.not_lt.mp valid.2
  have short (n : Nat) (small : n ≤ 59) : (Json.dump (indent + 2) (.integer n)).length ≤ 2 := by
    rw [dump_integer]
    exact decimal_length (k := 1) (by omega)
  have digits : ∀ n ∈ [time.hour.toNat, time.minute.toNat, time.second.toNat],
      (Json.dump (indent + 2) (.integer n)).length ≤ 2 := by
    simp only [List.mem_cons, List.not_mem_nil, or_false, forall_eq_or_imp, forall_eq]
    exact ⟨short _ (by omega), short _ m, short _ s⟩
  have whole := array_length indent (fun _ => 2) digits
  rw [sum_const] at whole
  change ((encodeTime time).dump indent).length ≤ indent + 2 + (indent + 4 + 2) * 3 at whole
  omega

theorem range_length {range : DisabledTimeRange}
    (valid : (range.start.valid && range.finish.valid) = true) (indent : Nat) :
    ((encodeRange range).dump indent).length ≤ 11 * indent + 66 := by
  rw [Bool.and_eq_true] at valid
  have times : ∀ time ∈ [range.start, range.finish],
      ((encodeTime time).dump (indent + 2)).length ≤ 4 * (indent + 2) + 20 := by
    simp only [List.mem_cons, List.not_mem_nil, or_false, forall_eq_or_imp, forall_eq]
    exact ⟨time_length valid.1 _, time_length valid.2 _⟩
  have whole := array_length indent (fun _ => 4 * (indent + 2) + 20) times
  rw [sum_const] at whole
  change ((encodeRange range).dump indent).length ≤
    indent + 2 + (indent + 4 + (4 * (indent + 2) + 20)) * 2 at whole
  omega

theorem tasks_length (texts : List Text) :
    ((Json.array (texts.map .string)).dump 4).length ≤
      6 + (10 * texts.length + 6 * stringBytes texts) := by
  have each : ∀ text ∈ texts, ((Json.string text).dump (4 + 2)).length ≤ 2 + 6 * text.length := by
    intro text _
    rw [Json.dump]
    exact quoted_length text
  have whole := array_length 4 _ each
  have sum : (texts.map (fun text => 4 + 4 + (2 + 6 * text.length))).sum =
      10 * texts.length + 6 * stringBytes texts := by
    clear whole each
    induction texts with
    | nil => rfl
    | cons text rest ih =>
      simp only [stringBytes, List.map_cons, List.sum_cons, List.length_cons] at ih ⊢
      omega
  rwa [sum] at whole

theorem event_length {event : SchedulerEvent} (sound : event.Sound) :
    4 + ((encodeEvent event).dump 2).length ≤ 16 * event.nodes + 6 * event.bytes := by
  obtain ⟨-, ⟨iLow, iHigh⟩, ⟨tLow, tHigh⟩, -⟩ := inBounds_iff.mp sound.bounds
  have times := sound.times
  unfold SchedulerEvent.timesValid at times
  rw [Bool.and_eq_true, List.all_eq_true, List.all_eq_true] at times
  have resets := array_length 4 (fun _ => 44)
    (fun time member => time_length (times.1 time member) 6)
  have ranges := array_length 4 (fun _ => 132)
    (fun range member => range_length (times.2 range member) 6)
  have pre := tasks_length event.preTasks
  have post := tasks_length event.postTasks
  have name := quoted_length event.eventName
  have function := quoted_length event.functionName
  rw [sum_const] at resets ranges
  have priority : (integerText event.priority.toInt).length ≤ 11 := by
    have fits := Int32.fits event.priority
    exact integerText_length (k := 9) (by omega) (by omega)
  have interval : (integerText event.intervalSeconds).length ≤ 10 :=
    integerText_length (k := 8) (lt_of_lt_of_le (by decide) iLow)
      (lt_of_le_of_lt iHigh (by decide))
  have tick : (integerText event.nextTick).length ≤ 13 :=
    integerText_length (k := 11) (lt_of_lt_of_le (by decide) tLow)
      (lt_of_le_of_lt tHigh (by decide))
  have enabled : (Json.dump 4 (.boolean event.enabled)).length ≤ 5 := by
    cases event.enabled <;> simp only [Json.dump, ascii_eq] <;> decide
  have keys : storedKeys.map (fun key => (quoted (ascii key)).length) =
      [13, 21, 9, 12, 11, 10, 11, 11, 10, 10] := by
    simp only [ascii_eq]
    decide
  have whole := container_length 123 125 2
    ((storedMembers event).map (fun member => quoted member.1 ++ [58, 32] ++ member.2.dump (2 + 2)))
  have size : event.nodes = 21 + 4 * event.dailyResets.length +
    9 * event.disabledTimeRanges.length + event.preTasks.length + event.postTasks.length := rfl
  have bytes := event.bytes_eq
  rw [encodeEvent_eq, Json.dump, memberTexts_eq]
  simp only [storedKeys, List.map_cons, List.map_nil, List.cons.injEq, and_true] at keys
  rw [List.map_map] at whole
  simp only [storedMembers, List.map_cons, List.map_nil, List.sum_cons, List.sum_nil,
    Function.comp_apply, List.length_append, List.length_cons, List.length_nil, Nat.reduceAdd,
    dump_integer, dump_string, keys] at whole ⊢
  omega

/-- What the shape check counts for a document as it is written. -/
def SchedulerDocument.nodes (document : SchedulerDocument) : Nat := 1 + eventsNodes document.events

theorem document_length {document : SchedulerDocument}
    (sound : ∀ event ∈ document.events, event.Sound) :
    ((encodeDocument document).dump 0).length ≤
      16 * document.nodes + 6 * eventsBytes document.events := by
  have whole := array_length 0 (fun event => ((encodeEvent event).dump 2).length)
    (fun event (_ : event ∈ document.events) => Nat.le_refl ((encodeEvent event).dump 2).length)
  have sum : (document.events.map (fun event => 0 + 4 + ((encodeEvent event).dump 2).length)).sum ≤
      16 * eventsNodes document.events + 6 * eventsBytes document.events := by
    have each := sum_le (fun event member => event_length (sound event member))
    rw [Nat.zero_add]
    refine each.trans (Nat.le_of_eq ?_)
    clear each whole sound
    induction document.events with
    | nil => rfl
    | cons event rest ih =>
      simp only [eventsNodes, eventsBytes, List.map_cons, List.sum_cons] at ih ⊢
      omega
  unfold SchedulerDocument.nodes
  exact whole.trans (by omega)

/-! The shape. -/

theorem itemNodes_map {α : Type} {encode : α → Json} (l : List α) :
    itemNodes (l.map encode) = (l.map (fun a => (encode a).nodes)).sum := by
  rw [itemNodes_eq_sum, List.map_map]
  rfl

theorem time_nodes (time : TimeOfDay) : (encodeTime time).nodes = 4 := rfl

theorem range_nodes (range : DisabledTimeRange) : (encodeRange range).nodes = 9 := rfl

theorem event_nodes (event : SchedulerEvent) : (encodeEvent event).nodes = event.nodes := by
  have tasks (texts : List Text) : itemNodes (texts.map .string) = texts.length := by
    rw [itemNodes_map]
    exact (sum_const texts 1).trans (Nat.one_mul _)
  have resets : itemNodes (event.dailyResets.map encodeTime) = 4 * event.dailyResets.length := by
    rw [itemNodes_map]
    exact sum_const event.dailyResets 4
  have ranges : itemNodes (event.disabledTimeRanges.map encodeRange) =
      9 * event.disabledTimeRanges.length := by
    rw [itemNodes_map]
    exact sum_const event.disabledTimeRanges 9
  rw [encodeEvent_eq, Json.nodes]
  simp only [storedMembers, memberNodes, Json.nodes, tasks, resets, ranges, SchedulerEvent.nodes]
  omega

theorem document_nodes (document : SchedulerDocument) :
    (encodeDocument document).nodes = document.nodes := by
  rw [encodeDocument, Json.nodes, itemNodes_map]
  simp only [event_nodes]
  rfl

theorem array_height {α : Type} {encode : α → Json} (most : Nat) {l : List α}
    (each : ∀ a ∈ l, (encode a).height ≤ most) : (Json.array (l.map encode)).height ≤ most + 1 := by
  rw [Json.height]
  have inside : itemHeight (l.map encode) ≤ most := by
    refine itemHeight_le (fun item member => ?_)
    obtain ⟨a, there, rfl⟩ := List.mem_map.mp member
    exact each a there
  omega

theorem document_height (document : SchedulerDocument) : (encodeDocument document).height ≤ 5 := by
  refine array_height 4 (fun event _ => ?_)
  have resets : (Json.array (event.dailyResets.map encodeTime)).height ≤ 2 :=
    array_height 1 (fun time _ => Nat.le_refl 1)
  have ranges : (Json.array (event.disabledTimeRanges.map encodeRange)).height ≤ 3 :=
    array_height 2 (fun range _ => Nat.le_refl 2)
  have tasks (texts : List Text) : (Json.array (texts.map .string)).height ≤ 1 :=
    array_height 0 (fun text _ => Nat.le_refl 0)
  have pre := tasks event.preTasks
  have post := tasks event.postTasks
  rw [encodeEvent_eq, Json.height]
  simp only [storedMembers, memberHeight]
  simp only [Json.height] at resets ranges pre post ⊢
  omega

theorem array_distinct {α : Type} {encode : α → Json} {l : List α}
    (each : ∀ a ∈ l, (encode a).hasDuplicateKey = false) :
    (Json.array (l.map encode)).hasDuplicateKey = false := by
  rw [Json.hasDuplicateKey]
  induction l with
  | nil => rfl
  | cons a rest ih =>
    rw [List.map_cons, itemsHaveDuplicateKey, each a List.mem_cons_self,
      ih (fun b member => each b (List.mem_cons_of_mem a member))]
    rfl

theorem document_distinct (document : SchedulerDocument) :
    (encodeDocument document).hasDuplicateKey = false := by
  refine array_distinct (fun event _ => ?_)
  have resets : (Json.array (event.dailyResets.map encodeTime)).hasDuplicateKey = false :=
    array_distinct (fun time _ => rfl)
  have ranges : (Json.array (event.disabledTimeRanges.map encodeRange)).hasDuplicateKey = false :=
    array_distinct (fun range _ => rfl)
  have tasks (texts : List Text) : (Json.array (texts.map .string)).hasDuplicateKey = false :=
    array_distinct (fun text _ => rfl)
  have keys : ((storedMembers event).map Prod.fst).Nodup := storedKeys_nodup
  rw [encodeEvent_eq, Json.hasDuplicateKey]
  simp only [Json.hasDuplicateKey] at resets ranges tasks
  simp only [keys, decide_true, Bool.not_true, Bool.false_or]
  simp only [storedMembers, membersHaveDuplicateKey, resets, ranges, tasks,
    Json.hasDuplicateKey, Bool.or_false]

/-- The writer's check on strings. -/
theorem document_utf8 {document : SchedulerDocument} :
    (encodeDocument document).utf8 = true ↔ document.Clean := by
  have keys : storedKeys.map (fun key => isValidUtf8 (ascii key)) = List.replicate 10 true := by
    simp only [ascii_eq]
    decide
  simp only [storedKeys, List.map_cons, List.map_nil, List.replicate, List.cons.injEq,
    and_true] at keys
  refine array_utf8.trans (forall₂_congr (fun event _ => ?_))
  constructor
  · intro clean text member
    obtain ⟨-, -, -, -, name, function, -, -, pre, post⟩ := encodeEvent_members event
    have at_key (key : String) := member_utf8 key clean
    simp only [SchedulerEvent.strings, List.mem_cons, List.mem_append] at member
    rcases member with rfl | rfl | early | late
    · exact (congrArg Json.utf8 name).symm.trans (at_key "event_name")
    · exact (congrArg Json.utf8 function).symm.trans (at_key "func_name")
    · exact array_utf8.mp ((congrArg Json.utf8 pre).symm.trans (at_key "pre_task")) text early
    · exact array_utf8.mp ((congrArg Json.utf8 post).symm.trans (at_key "post_task")) text late
  · intro here
    have resets : (Json.array (event.dailyResets.map encodeTime)).utf8 = true :=
      array_utf8.mpr (fun time _ => rfl)
    have ranges : (Json.array (event.disabledTimeRanges.map encodeRange)).utf8 = true :=
      array_utf8.mpr (fun range _ => rfl)
    have pre : (Json.array (event.preTasks.map .string)).utf8 = true :=
      array_utf8.mpr (fun text task => here text (by simp [SchedulerEvent.strings, task]))
    have post : (Json.array (event.postTasks.map .string)).utf8 = true :=
      array_utf8.mpr (fun text task => here text (by simp [SchedulerEvent.strings, task]))
    have name := here event.eventName (by simp [SchedulerEvent.strings])
    have function := here event.functionName (by simp [SchedulerEvent.strings])
    rw [encodeEvent_eq, Json.utf8]
    simp only [Json.utf8] at resets ranges pre post
    simp only [storedMembers, membersUtf8, keys, resets, ranges, pre, post, name, function,
      Json.utf8, Bool.and_self]

end Baas.Scheduler
