import Baas.Scheduler.PolicyJsonShape
import Baas.Scheduler.Validity
import Mathlib.Data.List.Perm.Subperm

/-! The parser takes back what is encoded, and takes nothing but valid events, none of them
larger than what it was read from. -/
namespace Baas.Scheduler

open JsonText

theorem requiredKeys_nodup : (requiredKeys.map ascii).Nodup := by
  simp only [requiredKeys, List.map_cons, List.map_nil, ascii_eq]
  decide

/-- Where no name is used twice, a lookup finds the member. -/
theorem find?_of_mem {members : List (Text × Json)} {member : Text × Json}
    (distinct : (members.map Prod.fst).Nodup) (there : member ∈ members) :
    members.find? (·.1 = member.1) = some member := by
  induction members with
  | nil => cases there
  | cons first rest ih =>
    rw [List.map_cons, List.nodup_cons] at distinct
    rcases List.mem_cons.mp there with rfl | later
    · simp only [List.find?_cons, decide_true]
    · have other : first.1 ≠ member.1 := by
        intro same
        have listed := List.mem_map_of_mem (f := Prod.fst) later
        exact distinct.1 (same ▸ listed)
      simp only [List.find?_cons, other, decide_false]
      exact ih distinct.2 later

theorem member_of_mem {members : List (Text × Json)} {key : String} {value : Json}
    (distinct : (members.map Prod.fst).Nodup) (there : (ascii key, value) ∈ members) :
    (Json.object members).member key = value := by
  have found := find?_of_mem distinct there
  simp only [Json.member, found, Option.map_some, Option.getD_some]

def storedKeys : List String :=
  ["daily_reset", "disabled_time_range", "enabled", "event_name", "func_name", "interval",
    "next_tick", "post_task", "pre_task", "priority"]

theorem storedKeys_nodup : (storedKeys.map ascii).Nodup := by
  simp only [storedKeys, List.map_cons, List.map_nil, ascii_eq]
  decide

theorem requiredKeys_stored : ∀ key ∈ requiredKeys, key ∈ storedKeys := by decide

def storedMembers (event : SchedulerEvent) : List (Text × Json) := [
    (ascii "daily_reset", .array (event.dailyResets.map encodeTime)),
    (ascii "disabled_time_range", .array (event.disabledTimeRanges.map encodeRange)),
    (ascii "enabled", .boolean event.enabled),
    (ascii "event_name", .string event.eventName),
    (ascii "func_name", .string event.functionName),
    (ascii "interval", .integer event.intervalSeconds),
    (ascii "next_tick", .integer event.nextTick),
    (ascii "post_task", .array (event.postTasks.map .string)),
    (ascii "pre_task", .array (event.preTasks.map .string)),
    (ascii "priority", .integer event.priority.toInt)]

theorem encodeEvent_eq (event : SchedulerEvent) :
    encodeEvent event = .object (storedMembers event) := rfl

theorem encodeEvent_members (event : SchedulerEvent) :
    (encodeEvent event).member "enabled" = .boolean event.enabled ∧
    (encodeEvent event).member "priority" = .integer event.priority.toInt ∧
    (encodeEvent event).member "interval" = .integer event.intervalSeconds ∧
    (encodeEvent event).member "next_tick" = .integer event.nextTick ∧
    (encodeEvent event).member "event_name" = .string event.eventName ∧
    (encodeEvent event).member "func_name" = .string event.functionName ∧
    (encodeEvent event).member "daily_reset" = .array (event.dailyResets.map encodeTime) ∧
    (encodeEvent event).member "disabled_time_range" =
      .array (event.disabledTimeRanges.map encodeRange) ∧
    (encodeEvent event).member "pre_task" = .array (event.preTasks.map .string) ∧
    (encodeEvent event).member "post_task" = .array (event.postTasks.map .string) := by
  have at_key {key : String} {value : Json} (there : (ascii key, value) ∈ storedMembers event) :
      (encodeEvent event).member key = value := member_of_mem storedKeys_nodup there
  refine ⟨at_key ?_, at_key ?_, at_key ?_, at_key ?_, at_key ?_, at_key ?_, at_key ?_, at_key ?_,
    at_key ?_, at_key ?_⟩ <;>
  simp [storedMembers]

theorem encodeEvent_shape (event : SchedulerEvent) :
    exactEventShape (encodeEvent event) = true := by
  have every : ∀ key ∈ requiredKeys, ascii key ∈ (storedMembers event).map Prod.fst := by
    intro key required
    exact List.mem_map_of_mem (requiredKeys_stored key required)
  have all : requiredKeys.all (fun key =>
      (storedMembers event).any (fun member => member.1 = ascii key)) = true := by
    refine List.all_eq_true.mpr (fun key required => List.any_eq_true.mpr ?_)
    obtain ⟨member, there, same⟩ := List.mem_map.mp (every key required)
    exact ⟨member, there, decide_eq_true same⟩
  rw [encodeEvent_eq]
  unfold exactEventShape
  dsimp only
  rw [all]
  rfl

theorem parseTime_encode {time : TimeOfDay} (valid : time.valid = true) :
    parseTimeOfDay (encodeTime time) = some time := by
  obtain ⟨hour, minute, second⟩ := time
  simp only [TimeOfDay.valid, Bool.not_eq_true', Bool.or_eq_false_iff, decide_eq_false_iff_not,
    gt_iff_lt, UInt8.lt_iff_toNat_lt] at valid
  have h : hour.toNat ≤ 23 := Nat.not_lt.mp valid.1.1
  have m : minute.toNat ≤ 59 := Nat.not_lt.mp valid.1.2
  have s : second.toNat ≤ 59 := Nat.not_lt.mp valid.2
  have fits (n : Nat) (small : n ≤ 59) : jsonInteger (.integer n) = some (n : Int) := by
    unfold jsonInteger
    simp only
    rw [if_neg (by omega)]
  unfold encodeTime parseTimeOfDay
  simp only [fits hour.toNat (by omega), fits minute.toNat m, fits second.toNat s]
  rw [if_neg (by omega)]
  simp only [Int.toNat_natCast, UInt8.ofNat_toNat]

theorem parseRange_encode {range : DisabledTimeRange}
    (valid : (range.start.valid && range.finish.valid) = true) :
    parseDisabledRange (encodeRange range) = some range := by
  rw [Bool.and_eq_true] at valid
  simp only [encodeRange, parseDisabledRange, parseTime_encode valid.1, parseTime_encode valid.2]

theorem parseList_map {α : Type} (limits : ParseLimits) {parse : Json → Option α}
    {encode : α → Json} {l : List α} (short : l.length ≤ limits.maximumItemsPerEvent)
    (back : ∀ a ∈ l, parse (encode a) = some a) :
    parseList limits parse (.array (l.map encode)) = some l := by
  have each : (l.map encode).mapM parse = some l := by
    clear short
    induction l with
    | nil => rfl
    | cons a rest ih =>
      rw [List.map_cons, List.mapM_cons, back a List.mem_cons_self,
        ih (fun b member => back b (List.mem_cons_of_mem a member))]
      rfl
  unfold parseList
  dsimp only
  rw [List.length_map, if_neg (by omega), each]

theorem checkedInteger_encode {least most value : Int} (above : least ≤ value)
    (below : value ≤ most) (fits : most ≤ 9223372036854775807) :
    checkedInteger least most (.integer value) = some value := by
  have read : jsonInteger (.integer value) = some value := if_neg (by omega)
  unfold checkedInteger
  simp only [read]
  exact if_neg (by omega)

section Strings

variable {limits : ParseLimits} {total final : Nat} {text : Text} {texts : List Text}

/-- The limits that a text is read back with are those a document is checked with. -/
structure ParseLimits.Most (limits : ParseLimits) : Prop where
  strings : limits.maximumStringBytes = hardMaximumStringBytes
  total : limits.maximumTotalStringBytes = hardMaximumTotalStringBytes
  items : limits.maximumItemsPerEvent = hardMaximumItemsPerEvent

theorem takeString_encode (most : limits.Most) (good : GoodString text)
    (fits : total + text.length ≤ hardMaximumTotalStringBytes) :
    takeString limits total true (.string text) = some (text, total + text.length) := by
  have filled : text.isEmpty = false := List.isEmpty_eq_false_iff.mpr good.1
  have short := good.2
  simp only [takeString, filled, Bool.and_false, Bool.false_or, most.strings, most.total,
    Bool.or_eq_true, decide_eq_true_eq]
  rw [if_neg (by omega)]

theorem takeStrings_encode (most : limits.Most) (good : ∀ text ∈ texts, GoodString text)
    (fits : total + stringBytes texts ≤ hardMaximumTotalStringBytes) :
    takeStrings limits total (texts.map .string) = some (texts, total + stringBytes texts) := by
  induction texts generalizing total with
  | nil => rfl
  | cons text rest ih =>
    have sum : stringBytes (text :: rest) = text.length + stringBytes rest := by
      rw [stringBytes, List.map_cons, List.sum_cons]
      rfl
    rw [sum] at fits
    have first := takeString_encode most (good text List.mem_cons_self)
      (by omega : total + text.length ≤ _)
    have later := ih (fun other member => good other (List.mem_cons_of_mem text member))
      (by omega : total + text.length + stringBytes rest ≤ _)
    rw [List.map_cons, takeStrings, first]
    simp only [Option.bind_eq_bind, Option.bind_some, later, sum, Nat.add_assoc]
    rfl

theorem parseTaskList_encode (most : limits.Most) (short : texts.length ≤ hardMaximumItemsPerEvent)
    (good : ∀ text ∈ texts, GoodString text)
    (fits : total + stringBytes texts ≤ hardMaximumTotalStringBytes) :
    parseTaskList limits total (.array (texts.map .string)) =
      some (texts, total + stringBytes texts) := by
  unfold parseTaskList
  simp only [List.length_map, most.items]
  rw [if_neg (by omega), takeStrings_encode most good fits]

end Strings

theorem SchedulerEvent.bytes_eq (event : SchedulerEvent) : event.bytes = event.eventName.length +
    event.functionName.length + stringBytes event.preTasks + stringBytes event.postTasks := by
  simp only [SchedulerEvent.bytes, SchedulerEvent.strings, stringBytes, List.map_cons,
    List.map_append, List.sum_cons, List.sum_append]
  omega

/-- What the bounds of an event say, number by number. -/
theorem inBounds_iff {event : SchedulerEvent} : event.inBounds = true ↔
    (event.eventName ≠ [] ∧ event.functionName ≠ [] ∧
      event.eventName.length ≤ hardMaximumStringBytes ∧
      event.functionName.length ≤ hardMaximumStringBytes) ∧
    (-maximumIntervalSeconds ≤ event.intervalSeconds ∧
      event.intervalSeconds ≤ maximumIntervalSeconds) ∧
    (0 ≤ event.nextTick ∧ event.nextTick ≤ maximumUnixSeconds) ∧
    event.dailyResets.length ≤ hardMaximumItemsPerEvent ∧
    event.disabledTimeRanges.length ≤ hardMaximumItemsPerEvent ∧
    event.preTasks.length ≤ hardMaximumItemsPerEvent ∧
    event.postTasks.length ≤ hardMaximumItemsPerEvent := by
  simp only [SchedulerEvent.inBounds, Bool.not_eq_true', Bool.or_eq_false_iff,
    decide_eq_false_iff_not, List.isEmpty_eq_false_iff, ne_eq, gt_iff_lt, not_lt]
  tauto

theorem Int32.fits (value : Int32) :
    -2147483648 ≤ value.toInt ∧ value.toInt ≤ 2147483647 := by
  have least := value.minValue_le_toInt
  have most := value.toInt_le
  exact ⟨least, most⟩

/-- The parser takes back every sound event, as far as the strings still fit. -/
theorem parseEvent_encode {limits : ParseLimits} {event : SchedulerEvent} {total : Nat}
    (most : limits.Most) (sound : event.Sound)
    (fits : total + event.bytes ≤ hardMaximumTotalStringBytes) :
    parseEvent limits total (encodeEvent event) = some (event, total + event.bytes) := by
  obtain ⟨⟨named, functional, shortName, shortFunction⟩, ⟨iLow, iHigh⟩, ⟨tLow, tHigh⟩, resets,
    ranges, pre, post⟩ := inBounds_iff.mp sound.bounds
  obtain ⟨enabled, priority, interval, nextTick, eventName, functionName, dailyReset, disabled,
    preTask, postTask⟩ := encodeEvent_members event
  have bytes := event.bytes_eq
  have timesValid := sound.times
  unfold SchedulerEvent.timesValid at timesValid
  rw [Bool.and_eq_true, List.all_eq_true, List.all_eq_true] at timesValid
  have goodPre (text : Text) (member : text ∈ event.preTasks) : GoodString text :=
    sound.strings text (by simp [SchedulerEvent.strings, member])
  have goodPost (text : Text) (member : text ∈ event.postTasks) : GoodString text :=
    sound.strings text (by simp [SchedulerEvent.strings, member])
  have p := checkedInteger_encode (Int32.fits event.priority).1 (Int32.fits event.priority).2
    (by decide)
  have i := checkedInteger_encode iLow iHigh (by decide)
  have t := checkedInteger_encode tLow tHigh (by decide)
  have name := takeString_encode most ⟨named, shortName⟩
    (by omega : total + event.eventName.length ≤ _)
  have function := takeString_encode most ⟨functional, shortFunction⟩
    (by omega : total + event.eventName.length + event.functionName.length ≤ _)
  have rs := parseList_map limits (resets.trans (Nat.le_of_eq most.items.symm))
    (fun time member => parseTime_encode (timesValid.1 time member))
  have ds := parseList_map limits (ranges.trans (Nat.le_of_eq most.items.symm))
    (fun range member => parseRange_encode (timesValid.2 range member))
  have prior := parseTaskList_encode most pre goodPre
    (by omega : total + event.eventName.length + event.functionName.length +
      stringBytes event.preTasks ≤ _)
  have posterior := parseTaskList_encode most post goodPost
    (by omega : total + event.eventName.length + event.functionName.length +
      stringBytes event.preTasks + stringBytes event.postTasks ≤ _)
  have sum : total + event.eventName.length + event.functionName.length +
      stringBytes event.preTasks + stringBytes event.postTasks = total + event.bytes := by omega
  unfold parseEvent
  simp only [encodeEvent_shape, enabled, priority, interval, nextTick, eventName, functionName,
    dailyReset, disabled, preTask, postTask, p, i, t, name, function, parseTimeList,
    parseDisabledRanges, rs, ds, prior, posterior, Bool.not_true, Bool.false_eq_true, if_false,
    Json.asBoolean, Option.bind_eq_bind, Option.bind_some, Int32.ofInt_toInt, sum]
  rfl

theorem parseEvents_encode {limits : ParseLimits} {events : List SchedulerEvent} {total : Nat}
    (most : limits.Most) (sound : ∀ event ∈ events, event.Sound)
    (fits : total + eventsBytes events ≤ hardMaximumTotalStringBytes) :
    parseEvents limits total (events.map encodeEvent) = some events := by
  induction events generalizing total with
  | nil => rfl
  | cons event rest ih =>
    have sum : eventsBytes (event :: rest) = event.bytes + eventsBytes rest := by
      rw [eventsBytes, List.map_cons, List.sum_cons]
      rfl
    rw [sum] at fits
    have first := parseEvent_encode most (sound event List.mem_cons_self)
      (by omega : total + event.bytes ≤ _)
    have later := ih (fun other member => sound other (List.mem_cons_of_mem event member))
      (by omega : total + event.bytes + eventsBytes rest ≤ _)
    rw [List.map_cons, parseEvents, first]
    simp only [Option.bind_eq_bind, Option.bind_some, later]
    rfl

/-- The parser takes back every valid document. -/
theorem parseRoot_encode {limits : ParseLimits} {document : SchedulerDocument} (most : limits.Most)
    (all : limits.maximumEvents = hardMaximumEvents) (valid : validDocument document = true) :
    parseRoot limits (encodeDocument document) = .ok document := by
  obtain ⟨few, sound, bytes⟩ := validDocument_iff.mp valid
  have parsed := parseEvents_encode most sound ((Nat.zero_add _).trans_le bytes)
  simp only [parseRoot, encodeDocument, List.length_map, all, parsed]
  rw [if_neg (by omega)]

/-! What the parser takes. -/

section Taken

variable {limits : ParseLimits} {total final : Nat} {value : Json} {items : List Json}

/-- The limits never go beyond those a document is checked with. -/
structure ParseLimits.Bounded (limits : ParseLimits) : Prop where
  strings : limits.maximumStringBytes ≤ hardMaximumStringBytes
  total : limits.maximumTotalStringBytes ≤ hardMaximumTotalStringBytes
  items : limits.maximumItemsPerEvent ≤ hardMaximumItemsPerEvent

theorem takeString_taken {text : Text} (bounded : limits.Bounded)
    (within : total ≤ limits.maximumTotalStringBytes)
    (taken : takeString limits total true value = some (text, final)) :
    value = .string text ∧ GoodString text ∧ final = total + text.length ∧
      final ≤ limits.maximumTotalStringBytes := by
  have short := bounded.strings
  cases value with
  | string stored =>
    simp only [takeString, Bool.true_and] at taken
    split at taken
    · cases taken
    rename_i good
    simp only [Bool.or_eq_true, decide_eq_true_eq, not_or, List.isEmpty_iff] at good
    cases taken
    exact ⟨rfl, ⟨good.1.1, by omega⟩, rfl, by omega⟩
  | _ => cases taken

theorem takeStrings_taken {texts : List Text} (bounded : limits.Bounded)
    (within : total ≤ limits.maximumTotalStringBytes)
    (taken : takeStrings limits total items = some (texts, final)) :
    items = texts.map .string ∧ (∀ text ∈ texts, GoodString text) ∧
      final = total + stringBytes texts ∧ final ≤ limits.maximumTotalStringBytes := by
  induction items generalizing total texts with
  | nil =>
    cases taken
    exact ⟨rfl, nofun, rfl, within⟩
  | cons item rest ih =>
    simp only [takeStrings, Option.bind_eq_bind, Option.bind_eq_some_iff, Prod.exists] at taken
    obtain ⟨text, next, first, more, last, later, same⟩ := taken
    cases same
    obtain ⟨rfl, good, rfl, fits⟩ := takeString_taken bounded within first
    obtain ⟨rfl, others, rfl, all⟩ := ih fits later
    refine ⟨rfl, List.forall_mem_cons.mpr ⟨good, others⟩, ?_, all⟩
    rw [stringBytes, stringBytes, List.map_cons, List.sum_cons, Nat.add_assoc]

theorem parseTaskList_taken {texts : List Text} (bounded : limits.Bounded)
    (within : total ≤ limits.maximumTotalStringBytes)
    (taken : parseTaskList limits total value = some (texts, final)) :
    value = .array (texts.map .string) ∧ texts.length ≤ hardMaximumItemsPerEvent ∧
      (∀ text ∈ texts, GoodString text) ∧ final = total + stringBytes texts ∧
      final ≤ limits.maximumTotalStringBytes := by
  have few := bounded.items
  cases value with
  | array items =>
    simp only [parseTaskList] at taken
    split at taken
    · cases taken
    rename_i short
    obtain ⟨rfl, good, same, fits⟩ := takeStrings_taken bounded within taken
    rw [List.length_map] at short
    exact ⟨rfl, by omega, good, same, fits⟩
  | _ => cases taken

theorem jsonInteger_taken {number : Int} (taken : jsonInteger value = some number) :
    value.nodes = 1 := by
  cases value with
  | integer _ => rfl
  | _ => cases taken

theorem byte_small {number : Int} {most : Nat} (below : number ≤ most)
    (small : most < 256) : (UInt8.ofNat number.toNat).toNat ≤ most := by
  rw [UInt8.toNat_ofNat']
  omega

theorem parseTime_taken {time : TimeOfDay} (taken : parseTimeOfDay value = some time) :
    time.valid = true ∧ 4 ≤ value.nodes := by
  unfold parseTimeOfDay at taken
  split at taken
  · rename_i first second third
    split at taken
    · rename_i hour minute seconds h m s
      split at taken
      · cases taken
      rename_i range
      simp only [not_or, Int.not_lt] at range
      cases taken
      have hSmall : (UInt8.ofNat hour.toNat).toNat ≤ 23 := byte_small (by omega) (by decide)
      have mSmall : (UInt8.ofNat minute.toNat).toNat ≤ 59 := byte_small (by omega) (by decide)
      have sSmall : (UInt8.ofNat seconds.toNat).toNat ≤ 59 := byte_small (by omega) (by decide)
      constructor
      · simp only [TimeOfDay.valid, Bool.not_eq_true', Bool.or_eq_false_iff,
          decide_eq_false_iff_not, gt_iff_lt, UInt8.lt_iff_toNat_lt]
        exact ⟨⟨Nat.not_lt.mpr hSmall, Nat.not_lt.mpr mSmall⟩, Nat.not_lt.mpr sSmall⟩
      · simp only [Json.nodes, itemNodes, jsonInteger_taken h, jsonInteger_taken m,
          jsonInteger_taken s]
        omega
    · cases taken
  · cases taken

theorem parseRange_taken {range : DisabledTimeRange}
    (taken : parseDisabledRange value = some range) :
    (range.start.valid && range.finish.valid) = true ∧ 9 ≤ value.nodes := by
  unfold parseDisabledRange at taken
  split at taken
  · split at taken
    · rename_i start finish first last
      cases taken
      obtain ⟨early, one⟩ := parseTime_taken first
      obtain ⟨late, two⟩ := parseTime_taken last
      refine ⟨(Bool.and_eq_true _ _).mpr ⟨early, late⟩, ?_⟩
      simp only [Json.nodes, itemNodes]
      omega
    · cases taken
  · cases taken

theorem parseList_taken {α : Type} {parse : Json → Option α} {good : α → Prop} {size : Nat}
    (bounded : limits.Bounded)
    (each : ∀ value a, parse value = some a → good a ∧ size ≤ value.nodes) {l : List α}
    (taken : parseList limits parse value = some l) :
    l.length ≤ hardMaximumItemsPerEvent ∧ (∀ a ∈ l, good a) ∧
      1 + size * l.length ≤ value.nodes := by
  have few := bounded.items
  cases value with
  | array items =>
    simp only [parseList] at taken
    split at taken
    · cases taken
    rename_i short
    have listed : l.length = items.length ∧ (∀ a ∈ l, good a) ∧
        size * l.length ≤ itemNodes items := by
      clear short
      induction items generalizing l with
      | nil =>
        cases taken
        exact ⟨rfl, nofun, Nat.le_refl _⟩
      | cons item rest ih =>
        simp only [List.mapM_cons, Option.bind_eq_bind, Option.bind_eq_some_iff] at taken
        obtain ⟨a, first, more, later, same⟩ := taken
        cases same
        obtain ⟨length, others, sum⟩ := ih later
        obtain ⟨here, nodes⟩ := each item a first
        refine ⟨congrArg (· + 1) length, List.forall_mem_cons.mpr ⟨here, others⟩, ?_⟩
        rw [List.length_cons, Nat.mul_succ, itemNodes]
        omega
    obtain ⟨length, all, sum⟩ := listed
    refine ⟨by omega, all, ?_⟩
    rw [Json.nodes]
    omega
  | _ => cases taken

end Taken

theorem checkedInteger_taken {least most number : Int} {value : Json}
    (taken : checkedInteger least most value = some number) :
    least ≤ number ∧ number ≤ most := by
  unfold checkedInteger at taken
  split at taken
  · cases taken
  split at taken
  · cases taken
  · cases taken
    omega

theorem memberNodes_eq (members : List (Text × Json)) :
    memberNodes members = members.length + (members.map (fun member => member.2.nodes)).sum := by
  induction members with
  | nil => rfl
  | cons member rest ih =>
    rw [memberNodes, ih, List.map_cons, List.sum_cons, List.length_cons]
    omega

/-- With the right names, as many members as names, and no name twice, an object holds what its
members hold. -/
theorem shape_nodes {value : Json} (shape : exactEventShape value = true) :
    value.nodes = 11 + (requiredKeys.map (fun key => (value.member key).nodes)).sum := by
  cases value with
  | object members =>
    simp only [exactEventShape, Bool.and_eq_true, decide_eq_true_eq, List.all_eq_true,
      List.any_eq_true] at shape
    obtain ⟨size, every⟩ := shape
    have within : requiredKeys.map ascii ⊆ members.map Prod.fst := by
      intro name listed
      obtain ⟨key, required, rfl⟩ := List.mem_map.mp listed
      obtain ⟨member, there, same⟩ := every key required
      exact List.mem_map.mpr ⟨member, there, same⟩
    have perm : (requiredKeys.map ascii).Perm (members.map Prod.fst) :=
      (List.subperm_of_subset requiredKeys_nodup within).perm_of_length_le (by
        rw [List.length_map, List.length_map, size])
    have distinct := perm.nodup_iff.mp requiredKeys_nodup
    let look (name : Text) : Nat :=
      (((members.find? (·.1 = name)).map Prod.snd).getD .null).nodes
    have found : members.map (fun member => look member.1) =
        members.map (fun member => member.2.nodes) := by
      refine List.map_congr_left (fun member there => ?_)
      simp only [look, find?_of_mem distinct there, Option.map_some, Option.getD_some]
    have sums : (requiredKeys.map (fun key => look (ascii key))).sum =
        (members.map (fun member => look member.1)).sum := by
      have whole := (perm.map look).sum_nat
      rwa [List.map_map, List.map_map] at whole
    change 1 + memberNodes members = 11 + (requiredKeys.map (fun key => look (ascii key))).sum
    rw [sums, found, memberNodes_eq, size]
    change 1 + (10 + _) = _
    omega
  | _ => cases shape

/-- What the shape check counts for an event as it is written. -/
def SchedulerEvent.nodes (event : SchedulerEvent) : Nat :=
  21 + 4 * event.dailyResets.length + 9 * event.disabledTimeRanges.length +
    event.preTasks.length + event.postTasks.length

theorem member_utf8 {value : Json} (key : String) (clean : value.utf8 = true) :
    (value.member key).utf8 = true := by
  cases value with
  | object members =>
    have each : ∀ member ∈ members, member.2.utf8 = true := by
      rw [Json.utf8] at clean
      induction members with
      | nil => exact nofun
      | cons member rest ih =>
        simp only [membersUtf8, Bool.and_eq_true] at clean
        exact List.forall_mem_cons.mpr ⟨clean.1.2, ih clean.2⟩
    unfold Json.member
    dsimp only
    cases found : members.find? (·.1 = ascii key) with
    | none => rfl
    | some member => exact each member (List.mem_of_find?_eq_some found)
  | _ => rfl

theorem itemsUtf8_iff {items : List Json} :
    itemsUtf8 items = true ↔ ∀ item ∈ items, item.utf8 = true := by
  induction items with
  | nil => exact ⟨fun _ => nofun, fun _ => rfl⟩
  | cons item rest ih => rw [itemsUtf8, Bool.and_eq_true, ih, List.forall_mem_cons]

theorem array_utf8 {α : Type} {encode : α → Json} {l : List α} :
    (Json.array (l.map encode)).utf8 = true ↔ ∀ a ∈ l, (encode a).utf8 = true := by
  rw [Json.utf8, itemsUtf8_iff, List.forall_mem_map]

theorem stringNodes (texts : List Text) :
    (Json.array (texts.map .string)).nodes = 1 + texts.length := by
  rw [Json.nodes]
  congr 1
  induction texts with
  | nil => rfl
  | cons text rest ih =>
    rw [List.map_cons, itemNodes, ih, List.length_cons]
    exact Nat.add_comm _ _

/-- An event that the parser takes: sound, its bytes counted, no larger than what it was read
from, and in the same octets. -/
theorem parseEvent_taken {limits : ParseLimits} {total final : Nat} {value : Json}
    {event : SchedulerEvent} (bounded : limits.Bounded)
    (within : total ≤ limits.maximumTotalStringBytes)
    (taken : parseEvent limits total value = some (event, final)) :
    event.Sound ∧ final = total + event.bytes ∧ final ≤ limits.maximumTotalStringBytes ∧
      event.nodes ≤ value.nodes ∧
      (value.utf8 = true → ∀ text ∈ event.strings, isValidUtf8 text = true) := by
  unfold parseEvent at taken
  split at taken
  · cases taken
  rename_i shape
  simp only [Option.bind_eq_bind, Option.bind_eq_some_iff, Prod.exists] at taken
  obtain ⟨enabled, -, priority, -, interval, i, nextTick, t, eventName, one, e, functionName, two,
    f, resets, r, ranges, d, preTasks, three, pre, postTasks, four, post, same⟩ := taken
  cases same
  have exactly : exactEventShape value = true := by
    rwa [Bool.not_eq_true', Bool.not_eq_false] at shape
  obtain ⟨eventText, eventGood, rfl, fits⟩ := takeString_taken bounded within e
  obtain ⟨functionText, functionGood, rfl, fits⟩ := takeString_taken bounded fits f
  obtain ⟨fewResets, resetsValid, resetNodes⟩ :=
    parseList_taken bounded (fun _ _ => parseTime_taken) r
  obtain ⟨fewRanges, rangesValid, rangeNodes⟩ :=
    parseList_taken bounded (fun _ _ => parseRange_taken) d
  obtain ⟨preText, fewPre, preGood, rfl, fits⟩ := parseTaskList_taken bounded fits pre
  obtain ⟨postText, fewPost, postGood, rfl, fits⟩ := parseTaskList_taken bounded fits post
  have tick := checkedInteger_taken t
  have seconds := checkedInteger_taken i
  refine ⟨⟨?_, ?_, ?_⟩, ?_, fits, ?_, ?_⟩
  · exact inBounds_iff.mpr ⟨⟨eventGood.1, functionGood.1, eventGood.2, functionGood.2⟩, seconds,
      tick, fewResets, fewRanges, fewPre, fewPost⟩
  · intro text member
    simp only [SchedulerEvent.strings, List.mem_cons, List.mem_append] at member
    rcases member with rfl | rfl | early | late
    · exact eventGood
    · exact functionGood
    · exact preGood text early
    · exact postGood text late
  · exact (Bool.and_eq_true _ _).mpr ⟨List.all_eq_true.mpr resetsValid,
      List.all_eq_true.mpr rangesValid⟩
  · rw [SchedulerEvent.bytes_eq]
    dsimp only
    omega
  · have sum := shape_nodes exactly
    have preNodes := stringNodes preTasks
    have postNodes := stringNodes postTasks
    rw [← preText] at preNodes
    rw [← postText] at postNodes
    have enabledNodes := (value.member "enabled").nodes_pos
    have priorityNodes := (value.member "priority").nodes_pos
    have intervalNodes := (value.member "interval").nodes_pos
    have tickNodes := (value.member "next_tick").nodes_pos
    have nameNodes := (value.member "event_name").nodes_pos
    have functionNodes := (value.member "func_name").nodes_pos
    simp only [requiredKeys, List.map_cons, List.map_nil, List.sum_cons, List.sum_nil] at sum
    simp only [SchedulerEvent.nodes]
    omega
  · intro clean text member
    have at_key (key : String) := member_utf8 key clean
    simp only [SchedulerEvent.strings, List.mem_cons, List.mem_append] at member
    rcases member with rfl | rfl | early | late
    · exact (congrArg Json.utf8 eventText).symm.trans (at_key "event_name")
    · exact (congrArg Json.utf8 functionText).symm.trans (at_key "func_name")
    · have tasks := at_key "pre_task"
      rw [preText] at tasks
      exact array_utf8.mp tasks text early
    · have tasks := at_key "post_task"
      rw [postText] at tasks
      exact array_utf8.mp tasks text late

def eventsNodes (events : List SchedulerEvent) : Nat := (events.map SchedulerEvent.nodes).sum

theorem parseEvents_taken {limits : ParseLimits} {total : Nat} {items : List Json}
    {events : List SchedulerEvent} (bounded : limits.Bounded)
    (within : total ≤ limits.maximumTotalStringBytes)
    (taken : parseEvents limits total items = some events) :
    events.length = items.length ∧ (∀ event ∈ events, event.Sound) ∧
      total + eventsBytes events ≤ limits.maximumTotalStringBytes ∧
      eventsNodes events ≤ itemNodes items ∧ (itemsUtf8 items = true →
        ∀ event ∈ events, ∀ text ∈ event.strings, isValidUtf8 text = true) := by
  induction items generalizing total events with
  | nil =>
    cases taken
    exact ⟨rfl, nofun, within, Nat.le_refl _, fun _ => nofun⟩
  | cons item rest ih =>
    simp only [parseEvents, Option.bind_eq_bind, Option.bind_eq_some_iff, Prod.exists] at taken
    obtain ⟨event, next, first, others, later, same⟩ := taken
    cases same
    obtain ⟨sound, rfl, fits, nodes, clean⟩ := parseEvent_taken bounded within first
    obtain ⟨length, allSound, allFit, allNodes, allClean⟩ := ih fits later
    have bytes : eventsBytes (event :: others) = event.bytes + eventsBytes others := rfl
    have sizes : eventsNodes (event :: others) = event.nodes + eventsNodes others := rfl
    refine ⟨congrArg (· + 1) length, List.forall_mem_cons.mpr ⟨sound, allSound⟩, by omega, ?_, ?_⟩
    · rw [sizes, itemNodes]
      omega
    · intro utf8
      rw [itemsUtf8, Bool.and_eq_true] at utf8
      exact List.forall_mem_cons.mpr ⟨clean utf8.1, allClean utf8.2⟩

end Baas.Scheduler
