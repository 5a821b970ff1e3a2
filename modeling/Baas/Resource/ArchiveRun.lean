import Baas.Lib.PathText
import Baas.Lib.Volume
import Baas.Resource.Archive
import Baas.Scheduler.PolicyJsonShape

/-! Which archive paths are taken, and the directory tree they make. -/
namespace Baas.ConfigArchive

open JsonText (ascii)

/-- A path of the archive, and whether it names a directory. -/
abbrev Item := Text × Bool

/-! What a path means. -/

def normal (item : Item) : Text :=
  if item.2 then (slashed item.1).rdropWhile (· = 47) else slashed item.1

def components (item : Item) : List Text := (normal item).splitOn 47

/-- Their spelling without the difference of ASCII case. -/
def folded (item : Item) : List Text := (components item).map (·.map lower)

def devices : List Text :=
  ["con", "prn", "aux", "nul", "com1", "com2", "com3", "com4", "com5", "com6", "com7", "com8",
    "com9", "lpt1", "lpt2", "lpt3", "lpt4", "lpt5", "lpt6", "lpt7", "lpt8", "lpt9"].map ascii

/-- The name of a device, whatever its extension. -/
def Reserved (component : Text) : Prop := (component.takeWhile (· ≠ 46)).map lower ∈ devices

structure Safe (component : Text) : Prop where
  nonempty : component ≠ []
  dot : component ≠ [46]
  dots : component ≠ [46, 46]
  drive : 58 ∉ component
  closed : component.getLast? ≠ some 46
  tight : component.getLast? ≠ some 32
  free : ¬ Reserved component

structure Acceptable (limits : Limits) (item : Item) : Prop where
  nonempty : item.1 ≠ []
  short : item.1.length ≤ limits.maxPathBytes
  octets : Utf8.Octets item.1
  zero : 0 ∉ item.1
  relative : (slashed item.1).head? ≠ some 47
  safe : ∀ component ∈ components item, Safe component
  plain : ∀ component ∈ components item, ∀ byte ∈ component, forbidden byte = false
  depth : (components item).length ≤ limits.maxDepth

/-- Two paths are not one, and a file is no parent of the other. -/
def Compatible (first second : Item) : Prop :=
  folded first ≠ folded second ∧ (first.2 = false → ¬ folded first <+: folded second) ∧
    (second.2 = false → ¬ folded second <+: folded first)

theorem Compatible.symm {first second : Item} (compatible : Compatible first second) :
    Compatible second first :=
  ⟨compatible.1.symm, compatible.2.2, compatible.2.1⟩

/-! Bytes. -/

theorem scalar_eq (code least : Nat) :
    scalar code least = Scheduler.codePointAllowed least code := by
  rw [Bool.eq_iff_iff, Scheduler.codePointAllowed_iff]
  simp only [scalar, Bool.and_eq_true, decide_eq_true_eq, Bool.not_eq_true', Bool.and_eq_false_iff,
    decide_eq_false_iff_not]
  omega

/-- The decoder of the scheduler's policies takes the same texts. -/
theorem validUtf8_eq (text : Text) : validUtf8 text = Scheduler.isValidUtf8 text := by
  induction size : text.length using Nat.strongRecOn generalizing text with
  | _ n ih =>
    subst size
    match text with
    | [] => rfl
    | lead :: rest =>
      have later (rest' : Text) (shorter : rest'.length ≤ rest.length) :
          validUtf8 rest' = Scheduler.isValidUtf8 rest' :=
        ih rest'.length (Nat.lt_succ_of_le shorter) rest' rfl
      rw [validUtf8.eq_def, Scheduler.isValidUtf8.eq_def]
      simp only [scalar_eq, later rest le_rfl, Bool.and_eq_true, decide_eq_true_eq]
      obtain _ | ⟨a, rest⟩ := rest
      · rfl
      simp only [later rest (by simp)]
      obtain _ | ⟨b, rest⟩ := rest
      · rfl
      simp only [later rest (by simp; omega)]
      obtain _ | ⟨c, rest⟩ := rest
      · rfl
      simp only [later rest (by simp; omega)]
      rfl

theorem validUtf8_iff (text : Text) : validUtf8 text = true ↔ Utf8.Octets text := by
  rw [validUtf8_eq]
  exact Scheduler.isValidUtf8_iff

/-- What folding a byte keeps. -/
theorem folding (byte : UInt8) : lower (upper byte) = lower byte ∧ upper (lower byte) = upper byte ∧
    (0x7F < lower byte ↔ 0x7F < byte) ∧ (lower byte = 47 ↔ byte = 47) ∧
    (49 ≤ byte ∧ byte ≤ 57 → lower byte = byte ∧
      byte ∈ [49, 50, 51, 52, 53, 54, 55, 56, 57]) :=
  of_decide_eq_true (JsonText.byte_forall (p := fun byte => decide (
    lower (upper byte) = lower byte ∧ upper (lower byte) = upper byte ∧
      (0x7F < lower byte ↔ 0x7F < byte) ∧ (lower byte = 47 ↔ byte = 47) ∧
      (49 ≤ byte ∧ byte ≤ 57 → lower byte = byte ∧
        byte ∈ [49, 50, 51, 52, 53, 54, 55, 56, 57]))) (by decide +kernel) byte)

/-- The names of the devices in capitals. -/
def Device (value : Text) : Prop :=
  (value = ascii "CON" ∨ value = ascii "PRN" ∨ value = ascii "AUX" ∨ value = ascii "NUL") ∨
    value.length = 4 ∧ (ascii "COM" <+: value ∨ ascii "LPT" <+: value) ∧
      ∃ digit, value[3]? = some digit ∧ 49 ≤ digit ∧ digit ≤ 57

theorem devices_small : ∀ device ∈ devices, device.length ≤ 8 ∧
    (device.all fun byte => !(0x7F < byte)) = true ∧ Device (device.map upper) := by
  simp only [devices, Device, JsonText.ascii_eq, List.map_cons, List.map_nil]
  decide

theorem devices_numbered : ∀ digit ∈ [49, 50, 51, 52, 53, 54, 55, 56, 57],
    [99, 111, 109, digit] ∈ devices ∧ [108, 112, 116, digit] ∈ devices := by
  intro digit mem
  simp only [List.mem_cons, List.not_mem_nil, or_false] at mem
  simp only [devices, JsonText.ascii_eq, List.map_cons, List.map_nil]
  obtain rfl | rfl | rfl | rfl | rfl | rfl | rfl | rfl | rfl := mem <;> decide

theorem device_lower {value : Text} (device : Device value) : value.map lower ∈ devices := by
  rcases device with named | ⟨four, begins, digit, last, range⟩
  · simp only [devices, JsonText.ascii_eq, List.map_cons, List.map_nil] at named ⊢
    rcases named with rfl | rfl | rfl | rfl <;> decide
  · obtain ⟨a, b, c, d, rfl⟩ := List.length_eq_four.mp four
    cases last
    obtain ⟨_, _, _, _, numbered⟩ := folding digit
    obtain ⟨same, member⟩ := numbered range
    obtain ⟨com, lpt⟩ := devices_numbered digit member
    have stems : ascii "COM" = [67, 79, 77] ∧ ascii "LPT" = [76, 80, 84] := by
      simp only [JsonText.ascii_eq]
      decide
    rw [stems.1, stems.2] at begins
    simp only [List.cons_prefix_cons] at begins
    rcases begins with ⟨rfl, rfl, rfl, _⟩ | ⟨rfl, rfl, rfl, _⟩
    · rw [List.map_cons, List.map_cons, List.map_cons, List.map_singleton, same]
      exact com
    · rw [List.map_cons, List.map_cons, List.map_cons, List.map_singleton, same]
      exact lpt

theorem reservedComponent_iff (component : Text) :
    reservedComponent component = true ↔ Reserved component := by
  have up (base : Text) : (base.map lower).map upper = base.map upper := by
    rw [List.map_map]
    exact List.map_congr_left (fun byte _ => (folding byte).2.1)
  have down (base : Text) : (base.map upper).map lower = base.map lower := by
    rw [List.map_map]
    exact List.map_congr_left (fun byte _ => (folding byte).1)
  have device (value : Text) : (if value = ascii "CON" ∨ value = ascii "PRN" ∨
      value = ascii "AUX" ∨ value = ascii "NUL" then true
    else value.length = 4 && ((ascii "COM").isPrefixOf value || (ascii "LPT").isPrefixOf value) &&
      value[3]?.any (fun digit => 49 ≤ digit && digit ≤ 57)) = true ↔ Device value := by
    unfold Device
    split
    · next named => simp only [named, true_or]
    · next other => simp [other, Option.any_eq_true, and_assoc]
  unfold reservedComponent Reserved
  generalize component.takeWhile (· ≠ 46) = base
  constructor
  · intro reserved
    simp only [] at reserved
    split at reserved
    · cases reserved
    split at reserved
    · cases reserved
    rw [← down]
    exact device_lower ((device _).mp reserved)
  · intro reserved
    obtain ⟨short, ascii, named⟩ := devices_small _ reserved
    rw [List.length_map] at short
    rw [up] at named
    have low : ¬ base.any (fun byte => 0x7F < byte) = true := by
      rw [List.any_eq_true]
      rintro ⟨byte, member, high⟩
      have there := List.all_eq_true.mp ascii (lower byte) (List.mem_map_of_mem member)
      rw [Bool.not_eq_true', decide_eq_false_iff_not] at there
      exact there ((folding byte).2.2.1.mpr (of_decide_eq_true high))
    rw [if_neg (Nat.not_lt.mpr short), if_neg low]
    exact (device _).mpr named

/-! One path. -/

theorem unsafeComponent_iff (component : Text) :
    unsafeComponent component = false ↔ Safe component := by
  constructor
  · intro plain
    simp only [unsafeComponent, Bool.or_eq_false_iff, decide_eq_false_iff_not,
      List.contains_eq_mem] at plain
    obtain ⟨⟨⟨⟨⟨⟨nonempty, dot⟩, dots⟩, drive⟩, closed⟩, tight⟩, free⟩ := plain
    exact ⟨nonempty, dot, dots, drive, closed, tight, fun reserved => by
      rw [(reservedComponent_iff component).mpr reserved] at free
      cases free⟩
  · intro safe
    have free : reservedComponent component = false := by
      rw [← Bool.not_eq_true, reservedComponent_iff]
      exact safe.free
    simp [unsafeComponent, safe.nonempty, safe.dot, safe.dots, safe.drive, safe.closed,
      safe.tight, free]

theorem checkComponents_iff {limits : Limits} {depth : Nat} {names : List Text}
    (room : depth ≤ limits.maxDepth) :
    checkComponents limits depth names = .ok () ↔ (∀ component ∈ names, Safe component) ∧
      (∀ component ∈ names, ∀ byte ∈ component, forbidden byte = false) ∧
        depth + names.length ≤ limits.maxDepth := by
  induction names generalizing depth with
  | nil => simp [checkComponents, room]
  | cons component rest ih =>
    unfold checkComponents
    rw [List.forall_mem_cons, List.forall_mem_cons, List.length_cons]
    split
    · next bad => simp [← unsafeComponent_iff, bad]
    next safe =>
    rw [Bool.not_eq_true, unsafeComponent_iff] at safe
    split
    · next bad =>
      obtain ⟨byte, member, refused⟩ := List.any_eq_true.mp bad
      refine ⟨fun no => (by cases no), fun ⟨_, ⟨plain, _⟩, _⟩ => ?_⟩
      rw [plain byte member] at refused
      cases refused
    next plain =>
    have plain : ∀ byte ∈ component, forbidden byte = false := by
      simpa [List.any_eq_true] using plain
    split
    · next deep => exact ⟨fun no => (by cases no), fun ⟨_, _, fits⟩ => by omega⟩
    · next shallow =>
      rw [ih (Nat.not_lt.mp shallow), Nat.add_assoc, Nat.add_comm 1]
      exact ⟨fun ⟨a, b, c⟩ => ⟨⟨safe, a⟩, ⟨plain, b⟩, c⟩, fun ⟨⟨_, a⟩, ⟨_, b⟩, c⟩ => ⟨a, b, c⟩⟩

/-- After a last separator comes an empty name. -/
theorem Acceptable.unended {limits : Limits} {item : Item} (acceptable : Acceptable limits item)
    (file : item.2 = false) : (slashed item.1).getLast? ≠ some 47 := by
  intro last
  obtain ⟨text, whole⟩ := List.getLast?_eq_some_iff.mp last
  have there : [] ∈ components item := by
    rw [components, normal, if_neg (by simp [file]), whole, List.splitOn_append_cons_self]
    exact List.mem_append_right _ (List.mem_singleton_self _)
  exact (acceptable.safe [] there).nonempty rfl

theorem Acceptable.filled {limits : Limits} {item : Item} (acceptable : Acceptable limits item) :
    normal item ≠ [] := by
  intro empty
  have there : [] ∈ components item := by
    rw [components, empty]
    exact List.mem_singleton_self _
  exact (acceptable.safe [] there).nonempty rfl

theorem normalizePath_spelled {item : Item} {limits : Limits}
    (outer : ¬ (item.1 = [] ∨ limits.maxPathBytes < item.1.length ∨ validUtf8 item.1 = false ∨
      0 ∈ item.1))
    (rooted : ¬ (slashed item.1).head? = some 47)
    (ended : ¬ (!item.2 && decide ((slashed item.1).getLast? = some 47)) = true) :
    normalizePath item.1 item.2 limits = if normal item = [] then .error .unsafePath
      else match checkComponents limits 0 (components item) with
        | .error error => .error error
        | .ok () => .ok ⟨normal item, (normal item).map lower, item.2⟩ := by
  unfold normalizePath
  simp only [if_neg outer, if_neg rooted, if_neg ended]
  rfl

theorem normalizePath_iff {item : Item} {limits : Limits} {path : NormalizedPath} :
    normalizePath item.1 item.2 limits = .ok path ↔ Acceptable limits item ∧
      path = ⟨normal item, (normal item).map lower, item.2⟩ := by
  by_cases outer : item.1 = [] ∨ limits.maxPathBytes < item.1.length ∨
      validUtf8 item.1 = false ∨ 0 ∈ item.1
  · unfold normalizePath
    rw [if_pos outer]
    refine ⟨fun no => (by cases no), fun ⟨acceptable, _⟩ => absurd outer ?_⟩
    have valid := (validUtf8_iff item.1).mpr acceptable.octets
    simp [acceptable.nonempty, valid, acceptable.zero, acceptable.short]
  obtain ⟨nonempty, short, octets, zero⟩ : item.1 ≠ [] ∧ item.1.length ≤ limits.maxPathBytes ∧
      Utf8.Octets item.1 ∧ 0 ∉ item.1 := by
    simpa [not_or, validUtf8_iff] using outer
  by_cases rooted : (slashed item.1).head? = some 47
  · unfold normalizePath
    simp only [if_neg outer, if_pos rooted]
    exact ⟨fun no => (by cases no), fun ⟨acceptable, _⟩ => absurd rooted acceptable.relative⟩
  by_cases ended : (!item.2 && decide ((slashed item.1).getLast? = some 47)) = true
  · unfold normalizePath
    simp only [if_neg outer, if_neg rooted, if_pos ended]
    refine ⟨fun no => (by cases no), fun ⟨acceptable, _⟩ => ?_⟩
    simp only [Bool.and_eq_true, Bool.not_eq_true', decide_eq_true_eq] at ended
    exact absurd ended.2 (acceptable.unended ended.1)
  rw [normalizePath_spelled outer rooted ended]
  by_cases empty : normal item = []
  · rw [if_pos empty]
    exact ⟨fun no => (by cases no), fun ⟨acceptable, _⟩ => absurd empty acceptable.filled⟩
  rw [if_neg empty]
  have checks := @checkComponents_iff limits 0 (components item) (Nat.zero_le _)
  rw [Nat.zero_add] at checks
  cases checked : checkComponents limits 0 (components item) with
  | error error =>
    refine ⟨fun no => (by cases no), fun ⟨acceptable, _⟩ => ?_⟩
    rw [checks.mpr ⟨acceptable.safe, acceptable.plain, acceptable.depth⟩] at checked
    cases checked
  | ok =>
    obtain ⟨safe, plain, depth⟩ := checks.mp checked
    simp only [Except.ok.injEq]
    exact ⟨fun same => ⟨⟨nonempty, short, octets, zero, rooted, safe, plain, depth⟩, same.symm⟩,
      fun ⟨_, same⟩ => same.symm⟩

/-! The set of paths. -/

def keyOf (item : Item) : Text := (normal item).map lower

theorem components_ne_nil (item : Item) : components item ≠ [] := List.splitOn_ne_nil 47 _

theorem folded_eq (item : Item) : folded item = (keyOf item).splitOn 47 :=
  (PathText.split_map (fun byte => (folding byte).2.2.2.1) (normal item)).symm

theorem keyOf_inj {first second : Item} : keyOf first = keyOf second ↔
    folded first = folded second := by
  rw [folded_eq, folded_eq, PathText.split_inj]

theorem keyOf_below {first second : Item} : keyOf first ++ [47] <+: keyOf second ↔
    folded first <+: folded second ∧ folded first ≠ folded second := by
  rw [folded_eq, folded_eq]
  exact PathText.before_iff

theorem mem_parents {key text : Text} : text ∈ parents key ↔ text ++ [47] <+: key := by
  simp only [parents, List.mem_map, List.mem_filter, List.mem_range, decide_eq_true_eq]
  constructor
  · rintro ⟨i, ⟨short, slash⟩, rfl⟩
    have next : key.take i ++ [47] = key.take (i + 1) := by
      rw [List.take_add_one, slash, Option.toList_some]
    rw [next]
    exact List.take_prefix _ _
  · rintro ⟨rest, rfl⟩
    refine ⟨text.length, ⟨by simp, ?_⟩, ?_⟩
    · simp
    · simp

theorem insert_iff {paths next : PathSet} {path : NormalizedPath} :
    paths.insert path = (next, true) ↔ path.key ∉ paths.all ∧
      (∀ file ∈ paths.files, ¬ file ++ [47] <+: path.key) ∧
      (path.directory = false → ∀ existing ∈ paths.all, ¬ path.key ++ [47] <+: existing) ∧
      next = ⟨path.key :: paths.all,
        if path.directory then paths.files else path.key :: paths.files⟩ := by
  have above : (parents path.key).any (· ∈ paths.files) = true ↔
      ∃ file ∈ paths.files, file ++ [47] <+: path.key := by
    simp only [List.any_eq_true, decide_eq_true_eq, mem_parents]
    exact ⟨fun ⟨t, a, b⟩ => ⟨t, b, a⟩, fun ⟨t, a, b⟩ => ⟨t, b, a⟩⟩
  have below : (path.key :: paths.all).any ((path.key ++ [47]).isPrefixOf ·) = true ↔
      ∃ existing ∈ paths.all, path.key ++ [47] <+: existing := by
    have own : ¬ path.key ++ [47] <+: path.key := fun shorter => by
      have := shorter.length_le
      simp at this
    simp only [List.any_cons, Bool.or_eq_true, List.isPrefixOf_iff_prefix, own, false_or,
      List.any_eq_true]
  unfold PathSet.insert
  by_cases seen : path.key ∈ paths.all
  · rw [if_pos seen]
    exact ⟨fun no => (by cases no), fun ⟨fresh, _⟩ => absurd seen fresh⟩
  simp only [if_neg seen]
  by_cases taken : (parents path.key).any (· ∈ paths.files) = true
  · rw [if_pos taken]
    obtain ⟨file, member, under⟩ := above.mp taken
    exact ⟨fun no => (by cases no), fun ⟨_, free, _⟩ => absurd under (free file member)⟩
  rw [if_neg taken]
  have free : ∀ file ∈ paths.files, ¬ file ++ [47] <+: path.key :=
    fun file member under => taken (above.mpr ⟨file, member, under⟩)
  cases path.directory with
  | true =>
    simp only [if_true, Prod.mk.injEq, and_true]
    exact ⟨fun same => ⟨seen, free, fun no => (by cases no), same.symm⟩,
      fun ⟨_, _, _, same⟩ => same.symm⟩
  | false =>
    simp only [Bool.false_eq_true, if_false]
    by_cases parent : (path.key :: paths.all).any ((path.key ++ [47]).isPrefixOf ·) = true
    · rw [if_pos parent]
      obtain ⟨existing, member, under⟩ := below.mp parent
      exact ⟨fun no => (by cases no), fun ⟨_, _, leaf, _⟩ => absurd under (leaf trivial existing member)⟩
    · rw [if_neg parent]
      simp only [Prod.mk.injEq, and_true]
      exact ⟨fun same => ⟨seen, free, fun _ existing member under =>
        parent (below.mpr ⟨existing, member, under⟩), same.symm⟩, fun ⟨_, _, _, same⟩ => same.symm⟩

/-- The set holds the folded paths that came before. -/
structure Holds (paths : PathSet) (before : List Item) : Prop where
  all : ∀ key, key ∈ paths.all ↔ ∃ item ∈ before, keyOf item = key
  files : ∀ key, key ∈ paths.files ↔ ∃ item ∈ before, item.2 = false ∧ keyOf item = key

theorem Holds.empty : Holds {} [] := ⟨fun key => by simp, fun key => by simp⟩

theorem compatible_iff {first second : Item} : Compatible first second ↔
    keyOf first ≠ keyOf second ∧ (first.2 = false → ¬ keyOf first ++ [47] <+: keyOf second) ∧
      (second.2 = false → ¬ keyOf second ++ [47] <+: keyOf first) := by
  simp only [Compatible, Ne, keyOf_inj, keyOf_below]
  constructor
  · rintro ⟨other, file, file'⟩
    exact ⟨other, fun plain below => file plain below.1, fun plain below => file' plain below.1⟩
  · rintro ⟨other, file, file'⟩
    exact ⟨other, fun plain below => file plain ⟨below, other⟩,
      fun plain below => file' plain ⟨below, Ne.symm other⟩⟩

theorem Holds.insert_iff {paths next : PathSet} {before : List Item} {item : Item}
    (holds : Holds paths before) :
    paths.insert ⟨normal item, keyOf item, item.2⟩ = (next, true) ↔
      (∀ other ∈ before, Compatible other item) ∧ next = ⟨keyOf item :: paths.all,
        if item.2 then paths.files else keyOf item :: paths.files⟩ := by
  rw [ConfigArchive.insert_iff, ← and_assoc, ← and_assoc]
  refine and_congr_left (fun _ => ?_)
  simp only [holds.all, holds.files, not_exists, not_and, forall_exists_index, and_imp,
    compatible_iff]
  constructor
  · rintro ⟨⟨fresh, free⟩, leaf⟩ other member
    exact ⟨fresh other member, fun file => free _ other member file rfl,
      fun file => leaf file _ other member rfl⟩
  · intro each
    refine ⟨⟨fun other member => (each other member).1, ?_⟩, ?_⟩
    · rintro _ other member file rfl
      exact (each other member).2.1 file
    · rintro file _ other member rfl
      exact (each other member).2.2 file

theorem Holds.step {paths : PathSet} {before : List Item} (holds : Holds paths before)
    (item : Item) : Holds ⟨keyOf item :: paths.all,
      if item.2 then paths.files else keyOf item :: paths.files⟩ (before ++ [item]) := by
  constructor
  · intro key
    simp only [List.mem_cons, holds.all, List.mem_append, List.not_mem_nil, or_false]
    grind
  · intro key
    cases kind : item.2 with
    | true =>
      simp only [if_true, holds.files, List.mem_append, List.mem_cons, List.not_mem_nil, or_false]
      grind
    | false =>
      simp only [Bool.false_eq_true, if_false, List.mem_cons, holds.files, List.mem_append,
        List.not_mem_nil, or_false]
      grind

theorem insertPaths_cons {limits : Limits} {paths : PathSet} {item : Item} {path : NormalizedPath}
    (normalized : normalizePath item.1 item.2 limits = .ok path) (rest : List Item) :
    insertPaths limits paths (item :: rest) = match paths.insert path with
      | (_, false) => .error .duplicatePath
      | (paths, true) => insertPaths limits paths rest := by
  rewrite [insertPaths, normalized]
  rfl

theorem insertPaths_iff {limits : Limits} {paths : PathSet} {before after : List Item}
    (holds : Holds paths before) : (∃ next, insertPaths limits paths after = .ok next) ↔
      (∀ item ∈ after, Acceptable limits item) ∧
        (∀ item ∈ before, ∀ other ∈ after, Compatible item other) ∧ after.Pairwise Compatible := by
  induction after generalizing paths before with
  | nil => simp [insertPaths]
  | cons item rest ih =>
    rw [List.forall_mem_cons, List.pairwise_cons]
    cases normalized : normalizePath item.1 item.2 limits with
    | error error =>
      unfold insertPaths
      rw [normalized]
      refine ⟨fun ⟨_, no⟩ => (by cases no), fun ⟨⟨acceptable, _⟩, _⟩ => ?_⟩
      rw [normalizePath_iff.mpr ⟨acceptable, rfl⟩] at normalized
      cases normalized
    | ok path =>
      obtain ⟨acceptable, rfl⟩ := normalizePath_iff.mp normalized
      have later := ih (holds.step item)
      have around : (∀ other ∈ before ++ [item], ∀ next ∈ rest, Compatible other next) ↔
          (∀ other ∈ before, ∀ next ∈ rest, Compatible other next) ∧
            ∀ next ∈ rest, Compatible item next := by
        simp only [List.mem_append, List.mem_singleton, or_imp, forall_and, forall_eq]
      change normalizePath _ _ _ = .ok ⟨normal item, keyOf item, item.2⟩ at normalized
      rw [insertPaths_cons normalized]
      cases inserted : paths.insert ⟨normal item, keyOf item, item.2⟩ with
      | mk next taken =>
        cases taken with
        | false =>
          refine ⟨fun ⟨_, no⟩ => (by cases no), fun ⟨_, between, _⟩ => ?_⟩
          have fits : ∀ other ∈ before, Compatible other item :=
            fun other member => between other member item List.mem_cons_self
          rw [holds.insert_iff.mpr ⟨fits, rfl⟩] at inserted
          cases inserted
        | true =>
          obtain ⟨fits, rfl⟩ := holds.insert_iff.mp inserted
          simp only [later, around, acceptable, true_and, List.forall_mem_cons]
          constructor
          · rintro ⟨each, ⟨between, ahead⟩, pairs⟩
            exact ⟨each, fun other member => ⟨fits other member, between other member⟩, ahead, pairs⟩
          · rintro ⟨each, between, ahead, pairs⟩
            exact ⟨each, ⟨fun other member => (between other member).2, ahead⟩, pairs⟩

/-! The tree. -/

/-- A component followed from a directory as a file system follows it. -/
def walk (here : List Text) (component : Text) : List Text :=
  if component = [] ∨ component = [46] then here
  else if component = [46, 46] then here.dropLast
  else here ++ [component]

/-- Where a path leads from a directory: a rooted path or one with a drive leaves it. -/
def resolve (root : List Text) (path : Text) : List Text :=
  (path.splitOn 47).foldl walk (if path.head? = some 47 ∨ 58 ∈ path then [] else root)

def entry (item : Item) : Volume.Entry Text Text :=
  ⟨components item, if item.2 then .directory else .file item.1⟩

/-- Below the root, whatever holds something is a directory. -/
def Tree (disk : Volume.Disk Text Text Text) : Prop :=
  ∀ key name, key ≠ [] → disk (key ++ [name]) ≠ none →
    ∃ spelled, disk key = some (spelled, .directory)

theorem walk_safe {names here : List Text} (safe : ∀ name ∈ names, Safe name) :
    names.foldl walk here = here ++ names := by
  induction names generalizing here with
  | nil => simp
  | cons name rest ih =>
    obtain ⟨first, later⟩ := List.forall_mem_cons.mp safe
    have step : walk here name = here ++ [name] := by
      simp [walk, first.nonempty, first.dot, first.dots]
    rw [List.foldl_cons, step, ih later, List.append_assoc, List.singleton_append]

/-- An accepted path stays below the directory it is taken in. -/
theorem Acceptable.resolve {limits : Limits} {item : Item} (acceptable : Acceptable limits item)
    (root : List Text) : resolve root (normal item) = root ++ components item := by
  have bare : ¬ (normal item).head? = some 47 := by
    intro slash
    obtain ⟨rest, whole⟩ := List.head?_eq_some_iff.mp slash
    have there : [] ∈ components item := by
      rw [components, whole, ← List.nil_append (47 :: rest), List.splitOn_append_cons_self]
      exact List.mem_append_left _ (List.mem_singleton_self _)
    exact (acceptable.safe [] there).nonempty rfl
  have driveless : 58 ∉ normal item := by
    intro colon
    rw [← show [47].intercalate (components item) = normal item from List.intercalate_splitOn 47] at colon
    rcases PathText.mem_join colon with same | ⟨name, there, inside⟩
    · cases same
    · exact (acceptable.safe name there).drive inside
  rw [ConfigArchive.resolve, if_neg (not_or.mpr ⟨bare, driveless⟩)]
  exact walk_safe acceptable.safe

theorem Compatible.fits {first second : Item} (compatible : Compatible first second) :
    Volume.Fits (List.map lower) (entry first) (entry second) := by
  obtain ⟨_, file, file'⟩ := compatible
  constructor
  · intro below
    cases kind : first.2 with
    | true => simp [entry, kind]
    | false => exact absurd below (file kind)
  · intro below
    cases kind : second.2 with
    | true => simp [entry, kind]
    | false => exact absurd below (file' kind)

/-- The paths of an archive are taken in any order or in none, and then they make one tree. -/
theorem insertPaths_exact (limits : Limits) (items : List Item) :
    ((∃ next, insertPaths limits {} items = .ok next) ↔
      (∀ item ∈ items, Acceptable limits item) ∧ items.Pairwise Compatible) ∧
    (∀ others, items.Perm others → ((∃ next, insertPaths limits {} others = .ok next) ↔
      ∃ next, insertPaths limits {} items = .ok next)) ∧
    ((∃ next, insertPaths limits {} items = .ok next) →
      (∀ item ∈ items, ∀ root, resolve root (normal item) = root ++ components item) ∧
      ∃ disk, (items.map entry).foldlM (Volume.place (List.map lower)) Volume.blank = some disk ∧
        Tree disk ∧ ∀ item ∈ items, ∃ name, disk (folded item) = some (name, (entry item).node)) := by
  have taken (items : List Item) : (∃ next, insertPaths limits {} items = .ok next) ↔
      (∀ item ∈ items, Acceptable limits item) ∧ items.Pairwise Compatible := by
    rw [insertPaths_iff .empty]
    simp
  refine ⟨taken items, fun others same => ?_, fun accepted => ?_⟩
  · rw [taken, taken, same.pairwise_iff Compatible.symm]
    simp only [same.mem_iff]
  · obtain ⟨acceptable, compatible⟩ := (taken items).mp accepted
    have fit : (items.map entry).Pairwise (Volume.Fits (List.map lower)) :=
      List.pairwise_map.mpr (compatible.imp Compatible.fits)
    have named : ∀ item, (entry item).path ≠ [] := components_ne_nil
    refine ⟨fun item member => (acceptable item member).resolve,
      Volume.layout (List.map lower) (items.map entry),
      Volume.create_iff.mpr ⟨List.forall_mem_map.mpr (fun item _ => named item), fit, rfl⟩, ?_, ?_⟩
    · intro key name some there
      obtain ⟨⟨spelled, node⟩, there⟩ := Option.ne_none_iff_exists'.mp there
      exact Volume.layout_closed fit some there
    · intro item member
      exact Volume.layout_found fit (List.mem_map_of_mem member) (named item)

/-- `a/b`, `A\\c` and `a/` make one directory. -/
theorem insertPaths_exact_sample : ∃ disk,
    ([([97, 47, 98], false), ([65, 92, 99], false), ([97, 47], true)].map entry).foldlM
      (Volume.place (List.map lower)) Volume.blank = some disk ∧
    ∃ name, disk [[97], [99]] = some (name, .file [65, 92, 99]) := by
  have taken : ∃ next, insertPaths ⟨64, 4⟩ {}
      [([97, 47, 98], false), ([65, 92, 99], false), ([97, 47], true)] = .ok next := by
    have safe : ∀ name ∈ [[97], [98], [65], [99]], Safe name := by
      simp only [← unsafeComponent_iff, unsafeComponent, reservedComponent, JsonText.ascii_eq]
      decide
    have octets : ∀ text ∈ [[97, 47, 98], [65, 92, 99], [97, 47]], Utf8.Octets text := by
      simp only [← validUtf8_iff]
      decide
    have plain : ∀ item : Item,
        ((components item).all fun component => component.all fun byte => !forbidden byte) →
        ∀ component ∈ components item, ∀ byte ∈ component, forbidden byte = false := by
      intro item clear component mem byte inside
      have free := List.all_eq_true.mp (List.all_eq_true.mp clear component mem) byte inside
      rwa [Bool.not_eq_true'] at free
    refine (insertPaths_iff .empty).mpr ⟨?_, fun _ none => (by cases none), ?_⟩
    · simp only [List.forall_mem_cons] at safe octets ⊢
      obtain ⟨a, b, capital, c, _⟩ := safe
      obtain ⟨first, second, third, _⟩ := octets
      refine ⟨⟨by decide, by decide, first, by decide, by decide, ?_, plain _ (by decide),
          by decide⟩,
        ⟨by decide, by decide, second, by decide, by decide, ?_, plain _ (by decide), by decide⟩,
        ⟨by decide, by decide, third, by decide, by decide, ?_, plain _ (by decide), by decide⟩,
        fun _ none => (by cases none)⟩
      · exact List.forall_mem_cons.mpr ⟨a, List.forall_mem_singleton.mpr b⟩
      · exact List.forall_mem_cons.mpr ⟨capital, List.forall_mem_singleton.mpr c⟩
      · exact List.forall_mem_singleton.mpr a
    · unfold Compatible
      decide
  obtain ⟨_, disk, made, _, found⟩ := (insertPaths_exact ⟨64, 4⟩ _).2.2 taken
  exact ⟨disk, made, found ([65, 92, 99], false) (by decide)⟩

/-- A wildcard is refused although no rule on components names it. -/
theorem wildcard_refused : ¬ ∀ (limits : Limits) (items : List Item),
    (∃ next, insertPaths limits {} items = .ok next) ↔
      (∀ item ∈ items, (slashed item.1).head? ≠ some 47 ∧ ∀ name ∈ components item, Safe name) ∧
        items.Pairwise Compatible := by
  intro stated
  have whole : components ([97, 63, 98], false) = [[97, 63, 98]] := by decide
  have safe : Safe [97, 63, 98] := by
    rw [← unsafeComponent_iff]
    simp only [unsafeComponent, reservedComponent, JsonText.ascii_eq]
    decide
  have taken := (stated ⟨16384, 256⟩ [([97, 63, 98], false)]).mpr
    ⟨by simpa [whole, slashed] using safe, List.pairwise_singleton _ _⟩
  obtain ⟨acceptable, _⟩ := (insertPaths_iff .empty).mp taken
  have plain := (acceptable _ List.mem_cons_self).plain
  rw [whole] at plain
  exact absurd (plain [97, 63, 98] List.mem_cons_self 63 (by decide)) (by decide)

end Baas.ConfigArchive
