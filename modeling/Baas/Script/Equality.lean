import Baas.Lib.Binary64
import Baas.Lib.Expansion
import Baas.Script.HeapWrite

/-! Equality of values, through cycles. -/
namespace Baas.Script

open Expansion

def isNaN (bits : UInt64) : Bool := 0x7FF * 2 ^ 52 < (Binary64.mk bits).magnitude

/-- The `==` of binary64: no NaN equals anything, and the two zeros are equal. -/
def floatEquals (a b : UInt64) : Bool :=
  !isNaN a && !isNaN b &&
    (a == b || ((Binary64.mk a).magnitude == 0 && (Binary64.mk b).magnitude == 0))

/-- `static_cast<double>` -/
def integerToFloat (value : Int) : UInt64 := (Binary64.ofInt value).bits

def kindOf (value : Value) (h : Heap) : Except HeapError ValueKind :=
  match value with
  | .ref reference => do return dataKind (← dereference reference h).data
  | value => .ok value.inlineKind

def CellData.string? : CellData → Option Bytes
  | .stringCell value => some value.items
  | _ => none

def CellData.bytes? : CellData → Option Bytes
  | .byteCell value => some value.items
  | _ => none

inductive Comparison
  | same
  | different
  | descend (left right : HeapRef)
deriving DecidableEq

def verdict (equal : Bool) : Comparison := if equal then .same else .different

/-- The comparison of one pair, without the elements of collections. -/
def comparePair (left right : Value) (h : Heap) : Except HeapError Comparison := do
  let leftKind ← kindOf left h
  let rightKind ← kindOf right h
  match left, right with
  | .integer a, .float b => return verdict (floatEquals (integerToFloat a) b)
  | .float a, .integer b => return verdict (floatEquals a (integerToFloat b))
  | left, right =>
    if leftKind ≠ rightKind then return .different
    else match left, right with
      | .null, .null => return .same
      | .boolean a, .boolean b => return verdict (a == b)
      | .integer a, .integer b => return verdict (a == b)
      | .float a, .float b => return verdict (floatEquals a b)
      | .ref a, .ref b =>
        match leftKind with
        | .string =>
          let text ← expected CellData.string? a h
          return verdict (text == (← expected CellData.string? b h))
        | .bytes =>
          let content ← expected CellData.bytes? a h
          return verdict (content == (← expected CellData.bytes? b h))
        | .list | .orderedMap => return .descend a b
        | _ => return verdict (a == b)
      | _, _ => return .different

def lookupKey (key : Bytes) (entries : List (Text × Value)) : Option Value :=
  (entries.find? fun entry => entry.1.items == key).map Prod.snd

/-- The pairs of elements, in the order in which they are pushed; `none` when the collections
differ in size or in a key. -/
def elementPairs (left right : CellData) : Option (List (Value × Value)) :=
  match left, right with
  | .listCell a, .listCell b =>
    if a.items.length ≠ b.items.length then none else some (a.items.zip b.items)
  | .mapCell a, .mapCell b =>
    if a.items.length ≠ b.items.length then none
    else a.items.mapM fun entry => (lookupKey entry.1.items b.items).map (entry.2, ·)
  | _, _ => none

/-- The references that the heap holds a cell for. -/
def liveRefs (h : Heap) : List HeapRef :=
  h.arena.slots.zipIdx.filterMap fun slot =>
    slot.1.cell.map fun _ => ⟨h.heapIdentity, slot.2, slot.1.generation⟩

theorem mem_liveRefs {h : Heap} {reference : HeapRef} (live : Live h reference) :
    reference ∈ liveRefs h := by
  obtain ⟨cell, deref⟩ := live
  obtain ⟨own, found⟩ := dereference_ok.mp deref
  have slot := Arena.slot_of_get? found
  refine List.mem_filterMap.mpr ⟨(⟨some cell, reference.generation⟩, reference.slot), ?_, ?_⟩
  · rw [List.mem_zipIdx_iff_getElem?]
    exact slot
  · rw [← own]
    rfl

/-- The pairs of collections that are still to be compared. -/
def unvisited (h : Heap) (visited : List (HeapRef × HeapRef)) : Nat :=
  ((liveRefs h ×ˢ liveRefs h).filter fun pair => !visited.contains pair).length

theorem unvisited_lt {h : Heap} {visited : List (HeapRef × HeapRef)} {left right : HeapRef}
    (liveL : Live h left) (liveR : Live h right) (fresh : (left, right) ∉ visited) :
    unvisited h ((left, right) :: visited) < unvisited h visited := by
  have smaller : (liveRefs h ×ˢ liveRefs h).filter
        (fun pair => !((left, right) :: visited).contains pair) =
      ((liveRefs h ×ˢ liveRefs h).filter fun pair => !visited.contains pair).filter
        fun pair => !(pair == (left, right)) := by
    rw [List.filter_filter]
    congr 1
    funext pair
    rw [List.contains_cons, Bool.not_or]
  rw [unvisited, unvisited, smaller, List.length_filter_lt_length_iff_exists]
  refine ⟨(left, right), List.mem_filter.mpr ⟨?_, ?_⟩, ?_⟩
  · exact List.mem_product.mpr ⟨mem_liveRefs liveL, mem_liveRefs liveR⟩
  · simpa using fresh
  · simp

theorem kindOf_ref {reference : HeapRef} {h : Heap} {kind : ValueKind}
    (found : kindOf (.ref reference) h = .ok kind) :
    ∃ cell, dereference reference h = .ok cell ∧ dataKind cell.data = kind := by
  obtain ⟨cell, deref, same⟩ := bind_ok found
  exact ⟨cell, deref, Except.ok.inj same⟩

theorem verdict_settles {equal : Bool} {a b : HeapRef} : verdict equal ≠ .descend a b := by
  cases equal <;> nofun

/-- Only live references are descended into. -/
theorem comparePair_live {left right : Value} {h : Heap} {a b : HeapRef}
    (compared : comparePair left right h = .ok (.descend a b)) : Live h a ∧ Live h b := by
  unfold comparePair at compared
  obtain ⟨leftKind, foundL, compared⟩ := bind_ok compared
  obtain ⟨rightKind, foundR, compared⟩ := bind_ok compared
  split at compared
  · exact absurd (Except.ok.inj compared) verdict_settles
  · exact absurd (Except.ok.inj compared) verdict_settles
  split at compared
  · exact absurd (Except.ok.inj compared) nofun
  split at compared
  · exact absurd (Except.ok.inj compared) nofun
  · exact absurd (Except.ok.inj compared) verdict_settles
  · exact absurd (Except.ok.inj compared) verdict_settles
  · exact absurd (Except.ok.inj compared) verdict_settles
  · obtain ⟨leftCell, derefL, -⟩ := kindOf_ref foundL
    obtain ⟨rightCell, derefR, -⟩ := kindOf_ref foundR
    split at compared
    · obtain ⟨_, -, compared⟩ := bind_ok compared
      obtain ⟨_, -, compared⟩ := bind_ok compared
      exact absurd (Except.ok.inj compared) verdict_settles
    · obtain ⟨_, -, compared⟩ := bind_ok compared
      obtain ⟨_, -, compared⟩ := bind_ok compared
      exact absurd (Except.ok.inj compared) verdict_settles
    · obtain ⟨rfl, rfl⟩ := Comparison.descend.inj (Except.ok.inj compared)
      exact ⟨⟨leftCell, derefL⟩, ⟨rightCell, derefR⟩⟩
    · obtain ⟨rfl, rfl⟩ := Comparison.descend.inj (Except.ok.inj compared)
      exact ⟨⟨leftCell, derefL⟩, ⟨rightCell, derefR⟩⟩
    · exact absurd (Except.ok.inj compared) verdict_settles
  · exact absurd (Except.ok.inj compared) nofun

/-- `Heap::equals` with its visited pairs and its stack, the top first. -/
def equalsLoop (h : Heap) (visited : List (HeapRef × HeapRef)) :
    List (Value × Value) → Except HeapError Bool
  | [] => .ok true
  | pair :: work =>
    match _compared : comparePair pair.1 pair.2 h with
    | .error e => .error e
    | .ok .different => .ok false
    | .ok .same => equalsLoop h visited work
    | .ok (.descend left right) =>
      if _fresh : (left, right) ∈ visited then equalsLoop h visited work
      else
        match dereference left h, dereference right h with
        | .ok leftCell, .ok rightCell =>
          match elementPairs leftCell.data rightCell.data with
          | none => .ok false
          | some pairs => equalsLoop h ((left, right) :: visited) (pairs.reverse ++ work)
        | .error e, _ => .error e
        | _, .error e => .error e
termination_by work => (unvisited h visited, work.length)
decreasing_by
  · exact Prod.Lex.right _ (Nat.lt_succ_self _)
  · exact Prod.Lex.right _ (Nat.lt_succ_self _)
  · exact Prod.Lex.left _ _ (unvisited_lt (comparePair_live _compared).1
      (comparePair_live _compared).2 _fresh)

def equals (left right : Value) (h : Heap) : Except HeapError Bool :=
  equalsLoop h [] [(left, right)]

/-! What a value is, seen from outside. -/

inductive View
  | null
  | boolean (value : Bool)
  | integer (value : Int)
  | float (bits : UInt64)
  | string (value : Bytes)
  | bytes (value : Bytes)
  | list (values : List Value)
  | map (entries : List (Text × Value))
  | identity (reference : HeapRef)

def cellView (reference : HeapRef) : CellData → View
  | .stringCell value => .string value.items
  | .byteCell value => .bytes value.items
  | .listCell values => .list values.items
  | .mapCell entries => .map entries.items
  | _ => .identity reference

def view (h : Heap) : Value → Option View
  | .null => some .null
  | .boolean value => some (.boolean value)
  | .integer value => some (.integer value)
  | .float bits => some (.float bits)
  | .ref reference =>
    match dereference reference h with
    | .ok cell => some (cellView reference cell.data)
    | .error _ => none

def keys (entries : List (Text × Value)) : List Bytes := entries.map fun entry => entry.1.items

/-- Values that are equal without their elements: numbers by their value. -/
def Alike : View → View → Prop
  | .null, .null => True
  | .boolean a, .boolean b => a = b
  | .integer a, .integer b => a = b
  | .float a, .float b => floatEquals a b = true
  | .integer a, .float b => floatEquals (integerToFloat a) b = true
  | .float a, .integer b => floatEquals a (integerToFloat b) = true
  | .string a, .string b => a = b
  | .bytes a, .bytes b => a = b
  | .list a, .list b => a.length = b.length
  | .map a, .map b => ∀ key, key ∈ keys a ↔ key ∈ keys b
  | .identity a, .identity b => a = b
  | _, _ => False

inductive PathStep
  | index (index : Nat)
  | key (key : Bytes)

/-- The element of a collection at one step of a path. -/
inductive Element (h : Heap) : Value → PathStep → Value → Prop
  | index {value element : Value} {values : List Value} {index : Nat} :
      view h value = some (.list values) → values[index]? = some element →
      Element h value (.index index) element
  | key {value : Value} {entries : List (Text × Value)} {entry : Text × Value} :
      view h value = some (.map entries) → entry ∈ entries →
      Element h value (.key entry.1.items) entry.2

/-- Where a path of list indices and map keys leads. -/
inductive Leads (h : Heap) : Value → List PathStep → Value → Prop
  | here {value : Value} : Leads h value [] value
  | step {value element last : Value} {s : PathStep} {path : List PathStep} :
      Element h value s element → Leads h element path last → Leads h value (s :: path) last

theorem Leads.snoc {h : Heap} {value last next : Value} {s : PathStep} {path : List PathStep}
    (leads : Leads h value path last) (element : Element h last s next) :
    Leads h value (path ++ [s]) next := by
  induction leads with
  | here => exact .step element .here
  | step first _ ih => exact .step first (ih element)

/-- No path leads to values that are not alike. -/
def Bisimilar (alike : View → View → Prop) (h : Heap) (left right : Value) : Prop :=
  ∀ path a b, Leads h left path a → Leads h right path b →
    ∃ x y, view h a = some x ∧ view h b = some y ∧ alike x y

/-- What is left to compare of two values. -/
def View.expand : View → View → Option (List (Value × Value))
  | .null, .null => some []
  | .boolean a, .boolean b => if a = b then some [] else none
  | .integer a, .integer b => if a = b then some [] else none
  | .float a, .float b => if floatEquals a b then some [] else none
  | .integer a, .float b => if floatEquals (integerToFloat a) b then some [] else none
  | .float a, .integer b => if floatEquals a (integerToFloat b) then some [] else none
  | .string a, .string b => if a = b then some [] else none
  | .bytes a, .bytes b => if a = b then some [] else none
  | .list a, .list b => if a.length ≠ b.length then none else some (a.zip b)
  | .map a, .map b =>
    if a.length ≠ b.length then none
    else a.mapM fun entry => (lookupKey entry.1.items b).map (entry.2, ·)
  | .identity a, .identity b => if a = b then some [] else none
  | _, _ => none

/-- The outcomes of the comparison of one pair. -/
inductive Compared (h : Heap) (left right : Value) : Option (List (Value × Value)) → Prop
  | different : comparePair left right h = .ok .different → Compared h left right none
  | same : comparePair left right h = .ok .same → Compared h left right (some [])
  | descend {a b : HeapRef} {leftCell rightCell : Cell} :
      comparePair left right h = .ok (.descend a b) → left = .ref a → right = .ref b →
      dereference a h = .ok leftCell → dereference b h = .ok rightCell →
      Compared h left right (elementPairs leftCell.data rightCell.data)

theorem compared_verdict {h : Heap} {left right : Value} {equal : Prop} [Decidable equal]
    (result : Bool) (compared : comparePair left right h = .ok (verdict result))
    (exact : result = true ↔ equal) : Compared h left right (if equal then some [] else none) := by
  cases result with
  | false =>
    rw [if_neg (fun yes => Bool.false_ne_true (exact.mpr yes))]
    exact .different compared
  | true =>
    rw [if_pos (exact.mp rfl)]
    exact .same compared

theorem compared_inline {h : Heap} {left right : Value} {x y : View}
    (viewL : view h left = some x) (viewR : view h right = some y)
    (inline : (∀ r, left ≠ .ref r) ∧ ∀ r, right ≠ .ref r) : Compared h left right (x.expand y) := by
  cases left with
  | ref r => exact absurd rfl (inline.1 r)
  | null =>
    obtain rfl := Option.some_inj.mp viewL
    cases right with
    | ref r => exact absurd rfl (inline.2 r)
    | null => obtain rfl := Option.some_inj.mp viewR; exact .same rfl
    | boolean | integer | float =>
      obtain rfl := Option.some_inj.mp viewR
      exact .different rfl
  | boolean a =>
    obtain rfl := Option.some_inj.mp viewL
    cases right with
    | ref r => exact absurd rfl (inline.2 r)
    | boolean b =>
      obtain rfl := Option.some_inj.mp viewR
      exact compared_verdict (a == b) rfl beq_iff_eq
    | null | integer | float =>
      obtain rfl := Option.some_inj.mp viewR
      exact .different rfl
  | integer a =>
    obtain rfl := Option.some_inj.mp viewL
    cases right with
    | ref r => exact absurd rfl (inline.2 r)
    | integer b =>
      obtain rfl := Option.some_inj.mp viewR
      exact compared_verdict (a == b) rfl beq_iff_eq
    | float b =>
      obtain rfl := Option.some_inj.mp viewR
      exact compared_verdict (floatEquals (integerToFloat a) b) rfl Iff.rfl
    | null | boolean =>
      obtain rfl := Option.some_inj.mp viewR
      exact .different rfl
  | float a =>
    obtain rfl := Option.some_inj.mp viewL
    cases right with
    | ref r => exact absurd rfl (inline.2 r)
    | float b =>
      obtain rfl := Option.some_inj.mp viewR
      exact compared_verdict (floatEquals a b) rfl Iff.rfl
    | integer b =>
      obtain rfl := Option.some_inj.mp viewR
      exact compared_verdict (floatEquals a (integerToFloat b)) rfl Iff.rfl
    | null | boolean =>
      obtain rfl := Option.some_inj.mp viewR
      exact .different rfl

/-- A cell is never of the kind of an inline value. -/
theorem kind_ne {value : Value} (data : CellData) (inline : ∀ r, value ≠ .ref r) :
    value.inlineKind ≠ dataKind data := by
  cases value with
  | ref r => exact absurd rfl (inline r)
  | null => cases data <;> nofun
  | boolean => cases data <;> nofun
  | integer => cases data <;> nofun
  | float => cases data <;> nofun

theorem kindOf_deref {reference : HeapRef} {h : Heap} {cell : Cell}
    (deref : dereference reference h = .ok cell) :
    kindOf (.ref reference) h = .ok (dataKind cell.data) := by
  rw [kindOf, deref]
  rfl

theorem compared_mixed {h : Heap} {value : Value} {reference : HeapRef} {cell : Cell}
    {x : View} (deref : dereference reference h = .ok cell) (seen : view h value = some x)
    (inline : ∀ r, value ≠ .ref r) :
    Compared h value (.ref reference) (x.expand (cellView reference cell.data)) ∧
      Compared h (.ref reference) value ((cellView reference cell.data).expand x) := by
  have kinds := kind_ne cell.data inline
  have kind := kindOf_deref deref
  have left : comparePair value (.ref reference) h = .ok .different := by
    unfold comparePair
    rw [kind]
    cases value with
    | ref r => exact absurd rfl (inline r)
    | null | boolean | integer | float => exact if_pos kinds
  have right : comparePair (.ref reference) value h = .ok .different := by
    unfold comparePair
    rw [kind]
    cases value with
    | ref r => exact absurd rfl (inline r)
    | null | boolean | integer | float => exact if_pos kinds.symm
  cases value with
  | ref r => exact absurd rfl (inline r)
  | null | boolean | integer | float =>
    obtain rfl := Option.some_inj.mp seen
    generalize cell.data = data
    cases data <;> exact ⟨.different left, .different right⟩

theorem compared_refs {h : Heap} {a b : HeapRef} {leftCell rightCell : Cell}
    (derefL : dereference a h = .ok leftCell) (derefR : dereference b h = .ok rightCell) :
    Compared h (.ref a) (.ref b)
      ((cellView a leftCell.data).expand (cellView b rightCell.data)) := by
  have kindL := kindOf_deref derefL
  have kindR := kindOf_deref derefR
  by_cases kinds : dataKind leftCell.data = dataKind rightCell.data
  · have shape : comparePair (.ref a) (.ref b) h =
        (match dataKind leftCell.data with
        | .string => do
          let text ← expected CellData.string? a h
          return verdict (text == (← expected CellData.string? b h))
        | .bytes => do
          let content ← expected CellData.bytes? a h
          return verdict (content == (← expected CellData.bytes? b h))
        | .list | .orderedMap => return .descend a b
        | _ => return verdict (a == b)) := by
      unfold comparePair
      rw [kindL, kindR]
      exact if_neg (not_not.mpr kinds)
    obtain ⟨dataL, _, _, _⟩ := leftCell
    obtain ⟨dataR, _, _, _⟩ := rightCell
    dsimp only at kinds shape ⊢
    cases dataL with
    | stringCell left =>
      cases dataR with
      | stringCell right =>
        rw [show expected CellData.string? a h = .ok left.items by rw [expected, derefL]; rfl,
          show expected CellData.string? b h = .ok right.items by rw [expected, derefR]; rfl] at shape
        exact compared_verdict (left.items == right.items) shape beq_iff_eq
      | _ => exact absurd kinds nofun
    | byteCell left =>
      cases dataR with
      | byteCell right =>
        rw [show expected CellData.bytes? a h = .ok left.items by rw [expected, derefL]; rfl,
          show expected CellData.bytes? b h = .ok right.items by rw [expected, derefR]; rfl] at shape
        exact compared_verdict (left.items == right.items) shape beq_iff_eq
      | _ => exact absurd kinds nofun
    | listCell =>
      cases dataR with
      | listCell => exact .descend shape rfl rfl derefL derefR
      | _ => exact absurd kinds nofun
    | mapCell =>
      cases dataR with
      | mapCell => exact .descend shape rfl rfl derefL derefR
      | _ => exact absurd kinds nofun
    | functionCell =>
      cases dataR with
      | functionCell => exact compared_verdict (a == b) shape beq_iff_eq
      | _ => exact absurd kinds nofun
    | moduleCell =>
      cases dataR with
      | moduleCell => exact compared_verdict (a == b) shape beq_iff_eq
      | _ => exact absurd kinds nofun
    | errorCell =>
      cases dataR with
      | errorCell => exact compared_verdict (a == b) shape beq_iff_eq
      | _ => exact absurd kinds nofun
    | taskCell =>
      cases dataR with
      | taskCell => exact compared_verdict (a == b) shape beq_iff_eq
      | _ => exact absurd kinds nofun
    | hostCell =>
      cases dataR with
      | hostCell => exact compared_verdict (a == b) shape beq_iff_eq
      | _ => exact absurd kinds nofun
  · have different : comparePair (.ref a) (.ref b) h = .ok .different := by
      unfold comparePair
      rw [kindL, kindR]
      exact if_pos kinds
    have apart : a ≠ b := by
      rintro rfl
      rw [derefL] at derefR
      exact kinds (by rw [Except.ok.inj derefR])
    have none : (cellView a leftCell.data).expand (cellView b rightCell.data) = none := by
      generalize leftCell.data = dataL at kinds
      generalize rightCell.data = dataR at kinds
      cases dataL <;> cases dataR <;>
        first | rfl | exact if_neg apart | exact absurd rfl kinds
    rw [none]
    exact .different different

theorem view_valid {h : Heap} {value : Value} (valid : Valid h value) :
    ∃ x, view h value = some x := by
  cases value with
  | ref reference =>
    obtain ⟨cell, deref⟩ := valid reference rfl
    exact ⟨_, by rw [view, deref]⟩
  | null | boolean | integer | float => exact ⟨_, rfl⟩

theorem view_ref {h : Heap} {reference : HeapRef} {x : View}
    (seen : view h (.ref reference) = some x) :
    ∃ cell, dereference reference h = .ok cell ∧ x = cellView reference cell.data := by
  cases deref : dereference reference h with
  | ok cell =>
    rw [view, deref] at seen
    exact ⟨cell, rfl, (Option.some_inj.mp seen).symm⟩
  | error e =>
    rw [view, deref] at seen
    cases seen

theorem compared {h : Heap} {left right : Value} {x y : View} (viewL : view h left = some x)
    (viewR : view h right = some y) : Compared h left right (x.expand y) := by
  cases left with
  | ref a =>
    obtain ⟨leftCell, derefL, rfl⟩ := view_ref viewL
    cases right with
    | ref b =>
      obtain ⟨rightCell, derefR, rfl⟩ := view_ref viewR
      exact compared_refs derefL derefR
    | null | boolean | integer | float => exact (compared_mixed derefL viewR nofun).2
  | null | boolean | integer | float =>
    cases right with
    | ref b =>
      obtain ⟨rightCell, derefR, rfl⟩ := view_ref viewR
      exact (compared_mixed derefR viewL nofun).1
    | null | boolean | integer | float => exact compared_inline viewL viewR ⟨nofun, nofun⟩

def expandPair (h : Heap) (pair : Value × Value) : Option (List (Value × Value)) :=
  (view h pair.1).bind fun x => (view h pair.2).bind x.expand

theorem compared_pair {h : Heap} {pair : Value × Value}
    (valid : Valid h pair.1 ∧ Valid h pair.2) :
    Compared h pair.1 pair.2 (expandPair h pair) := by
  obtain ⟨x, viewL⟩ := view_valid valid.1
  obtain ⟨y, viewR⟩ := view_valid valid.2
  rw [expandPair, viewL, viewR]
  exact compared viewL viewR

/-- What a comparison tells of the pairs that are left. -/
theorem comparePair_tells {h : Heap} {pair : Value × Value}
    (valid : Valid h pair.1 ∧ Valid h pair.2) :
    match comparePair pair.1 pair.2 h with
    | .error _ => False
    | .ok .different => expandPair h pair = none
    | .ok .same => expandPair h pair = some []
    | .ok (.descend a b) => pair = (.ref a, .ref b) ∧ ∃ leftCell rightCell,
        dereference a h = .ok leftCell ∧ dereference b h = .ok rightCell ∧
          expandPair h pair = elementPairs leftCell.data rightCell.data := by
  have outcome := compared_pair valid
  generalize expandPair h pair = pairs at outcome
  cases outcome with
  | different compared => rw [compared]
  | same compared => rw [compared]
  | descend compared left right derefL derefR =>
    rw [compared]
    exact ⟨Prod.ext left right, _, _, derefL, derefR, rfl⟩

theorem mapM_mem {α β : Type} {f : α → Option β} {l : List α} {result : List β}
    (mapped : l.mapM f = some result) (b : β) : b ∈ result ↔ ∃ a ∈ l, f a = some b := by
  induction l generalizing result with
  | nil =>
    obtain rfl := Option.some_inj.mp mapped
    simp
  | cons a l ih =>
    rw [List.mapM_cons] at mapped
    obtain ⟨first, head, rest⟩ := Option.bind_eq_some_iff.mp mapped
    obtain ⟨others, tail, same⟩ := Option.bind_eq_some_iff.mp rest
    obtain rfl := Option.some_inj.mp same
    rw [List.mem_cons, ih tail]
    constructor
    · rintro (rfl | ⟨c, i, found⟩)
      · exact ⟨a, List.mem_cons_self, head⟩
      · exact ⟨c, List.mem_cons_of_mem a i, found⟩
    · rintro ⟨c, i, found⟩
      obtain rfl | i := List.mem_cons.mp i
      · rw [head] at found
        exact .inl (Option.some_inj.mp found).symm
      · exact .inr ⟨c, i, found⟩

theorem mapM_some {α β : Type} {f : α → Option β} {l : List α} :
    (∃ result, l.mapM f = some result) ↔ ∀ a ∈ l, ∃ b, f a = some b := by
  induction l with
  | nil => exact ⟨fun _ _ i => (nomatch i), fun _ => ⟨[], rfl⟩⟩
  | cons a l ih =>
    rw [List.forall_mem_cons, ← ih, List.mapM_cons]
    constructor
    · rintro ⟨result, mapped⟩
      obtain ⟨first, head, rest⟩ := Option.bind_eq_some_iff.mp mapped
      obtain ⟨others, tail, -⟩ := Option.bind_eq_some_iff.mp rest
      exact ⟨⟨first, head⟩, others, tail⟩
    · rintro ⟨⟨first, head⟩, others, tail⟩
      exact ⟨first :: others, by rw [head, tail]; rfl⟩

theorem lookupKey_some {key : Bytes} {entries : List (Text × Value)} {value : Value}
    (found : lookupKey key entries = some value) :
    ∃ entry ∈ entries, entry.1.items = key ∧ entry.2 = value := by
  obtain ⟨entry, first, same⟩ := Option.map_eq_some_iff.mp found
  have fits := List.find?_some first
  exact ⟨entry, List.mem_of_find?_eq_some first, beq_iff_eq.mp fits, same⟩

/-- The pairs to compare are made of elements. -/
theorem elementPairs_mem {a b : CellData} {pairs : List (Value × Value)}
    (shape : elementPairs a b = some pairs) :
    ∀ pair ∈ pairs, pair.1 ∈ visitChildren a ∧ pair.2 ∈ visitChildren b := by
  unfold elementPairs at shape
  split at shape
  · split at shape
    · exact absurd shape nofun
    · obtain rfl := Option.some_inj.mp shape
      exact fun pair i => List.of_mem_zip i
  · split at shape
    · exact absurd shape nofun
    · intro pair i
      obtain ⟨entry, inside, found⟩ := (mapM_mem shape pair).mp i
      obtain ⟨other, first, rfl⟩ := Option.map_eq_some_iff.mp found
      obtain ⟨match', among, -, same⟩ := lookupKey_some first
      exact ⟨List.mem_map.mpr ⟨entry, inside, rfl⟩, List.mem_map.mpr ⟨match', among, same⟩⟩
  · exact absurd shape nofun

theorem equalsLoop_exact {h : Heap} (sound : Sound h) (visited : List (HeapRef × HeapRef))
    (work : List (Value × Value)) (valid : ∀ pair ∈ work, Valid h pair.1 ∧ Valid h pair.2)
    (searched : Searched (expandPair h) (fun pair => ∃ refs ∈ visited,
      pair = (.ref refs.1, .ref refs.2)) (· ∈ work)) :
    ∃ result, equalsLoop h visited work = .ok result ∧
      (result = true ↔ ∀ pair ∈ work, Safe (expandPair h) pair) := by
  fun_induction equalsLoop h visited work with
  | case1 => exact ⟨true, rfl, (fun _ _ i => nomatch i), fun _ => rfl⟩
  | case2 visited pair work e compared =>
    have tells := comparePair_tells (valid pair List.mem_cons_self)
    rw [compared] at tells
    exact tells.elim
  | case3 visited pair work compared =>
    have tells := comparePair_tells (valid pair List.mem_cons_self)
    rw [compared] at tells
    refine ⟨false, rfl, nofun, fun safe => ?_⟩
    exact absurd (safe pair List.mem_cons_self) (not_safe tells)
  | case4 visited pair work compared ih =>
    have tells := comparePair_tells (valid pair List.mem_cons_self)
    rw [compared] at tells
    have fine : Safe (expandPair h) pair := .of_next tells fun _ i => nomatch i
    obtain ⟨result, ran, exact'⟩ := ih (fun other i => valid other (List.mem_cons_of_mem pair i))
      (fun other seen => by
        obtain ⟨next, shape, inside⟩ := searched other seen
        refine ⟨next, shape, fun c i => ?_⟩
        obtain old | waiting | done := inside c i
        · exact .inl old
        · obtain rfl | later := List.mem_cons.mp waiting
          · exact .inr (.inr fine)
          · exact .inr (.inl later)
        · exact .inr (.inr done))
    refine ⟨result, ran, exact'.trans ?_⟩
    rw [List.forall_mem_cons]
    exact ⟨fun rest => ⟨fine, rest⟩, fun both => both.2⟩
  | case5 visited pair work left right compared seen ih =>
    have tells := comparePair_tells (valid pair List.mem_cons_self)
    rw [compared] at tells
    obtain ⟨rfl, -⟩ := tells
    have rest : Searched (expandPair h) (fun pair => ∃ refs ∈ visited,
        pair = (.ref refs.1, .ref refs.2)) (· ∈ work) := by
      intro other old
      obtain ⟨next, shape, inside⟩ := searched other old
      refine ⟨next, shape, fun c i => ?_⟩
      obtain old | waiting | done := inside c i
      · exact .inl old
      · obtain rfl | later := List.mem_cons.mp waiting
        · exact .inl ⟨(left, right), seen, rfl⟩
        · exact .inr (.inl later)
      · exact .inr (.inr done)
    obtain ⟨result, ran, exact'⟩ :=
      ih (fun other i => valid other (List.mem_cons_of_mem _ i)) rest
    refine ⟨result, ran, exact'.trans ?_⟩
    rw [List.forall_mem_cons]
    exact ⟨fun fine => ⟨rest.safe fine ⟨(left, right), seen, rfl⟩, fine⟩, fun both => both.2⟩
  | case6 visited pair work left right compared fresh leftCell rightCell derefR derefL shape =>
    have tells := comparePair_tells (valid pair List.mem_cons_self)
    rw [compared] at tells
    obtain ⟨-, leftCell', rightCell', derefL', derefR', expanded⟩ := tells
    rw [derefL] at derefL'
    rw [derefR] at derefR'
    rw [← Except.ok.inj derefL', ← Except.ok.inj derefR', shape] at expanded
    refine ⟨false, rfl, nofun, fun safe => ?_⟩
    exact absurd (safe pair List.mem_cons_self) (not_safe expanded)
  | case7 visited pair work left right compared fresh leftCell rightCell derefR derefL pairs shape
      ih =>
    have tells := comparePair_tells (valid pair List.mem_cons_self)
    rw [compared] at tells
    obtain ⟨rfl, leftCell', rightCell', derefL', derefR', expanded⟩ := tells
    rw [derefL] at derefL'
    rw [derefR] at derefR'
    rw [← Except.ok.inj derefL', ← Except.ok.inj derefR', shape] at expanded
    have elements : ∀ other ∈ pairs, Valid h other.1 ∧ Valid h other.2 := by
      intro other i
      have ⟨first, second⟩ := elementPairs_mem shape other i
      exact ⟨sound.edges left leftCell derefL _ first, sound.edges right rightCell derefR _ second⟩
    obtain ⟨result, ran, exact'⟩ := ih
      (fun other i => (List.mem_append.mp i).elim
        (fun new => elements other (List.mem_reverse.mp new))
        (fun old => valid other (List.mem_cons_of_mem _ old)))
      (by
        rintro other ⟨refs, member, rfl⟩
        obtain rfl | old := List.mem_cons.mp member
        · exact ⟨pairs, expanded, fun c i =>
            .inr (.inl (List.mem_append_left _ (List.mem_reverse.mpr i)))⟩
        · obtain ⟨next, shape', inside⟩ := searched _ ⟨refs, old, rfl⟩
          refine ⟨next, shape', fun c i => ?_⟩
          obtain ⟨seen, among, rfl⟩ | waiting | done := inside c i
          · exact .inl ⟨seen, List.mem_cons_of_mem _ among, rfl⟩
          · obtain rfl | later := List.mem_cons.mp waiting
            · exact .inl ⟨(left, right), List.mem_cons_self, rfl⟩
            · exact .inr (.inl (List.mem_append_right _ later))
          · exact .inr (.inr done))
    refine ⟨result, ran, exact'.trans ?_⟩
    rw [List.forall_mem_cons, safe_iff expanded, List.forall_mem_append]
    refine and_congr_left fun _ => forall_congr' fun c => ?_
    rw [List.mem_reverse]
  | case8 visited pair work left right compared fresh e failed =>
    obtain ⟨⟨cell, deref⟩, -⟩ := comparePair_live compared
    rw [failed] at deref
    exact absurd deref nofun
  | case9 visited pair work left right compared fresh e failed =>
    obtain ⟨-, ⟨cell, deref⟩⟩ := comparePair_live compared
    rw [failed] at deref
    exact absurd deref nofun

/-! Bisimilar values. -/

/-- No map has a key twice. -/
def Keyed (h : Heap) : Prop :=
  ∀ reference cell entries, dereference reference h = .ok cell → cell.data = .mapCell entries →
    (keys entries.items).Nodup

def View.Keyed : View → Prop
  | .map entries => (keys entries).Nodup
  | _ => True

theorem Keyed.view {h : Heap} (keyed : Keyed h) {value : Value} {x : View}
    (seen : view h value = some x) : x.Keyed := by
  cases value with
  | null | boolean | integer | float =>
    obtain rfl := Option.some_inj.mp seen
    trivial
  | ref reference =>
    obtain ⟨cell, deref, rfl⟩ := view_ref seen
    have once := keyed reference cell
    generalize cell.data = data at once
    cases data with
    | mapCell entries => exact once entries deref rfl
    | _ => trivial

theorem lookupKey_isSome {key : Bytes} {entries : List (Text × Value)} :
    (∃ value, lookupKey key entries = some value) ↔ key ∈ keys entries := by
  constructor
  · rintro ⟨value, found⟩
    obtain ⟨entry, inside, same, -⟩ := lookupKey_some found
    exact List.mem_map.mpr ⟨entry, inside, same⟩
  · intro inside
    obtain ⟨entry, among, same⟩ := List.mem_map.mp inside
    have some : (entries.find? fun entry => entry.1.items == key).isSome = true :=
      List.find?_isSome.mpr ⟨entry, among, beq_iff_eq.mpr same⟩
    obtain ⟨first, found⟩ := Option.isSome_iff_exists.mp some
    exact ⟨first.2, by rw [lookupKey, found]; rfl⟩

/-- With every key once, the lookup finds the entry. -/
theorem lookupKey_of_mem {entries : List (Text × Value)} (once : (keys entries).Nodup)
    {entry : Text × Value} (inside : entry ∈ entries) :
    lookupKey entry.1.items entries = some entry.2 := by
  obtain ⟨value, found⟩ := lookupKey_isSome.mpr (List.mem_map.mpr ⟨entry, inside, rfl⟩)
  obtain ⟨other, among, same, rfl⟩ := lookupKey_some found
  rw [found, List.inj_on_of_nodup_map once among inside same]

theorem keys_same_length {a b : List (Text × Value)} (onceA : (keys a).Nodup)
    (onceB : (keys b).Nodup) :
    (a.length = b.length ∧ ∀ key ∈ keys a, key ∈ keys b) ↔
      ∀ key, key ∈ keys a ↔ key ∈ keys b := by
  have sizeA : (keys a).length = a.length := List.length_map _
  have sizeB : (keys b).length = b.length := List.length_map _
  constructor
  · rintro ⟨size, within⟩ key
    have perm := (onceA.subperm within).perm_of_length_le (by omega)
    exact perm.mem_iff
  · intro same
    have perm := (List.perm_ext_iff_of_nodup onceA onceB).mpr same
    exact ⟨by rw [← sizeA, ← sizeB, perm.length_eq], fun key i => (same key).mp i⟩

theorem if_some_iff {c : Prop} [Decidable c] :
    (∃ next : List (Value × Value), (if c then some [] else none) = some next) ↔ c := by
  by_cases holds : c
  · rw [if_pos holds]
    exact ⟨fun _ => holds, fun _ => ⟨[], rfl⟩⟩
  · rw [if_neg holds]
    exact ⟨fun ⟨_, absent⟩ => absurd absent nofun, fun yes => absurd yes holds⟩

/-- Values expand exactly when they are alike. -/
theorem View.expand_iff {x y : View} (keyedX : x.Keyed) (keyedY : y.Keyed) :
    (∃ next, x.expand y = some next) ↔ Alike x y := by
  have never {P : Prop} (no : ¬ P) :
      (∃ next : List (Value × Value), none = some next) ↔ P :=
    ⟨fun ⟨_, absent⟩ => absurd absent nofun, fun yes => absurd yes no⟩
  cases x with
  | list a =>
    cases y with
    | list b =>
      simp only [View.expand, Alike]
      by_cases size : a.length = b.length
      · rw [if_neg (not_not.mpr size)]
        exact ⟨fun _ => size, fun _ => ⟨_, rfl⟩⟩
      · rw [if_pos size]
        exact never size
    | _ => exact never id
  | map a =>
    cases y with
    | map b =>
      simp only [View.expand, Alike]
      rw [← keys_same_length keyedX keyedY]
      by_cases size : a.length = b.length
      · rw [if_neg (not_not.mpr size), mapM_some]
        refine ⟨fun found => ⟨size, ?_⟩, fun both entry inside => ?_⟩
        · intro key i
          obtain ⟨entry, inside, rfl⟩ := List.mem_map.mp i
          obtain ⟨pair, shape⟩ := found entry inside
          obtain ⟨value, looked, -⟩ := Option.map_eq_some_iff.mp shape
          exact lookupKey_isSome.mp ⟨value, looked⟩
        · obtain ⟨value, looked⟩ :=
            lookupKey_isSome.mpr (both.2 _ (List.mem_map.mpr ⟨entry, inside, rfl⟩))
          exact ⟨(entry.2, value), by rw [looked]; rfl⟩
      · rw [if_pos size]
        exact never fun both => size both.1
    | _ => exact never id
  | null =>
    cases y with
    | null => exact ⟨fun _ => trivial, fun _ => ⟨[], rfl⟩⟩
    | _ => exact never id
  | boolean a => cases y with | boolean b => exact if_some_iff | _ => exact never id
  | integer a =>
    cases y with
    | integer b => exact if_some_iff
    | float b => exact if_some_iff
    | _ => exact never id
  | float a =>
    cases y with
    | float b => exact if_some_iff
    | integer b => exact if_some_iff
    | _ => exact never id
  | string a => cases y with | string b => exact if_some_iff | _ => exact never id
  | bytes a => cases y with | bytes b => exact if_some_iff | _ => exact never id
  | identity a => cases y with | identity b => exact if_some_iff | _ => exact never id

theorem Element.of_list {h : Heap} {value element : Value} {s : PathStep} {values : List Value}
    (seen : view h value = some (.list values)) (at' : Element h value s element) :
    ∃ index, s = .index index ∧ values[index]? = some element := by
  cases at' with
  | index seen' found =>
    rw [seen] at seen'
    obtain rfl := View.list.inj (Option.some_inj.mp seen')
    exact ⟨_, rfl, found⟩
  | key seen' => rw [seen] at seen'; exact absurd (Option.some_inj.mp seen') nofun

theorem Element.of_map {h : Heap} {value element : Value} {s : PathStep}
    {entries : List (Text × Value)} (seen : view h value = some (.map entries))
    (at' : Element h value s element) :
    ∃ entry ∈ entries, s = .key entry.1.items ∧ entry.2 = element := by
  cases at' with
  | index seen' => rw [seen] at seen'; exact absurd (Option.some_inj.mp seen') nofun
  | key seen' inside =>
    rw [seen] at seen'
    obtain rfl := View.map.inj (Option.some_inj.mp seen')
    exact ⟨_, inside, rfl, rfl⟩

theorem Element.collection {h : Heap} {value element : Value} {s : PathStep}
    (at' : Element h value s element) : (∃ values, view h value = some (.list values)) ∨
      ∃ entries, view h value = some (.map entries) := by
  cases at' with
  | index seen => exact .inl ⟨_, seen⟩
  | key seen => exact .inr ⟨_, seen⟩

/-- The elements that are seen are the children of a live cell. -/
theorem view_children {h : Heap} {value : Value} {x : View} (seen : view h value = some x) :
    (∀ values, x = .list values → ∃ reference cell, dereference reference h = .ok cell ∧
      visitChildren cell.data = values) ∧
    (∀ entries, x = .map entries → ∃ reference cell, dereference reference h = .ok cell ∧
      visitChildren cell.data = entries.map Prod.snd) := by
  cases value with
  | null | boolean | integer | float =>
    obtain rfl := Option.some_inj.mp seen
    exact ⟨nofun, nofun⟩
  | ref reference =>
    obtain ⟨cell, deref, rfl⟩ := view_ref seen
    constructor
    · intro values same
      refine ⟨reference, cell, deref, ?_⟩
      generalize cell.data = data at same
      cases data with
      | listCell => exact View.list.inj same
      | _ => exact absurd same nofun
    · intro entries same
      refine ⟨reference, cell, deref, ?_⟩
      generalize cell.data = data at same
      cases data with
      | mapCell => exact congrArg _ (View.map.inj same)
      | _ => exact absurd same nofun

theorem Element.valid {h : Heap} (sound : Sound h) {value element : Value} {s : PathStep}
    (at' : Element h value s element) : Valid h element := by
  cases at' with
  | index seen found =>
    obtain ⟨reference, cell, deref, same⟩ := (view_children seen).1 _ rfl
    exact sound.edges reference cell deref _ (same ▸ List.mem_of_getElem? found)
  | key seen inside =>
    obtain ⟨reference, cell, deref, same⟩ := (view_children seen).2 _ rfl
    exact sound.edges reference cell deref _ (same ▸ List.mem_map.mpr ⟨_, inside, rfl⟩)

theorem if_nil {c : Prop} [Decidable c] {next : List (Value × Value)}
    (shape : (if c then some [] else none) = some next) : next = [] := by
  by_cases holds : c
  · rw [if_pos holds] at shape
    exact (Option.some_inj.mp shape).symm
  · rw [if_neg holds] at shape
    exact absurd shape nofun

/-- Only collections leave something to compare. -/
theorem View.expand_leaf {x y : View} {next : List (Value × Value)}
    (shape : x.expand y = some next) :
    next = [] ∨ (∃ a b, x = .list a ∧ y = .list b) ∨ ∃ a b, x = .map a ∧ y = .map b := by
  cases x with
  | list a =>
    cases y with
    | list b => exact .inr (.inl ⟨a, b, rfl, rfl⟩)
    | _ => exact absurd shape nofun
  | map a =>
    cases y with
    | map b => exact .inr (.inr ⟨a, b, rfl, rfl⟩)
    | _ => exact absurd shape nofun
  | null =>
    cases y with
    | null => exact .inl (Option.some_inj.mp shape).symm
    | _ => exact absurd shape nofun
  | boolean a =>
    cases y with
    | boolean b => exact .inl (if_nil shape)
    | _ => exact absurd shape nofun
  | integer a =>
    cases y with
    | integer b => exact .inl (if_nil shape)
    | float b => exact .inl (if_nil shape)
    | _ => exact absurd shape nofun
  | float a =>
    cases y with
    | float b => exact .inl (if_nil shape)
    | integer b => exact .inl (if_nil shape)
    | _ => exact absurd shape nofun
  | string a => cases y with | string b => exact .inl (if_nil shape) | _ => exact absurd shape nofun
  | bytes a => cases y with | bytes b => exact .inl (if_nil shape) | _ => exact absurd shape nofun
  | identity a =>
    cases y with
    | identity b => exact .inl (if_nil shape)
    | _ => exact absurd shape nofun

/-- The pairs to compare are the elements at the same step. -/
theorem element_pairs {h : Heap} {left right : Value} {x y : View} {next : List (Value × Value)}
    (viewL : view h left = some x) (viewR : view h right = some y) (keyed : y.Keyed)
    (shape : x.expand y = some next) (pair : Value × Value) (s : PathStep)
    (first : Element h left s pair.1) (second : Element h right s pair.2) : pair ∈ next := by
  obtain ⟨a, list⟩ | ⟨a, map⟩ := first.collection
  · rw [viewL] at list
    obtain rfl := Option.some_inj.mp list
    cases y with
    | list b =>
      obtain ⟨i, rfl, foundL⟩ := first.of_list viewL
      obtain ⟨j, same, foundR⟩ := second.of_list viewR
      obtain rfl := PathStep.index.inj same
      simp only [View.expand] at shape
      split at shape
      · exact absurd shape nofun
      · obtain rfl := Option.some_inj.mp shape
        exact List.mem_of_getElem? (List.getElem?_zip_eq_some.mpr ⟨foundL, foundR⟩)
    | _ => exact absurd shape nofun
  · rw [viewL] at map
    obtain rfl := Option.some_inj.mp map
    cases y with
    | map b =>
      obtain ⟨entry, inside, rfl, sameL⟩ := first.of_map viewL
      obtain ⟨other, among, same, sameR⟩ := second.of_map viewR
      have looked := lookupKey_of_mem keyed among
      simp only [View.expand] at shape
      split at shape
      · exact absurd shape nofun
      · refine (mapM_mem shape pair).mpr ⟨entry, inside, ?_⟩
        rw [PathStep.key.inj same, looked, sameL, sameR]
        rfl
    | _ => exact absurd shape nofun

theorem pairs_element {h : Heap} {left right : Value} {x y : View} {next : List (Value × Value)}
    (viewL : view h left = some x) (viewR : view h right = some y)
    (shape : x.expand y = some next) {pair : Value × Value} (inside : pair ∈ next) :
    ∃ s, Element h left s pair.1 ∧ Element h right s pair.2 := by
  obtain rfl | ⟨a, b, rfl, rfl⟩ | ⟨a, b, rfl, rfl⟩ := View.expand_leaf shape
  · exact nomatch inside
  · unfold View.expand at shape
    dsimp only at shape
    split at shape
    · exact absurd shape nofun
    · obtain rfl := Option.some_inj.mp shape
      obtain ⟨index, found⟩ := List.mem_iff_getElem?.mp inside
      have ⟨first, second⟩ := List.getElem?_zip_eq_some.mp found
      exact ⟨.index index, .index viewL first, .index viewR second⟩
  · unfold View.expand at shape
    dsimp only at shape
    split at shape
    · exact absurd shape nofun
    · obtain ⟨entry, among, found⟩ := (mapM_mem shape pair).mp inside
      obtain ⟨value, looked, rfl⟩ := Option.map_eq_some_iff.mp found
      obtain ⟨other, there, same, rfl⟩ := lookupKey_some looked
      exact ⟨.key entry.1.items, .key viewL among, same ▸ .key viewR there⟩

/-- To be bisimilar is to hold of no expansion that fails. -/
theorem bisimilar_iff {h : Heap} (sound : Sound h) (keyed : Keyed h) {left right : Value}
    (validL : Valid h left) (validR : Valid h right) :
    Bisimilar Alike h left right ↔ Safe (expandPair h) (left, right) := by
  have next {a b : Value} {x y : View} (viewL : view h a = some x) (viewR : view h b = some y) :
      expandPair h (a, b) = x.expand y := by
    rw [expandPair, viewL, Option.bind_some, viewR, Option.bind_some]
  constructor
  · intro bisimilar
    refine ⟨fun pair => ∃ path, Leads h left path pair.1 ∧ Leads h right path pair.2,
      ⟨[], .here, .here⟩, ?_⟩
    rintro ⟨a, b⟩ ⟨path, toA, toB⟩
    obtain ⟨x, y, viewL, viewR, alike⟩ := bisimilar path a b toA toB
    obtain ⟨pairs, shape⟩ := (View.expand_iff (keyed.view viewL) (keyed.view viewR)).mpr alike
    refine ⟨pairs, (next viewL viewR).trans shape, fun pair inside => ?_⟩
    obtain ⟨s, first, second⟩ := pairs_element viewL viewR shape inside
    exact ⟨path ++ [s], toA.snoc first, toB.snoc second⟩
  · intro safe path a b toA toB
    induction toA generalizing right with
    | here =>
      cases toB
      obtain ⟨x, viewL⟩ := view_valid validL
      obtain ⟨y, viewR⟩ := view_valid validR
      obtain ⟨pairs, shape, -⟩ := safe.expands
      rw [next viewL viewR] at shape
      exact ⟨x, y, viewL, viewR,
        (View.expand_iff (keyed.view viewL) (keyed.view viewR)).mp ⟨pairs, shape⟩⟩
    | step first _ ih =>
      cases toB with
      | step second rest =>
        obtain ⟨x, viewL⟩ := view_valid validL
        obtain ⟨y, viewR⟩ := view_valid validR
        obtain ⟨pairs, shape, inside⟩ := safe.expands
        rw [next viewL viewR] at shape
        have both := element_pairs viewL viewR (keyed.view viewR) shape (_, _) _ first second
        exact ih (first.valid sound) (second.valid sound) (inside _ both) rest

theorem floatEquals_comm (a b : UInt64) : floatEquals a b = floatEquals b a := by
  unfold floatEquals
  rw [Bool.and_comm (!isNaN a), Bool.beq_comm (a := a), Bool.and_comm (_ == 0)]

theorem Alike.symm {x y : View} (alike : Alike x y) : Alike y x := by
  cases x <;> cases y <;> simp only [Alike] at alike ⊢ <;>
    first
    | exact alike.symm
    | exact fun key => (alike key).symm
    | exact (floatEquals_comm _ _).trans alike

theorem Bisimilar.symm {h : Heap} {left right : Value} (bisimilar : Bisimilar Alike h left right) :
    Bisimilar Alike h right left := by
  intro path a b toA toB
  obtain ⟨x, y, viewL, viewR, alike⟩ := bisimilar path b a toB toA
  exact ⟨y, x, viewR, viewL, alike.symm⟩

end Baas.Script
