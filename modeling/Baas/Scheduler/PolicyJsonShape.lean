import Baas.Lib.Utf8
import Baas.Scheduler.PolicyJson

/-! What the checks of a text amount to: its octets, and the nodes and the height of the value
it spells. -/
namespace Baas.Scheduler

open Utf8

/-! The octets. -/

theorem isTrailing_iff (byte : UInt8) : isTrailing byte = true ↔ Tail byte := by
  have all := JsonText.byte_forall
    (p := fun byte => decide (byte &&& 0xC0 = 0x80) = decide (0x80 ≤ byte ∧ byte ≤ 0xBF))
    (by decide +kernel) byte
  unfold isTrailing Tail
  rw [decide_eq_true_eq] at all
  rw [all, decide_eq_true_eq]

theorem tail_iff {byte : UInt8} : Tail byte ↔ 128 ≤ byte.toNat ∧ byte.toNat ≤ 191 := by
  unfold Tail
  rw [UInt8.le_iff_toNat_le, UInt8.le_iff_toNat_le]
  rfl

theorem codePointAllowed_iff {minimum codePoint : Nat} :
    codePointAllowed minimum codePoint = true ↔ minimum ≤ codePoint ∧ codePoint ≤ 0x10FFFF ∧
      ¬ (0xD800 ≤ codePoint ∧ codePoint ≤ 0xDFFF) := by
  simp only [codePointAllowed, Bool.not_eq_true', Bool.or_eq_false_iff, Bool.and_eq_false_iff,
    decide_eq_false_iff_not]
  omega

theorem isValidUtf8_cons (lead : UInt8) (rest : Text) : isValidUtf8 (lead :: rest) =
    if lead.toNat ≤ 127 then isValidUtf8 rest
    else if 194 ≤ lead.toNat && lead.toNat ≤ 223 then
      match rest with
      | a :: rest =>
        isTrailing a && codePointAllowed 0x80 (joined (lead.toNat % 32) a) && isValidUtf8 rest
      | _ => false
    else if 224 ≤ lead.toNat && lead.toNat ≤ 239 then
      match rest with
      | a :: b :: rest =>
        isTrailing a && isTrailing b &&
          codePointAllowed 0x800 (joined (joined (lead.toNat % 16) a) b) && isValidUtf8 rest
      | _ => false
    else if 240 ≤ lead.toNat && lead.toNat ≤ 244 then
      match rest with
      | a :: b :: c :: rest =>
        isTrailing a && isTrailing b && isTrailing c &&
          codePointAllowed 0x10000 (joined (joined (joined (lead.toNat % 8) a) b) c) &&
          isValidUtf8 rest
      | _ => false
    else false := by
  rw [isValidUtf8.eq_def]
  simp only [UInt8.le_iff_toNat_le]
  rfl

section Multibyte

variable {lead a b c : UInt8} {rest : Text}

theorem allowed_two (least : 194 ≤ lead.toNat) (most : lead.toNat ≤ 223) (ta : Tail a) :
    codePointAllowed 0x80 (joined (lead.toNat % 32) a) = true := by
  rw [tail_iff] at ta
  rw [codePointAllowed_iff]
  unfold joined
  omega

/-- No overlong form and no surrogate. -/
theorem allowed_three (b : UInt8) (least : 224 ≤ lead.toNat) (most : lead.toNat ≤ 239)
    (ta : Tail a) :
    codePointAllowed 0x800 (joined (joined (lead.toNat % 16) a) b) = true ↔
      (lead.toNat = 224 → 160 ≤ a.toNat) ∧ (lead.toNat = 237 → a.toNat ≤ 159) := by
  rw [tail_iff] at ta
  rw [codePointAllowed_iff]
  unfold joined
  omega

/-- No overlong form and nothing above the last code point. -/
theorem allowed_four (b c : UInt8) (least : 240 ≤ lead.toNat) (most : lead.toNat ≤ 244)
    (ta : Tail a) :
    codePointAllowed 0x10000 (joined (joined (joined (lead.toNat % 8) a) b) c) = true ↔
      (lead.toNat = 240 → 144 ≤ a.toNat) ∧ (lead.toNat = 244 → a.toNat ≤ 143) := by
  rw [tail_iff] at ta
  rw [codePointAllowed_iff]
  unfold joined
  omega


theorem valid_two (least : 194 ≤ lead.toNat) (most : lead.toNat ≤ 223) (ta : Tail a)
    (later : isValidUtf8 rest = true) : isValidUtf8 (lead :: a :: rest) = true := by
  have range : (decide (194 ≤ lead.toNat) && decide (lead.toNat ≤ 223)) = true := by
    rw [decide_eq_true least, decide_eq_true most, Bool.and_self]
  rw [isValidUtf8_cons, if_neg (by omega), if_pos range]
  simp only [(isTrailing_iff a).mpr ta, allowed_two least most ta, later, Bool.and_self]

theorem valid_three (least : 224 ≤ lead.toNat) (most : lead.toNat ≤ 239) (ta : Tail a)
    (tb : Tail b) (long : lead.toNat = 224 → 160 ≤ a.toNat)
    (plain : lead.toNat = 237 → a.toNat ≤ 159) (later : isValidUtf8 rest = true) :
    isValidUtf8 (lead :: a :: b :: rest) = true := by
  have allowed := (allowed_three b least most ta).mpr ⟨long, plain⟩
  have range : (decide (224 ≤ lead.toNat) && decide (lead.toNat ≤ 239)) = true := by
    rw [decide_eq_true least, decide_eq_true most, Bool.and_self]
  have other : ¬ (decide (194 ≤ lead.toNat) && decide (lead.toNat ≤ 223)) = true := by
    rw [Bool.and_eq_true, decide_eq_true_eq, decide_eq_true_eq]
    omega
  rw [isValidUtf8_cons, if_neg (by omega), if_neg other, if_pos range]
  simp only [(isTrailing_iff a).mpr ta, (isTrailing_iff b).mpr tb, allowed, later, Bool.and_self]

theorem valid_four (least : 240 ≤ lead.toNat) (most : lead.toNat ≤ 244) (ta : Tail a)
    (tb : Tail b) (tc : Tail c) (long : lead.toNat = 240 → 144 ≤ a.toNat)
    (low : lead.toNat = 244 → a.toNat ≤ 143) (later : isValidUtf8 rest = true) :
    isValidUtf8 (lead :: a :: b :: c :: rest) = true := by
  have allowed := (allowed_four b c least most ta).mpr ⟨long, low⟩
  have range : (decide (240 ≤ lead.toNat) && decide (lead.toNat ≤ 244)) = true := by
    rw [decide_eq_true least, decide_eq_true most, Bool.and_self]
  have two : ¬ (decide (194 ≤ lead.toNat) && decide (lead.toNat ≤ 223)) = true := by
    rw [Bool.and_eq_true, decide_eq_true_eq, decide_eq_true_eq]
    omega
  have three : ¬ (decide (224 ≤ lead.toNat) && decide (lead.toNat ≤ 239)) = true := by
    rw [Bool.and_eq_true, decide_eq_true_eq, decide_eq_true_eq]
    omega
  rw [isValidUtf8_cons, if_neg (by omega), if_neg two, if_neg three, if_pos range]
  simp only [(isTrailing_iff a).mpr ta, (isTrailing_iff b).mpr tb, (isTrailing_iff c).mpr tc,
    allowed, later, Bool.and_self]

theorem character_three (least : 224 ≤ lead.toNat) (most : lead.toNat ≤ 239) (ta : Tail a)
    (tb : Tail b) (long : lead.toNat = 224 → 160 ≤ a.toNat)
    (plain : lead.toNat = 237 → a.toNat ≤ 159) : Character [lead, a, b] := by
  by_cases first : lead.toNat = 224
  · cases UInt8.toNat_inj.mp (first.trans (by rfl : 224 = (0xE0 : UInt8).toNat))
    exact .afterE0 (UInt8.le_iff_toNat_le.mpr (long first)) ta.2 tb
  by_cases surrogate : lead.toNat = 237
  · cases UInt8.toNat_inj.mp (surrogate.trans (by rfl : 237 = (0xED : UInt8).toNat))
    exact .afterED ta.1 (UInt8.le_iff_toNat_le.mpr (plain surrogate)) tb
  by_cases high : lead.toNat ≤ 236
  · have above : 225 ≤ lead.toNat := by omega
    exact .three (UInt8.le_iff_toNat_le.mpr above) (UInt8.le_iff_toNat_le.mpr high) ta tb
  · have above : 238 ≤ lead.toNat := by omega
    exact .threeHigh (UInt8.le_iff_toNat_le.mpr above) (UInt8.le_iff_toNat_le.mpr most) ta tb

theorem character_four (least : 240 ≤ lead.toNat) (most : lead.toNat ≤ 244) (ta : Tail a)
    (tb : Tail b) (tc : Tail c) (long : lead.toNat = 240 → 144 ≤ a.toNat)
    (low : lead.toNat = 244 → a.toNat ≤ 143) : Character [lead, a, b, c] := by
  by_cases first : lead.toNat = 240
  · cases UInt8.toNat_inj.mp (first.trans (by rfl : 240 = (0xF0 : UInt8).toNat))
    exact .afterF0 (UInt8.le_iff_toNat_le.mpr (long first)) ta.2 tb tc
  by_cases last : lead.toNat = 244
  · cases UInt8.toNat_inj.mp (last.trans (by rfl : 244 = (0xF4 : UInt8).toNat))
    exact .afterF4 ta.1 (UInt8.le_iff_toNat_le.mpr (low last)) tb tc
  · have above : 241 ≤ lead.toNat := by omega
    have below : lead.toNat ≤ 243 := by omega
    exact .four (UInt8.le_iff_toNat_le.mpr above) (UInt8.le_iff_toNat_le.mpr below) ta tb tc

end Multibyte

theorem isValidUtf8_of_octets {text : Text} (octets : Octets text) : isValidUtf8 text = true := by
  have value {a b : UInt8} (less : a ≤ b) : a.toNat ≤ b.toNat := UInt8.le_iff_toNat_le.mp less
  induction octets with
  | nil => rfl
  | cons character _ ih =>
    cases character with
    | one low =>
      rw [List.cons_append, List.nil_append, isValidUtf8_cons]
      exact (if_pos (value low)).trans ih
    | two la ha ta => exact valid_two (value la) (value ha) ta ih
    | @afterE0 b c lb hb tc =>
      have tail : Tail b := ⟨UInt8.le_trans (by decide) lb, hb⟩
      exact valid_three (by decide) (by decide) tail tc (fun _ => value lb) nofun ih
    | @three a b c la ha tb tc =>
      have above : 225 ≤ a.toNat := value la
      have below : a.toNat ≤ 236 := value ha
      exact valid_three (by omega) (by omega) tb tc (by omega) (by omega) ih
    | @afterED b c lb hb tc =>
      have tail : Tail b := ⟨lb, UInt8.le_trans hb (by decide)⟩
      exact valid_three (by decide) (by decide) tail tc nofun (fun _ => value hb) ih
    | @threeHigh a b c la ha tb tc =>
      have above : 238 ≤ a.toNat := value la
      have below : a.toNat ≤ 239 := value ha
      exact valid_three (by omega) below tb tc (by omega) (by omega) ih
    | @afterF0 b c d lb hb tc td =>
      have tail : Tail b := ⟨UInt8.le_trans (by decide) lb, hb⟩
      exact valid_four (by decide) (by decide) tail tc td (fun _ => value lb) nofun ih
    | @four a b c d la ha tb tc td =>
      have above : 241 ≤ a.toNat := value la
      have below : a.toNat ≤ 243 := value ha
      exact valid_four (by omega) (by omega) tb tc td (by omega) (by omega) ih
    | @afterF4 b c d lb hb tc td =>
      have tail : Tail b := ⟨lb, UInt8.le_trans hb (by decide)⟩
      exact valid_four (by decide) (by decide) tail tc td nofun (fun _ => value hb) ih

theorem octets_of_isValidUtf8 {text : Text} (valid : isValidUtf8 text = true) : Octets text := by
  induction size : text.length using Nat.strongRecOn generalizing text with
  | _ n ih =>
    subst size
    cases text with
    | nil => exact .nil
    | cons lead rest =>
      rw [isValidUtf8_cons] at valid
      split at valid
      · next low =>
        exact .cons (.one (UInt8.le_iff_toNat_le.mpr low)) (ih _ (Nat.lt_succ_self _) valid rfl)
      split at valid
      · next two =>
        rw [Bool.and_eq_true, decide_eq_true_eq, decide_eq_true_eq] at two
        match rest, valid with
        | a :: rest, valid =>
          simp only [Bool.and_eq_true, isTrailing_iff] at valid
          have character : Character [lead, a] := .two (UInt8.le_iff_toNat_le.mpr two.1)
            (UInt8.le_iff_toNat_le.mpr two.2) valid.1.1
          exact .cons character (ih _ (by simp only [List.length_cons]; omega) valid.2 rfl)
      split at valid
      · next three =>
        rw [Bool.and_eq_true, decide_eq_true_eq, decide_eq_true_eq] at three
        match rest, valid with
        | a :: b :: rest, valid =>
          simp only [Bool.and_eq_true, isTrailing_iff] at valid
          obtain ⟨⟨⟨ta, tb⟩, allowed⟩, later⟩ := valid
          obtain ⟨long, plain⟩ := (allowed_three _ three.1 three.2 ta).mp allowed
          have character := character_three three.1 three.2 ta tb long plain
          exact .cons character (ih _ (by simp only [List.length_cons]; omega) later rfl)
      split at valid
      · next four =>
        rw [Bool.and_eq_true, decide_eq_true_eq, decide_eq_true_eq] at four
        match rest, valid with
        | a :: b :: c :: rest, valid =>
          simp only [Bool.and_eq_true, isTrailing_iff] at valid
          obtain ⟨⟨⟨⟨ta, tb⟩, tc⟩, allowed⟩, later⟩ := valid
          obtain ⟨long, low⟩ := (allowed_four _ _ four.1 four.2 ta).mp allowed
          have character := character_four four.1 four.2 ta tb tc long low
          exact .cons character (ih _ (by simp only [List.length_cons]; omega) later rfl)
      · cases valid

/-- The check accepts exactly the texts that are UTF-8. -/
theorem isValidUtf8_iff {text : Text} : isValidUtf8 text = true ↔ Octets text :=
  ⟨octets_of_isValidUtf8, isValidUtf8_of_octets⟩

/-! The shape. -/

mutual

/-- Values and member names, counted as the shape check counts them. -/
def Json.nodes : Json → Nat
  | .array items => 1 + itemNodes items
  | .object members => 1 + memberNodes members
  | _ => 1

def itemNodes : List Json → Nat
  | [] => 0
  | item :: rest => item.nodes + itemNodes rest

def memberNodes : List (Text × Json) → Nat
  | [] => 0
  | (_, value) :: rest => 1 + value.nodes + memberNodes rest

end

mutual

def Json.height : Json → Nat
  | .array items => 1 + itemHeight items
  | .object members => 1 + memberHeight members
  | _ => 0

def itemHeight : List Json → Nat
  | [] => 0
  | item :: rest => max item.height (itemHeight rest)

def memberHeight : List (Text × Json) → Nat
  | [] => 0
  | (_, value) :: rest => max value.height (memberHeight rest)

end

theorem itemNodes_eq_sum (items : List Json) : itemNodes items = (items.map Json.nodes).sum := by
  induction items with
  | nil => rfl
  | cons item rest ih => rw [itemNodes, ih, List.map_cons, List.sum_cons]

theorem Json.nodes_pos (value : Json) : 1 ≤ value.nodes := by
  cases value <;> simp only [Json.nodes] <;> omega

theorem itemHeight_le {items : List Json} {most : Nat} (low : ∀ item ∈ items, item.height ≤ most) :
    itemHeight items ≤ most := by
  induction items with
  | nil => exact Nat.zero_le _
  | cons item rest ih =>
    rw [itemHeight]
    have later := ih (fun other member => low other (List.mem_cons_of_mem item member))
    exact Nat.max_le.mpr ⟨low item List.mem_cons_self, later⟩

/-- What a stretch of so many nodes, so high, does to the shape. -/
def ShapeSax.pass (limits : ParseLimits) (nodes height : Nat) (shape : ShapeSax) :
    Except ParseError ShapeSax :=
  if shape.nodes + nodes ≤ limits.maximumNodes ∧ shape.depth + height ≤ limits.maximumDepth then
    .ok { shape with nodes := shape.nodes + nodes }
  else .error .limitExceeded

/-- The shape so far keeps the limits. -/
def ShapeSax.Within (limits : ParseLimits) (shape : ShapeSax) : Prop :=
  shape.nodes ≤ limits.maximumNodes ∧ shape.depth ≤ limits.maximumDepth

section Shape

variable {limits : ParseLimits} {shape : ShapeSax} {nodes height more other : Nat}

theorem pass_none (within : shape.Within limits) : shape.pass limits 0 0 = .ok shape := by
  unfold ShapeSax.pass
  rw [if_pos ⟨within.1, within.2⟩]
  rfl

theorem pass_pass {rest : ShapeSax → Except ParseError ShapeSax}
    (within : shape.Within limits)
    (then_pass : ∀ next : ShapeSax, next.Within limits →
      rest next = next.pass limits more other) :
    shape.pass limits nodes height >>= rest =
      shape.pass limits (nodes + more) (max height other) := by
  have deep := within.2
  by_cases first : shape.nodes + nodes ≤ limits.maximumNodes ∧
      shape.depth + height ≤ limits.maximumDepth
  · have start : shape.pass limits nodes height = .ok { shape with nodes := shape.nodes + nodes } :=
      if_pos first
    rw [start]
    have next := then_pass { shape with nodes := shape.nodes + nodes } ⟨first.1, deep⟩
    change rest { shape with nodes := shape.nodes + nodes } = _
    refine next.trans ?_
    unfold ShapeSax.pass
    by_cases second : shape.nodes + nodes + more ≤ limits.maximumNodes ∧
        shape.depth + other ≤ limits.maximumDepth
    · rw [if_pos second, if_pos ⟨by omega, by omega⟩, Nat.add_assoc]
    · rw [if_neg second, if_neg]
      intro both
      exact second ⟨by omega, by omega⟩
  · have start : shape.pass limits nodes height = .error .limitExceeded := if_neg first
    have whole : shape.pass limits (nodes + more) (max height other) = .error .limitExceeded := by
      unfold ShapeSax.pass
      rw [if_neg]
      intro both
      exact first ⟨by omega, by omega⟩
    rw [start, whole]
    rfl

theorem node_eq_pass (within : shape.Within limits) :
    shape.node limits = shape.pass limits 1 0 := by
  have deep := within.2
  unfold ShapeSax.node ShapeSax.pass
  by_cases fits : shape.nodes + 1 ≤ limits.maximumNodes
  · rw [if_neg (by omega), if_pos ⟨fits, deep⟩]
  · rw [if_pos (by omega), if_neg (by omega)]

theorem scalar_eq_pass (within : shape.Within limits) :
    [SaxEvent.scalar].foldlM (ShapeSax.handle limits) shape = shape.pass limits 1 0 := by
  rw [List.foldlM_cons]
  simp only [List.foldlM_nil, bind_pure, ShapeSax.handle, node_eq_pass within]

/-- A container: one node, one level deeper for what it holds. -/
theorem container_eq_pass {events : List SaxEvent} (within : shape.Within limits)
    (inside : ∀ next : ShapeSax, next.Within limits →
      events.foldlM (ShapeSax.handle limits) next = next.pass limits nodes height) :
    (SaxEvent.containerStart :: (events ++ [.containerEnd])).foldlM (ShapeSax.handle limits) shape =
      shape.pass limits (1 + nodes) (1 + height) := by
  have deep := within.2
  rw [List.foldlM_cons]
  change (shape.node limits >>= fun next => if next.depth + 1 > limits.maximumDepth then
    Except.error ParseError.limitExceeded else .ok { next with depth := next.depth + 1 }) >>=
      (fun next => (events ++ [SaxEvent.containerEnd]).foldlM (ShapeSax.handle limits) next) = _
  rw [node_eq_pass within]
  unfold ShapeSax.pass
  by_cases start : shape.nodes + 1 ≤ limits.maximumNodes ∧ shape.depth + 1 ≤ limits.maximumDepth
  · rw [if_pos ⟨start.1, within.2⟩]
    change (if shape.depth + 1 > limits.maximumDepth then Except.error ParseError.limitExceeded
      else .ok (ShapeSax.mk (shape.depth + 1) (shape.nodes + 1))) >>= _ = _
    rw [if_neg (by omega)]
    change (events ++ [SaxEvent.containerEnd]).foldlM (ShapeSax.handle limits) _ = _
    rw [List.foldlM_append, inside _ ⟨start.1, start.2⟩]
    unfold ShapeSax.pass
    by_cases all : shape.nodes + 1 + nodes ≤ limits.maximumNodes ∧
        shape.depth + 1 + height ≤ limits.maximumDepth
    · rw [if_pos all, if_pos ⟨by omega, by omega⟩, ← Nat.add_assoc]
      rfl
    · rw [if_neg all, if_neg (by omega)]
      rfl
  · rw [if_neg (by omega : ¬ (shape.nodes + (1 + nodes) ≤ limits.maximumNodes ∧ _))]
    by_cases one : shape.nodes + 1 ≤ limits.maximumNodes ∧ shape.depth + 0 ≤ limits.maximumDepth
    · rw [if_pos one]
      change (if shape.depth + 1 > limits.maximumDepth then Except.error ParseError.limitExceeded
        else .ok (ShapeSax.mk (shape.depth + 1) (shape.nodes + 1))) >>= _ = _
      rw [if_pos (by omega)]
      rfl
    · rw [if_neg one]
      rfl

end Shape

mutual

theorem Json.shape (limits : ParseLimits) : ∀ (value : Json) (shape : ShapeSax),
    shape.Within limits →
    value.events.foldlM (ShapeSax.handle limits) shape =
      shape.pass limits value.nodes value.height
  | .array items, _, within => container_eq_pass within (itemShape limits items)
  | .object members, _, within => container_eq_pass within (memberShape limits members)
  | .null, _, within | .boolean _, _, within | .integer _, _, within | .float _, _, within
  | .string _, _, within => scalar_eq_pass within

theorem itemShape (limits : ParseLimits) : ∀ (items : List Json) (shape : ShapeSax),
    shape.Within limits →
    (itemEvents items).foldlM (ShapeSax.handle limits) shape =
      shape.pass limits (itemNodes items) (itemHeight items)
  | [], _, within => (pass_none within).symm
  | item :: rest, shape, within => by
    rw [itemEvents, List.foldlM_append, Json.shape limits item shape within]
    exact pass_pass within (itemShape limits rest)

theorem memberShape (limits : ParseLimits) : ∀ (members : List (Text × Json)) (shape : ShapeSax),
    shape.Within limits →
    (memberEvents members).foldlM (ShapeSax.handle limits) shape =
      shape.pass limits (memberNodes members) (memberHeight members)
  | [], _, within => (pass_none within).symm
  | (_, value) :: rest, shape, within => by
    have inside (next : ShapeSax) (fine : next.Within limits) :
        (value.events ++ memberEvents rest).foldlM (ShapeSax.handle limits) next =
          next.pass limits (value.nodes + memberNodes rest)
            (max value.height (memberHeight rest)) := by
      rw [List.foldlM_append, Json.shape limits value next fine]
      exact pass_pass fine (memberShape limits rest)
    rw [memberEvents, List.foldlM_cons, ShapeSax.handle, node_eq_pass within,
      pass_pass within inside, memberNodes, memberHeight, Nat.add_assoc, Nat.zero_max]

end

/-- The shape check asks for few nodes and for little height. -/
theorem checkShape_eq (limits : ParseLimits) (value : Json) :
    checkShape limits value.events =
      if value.nodes ≤ limits.maximumNodes ∧ value.height ≤ limits.maximumDepth then
        .ok { nodes := value.nodes }
      else .error .limitExceeded := by
  have run := Json.shape limits value {} ⟨Nat.zero_le _, Nat.zero_le _⟩
  unfold checkShape
  rw [run]
  unfold ShapeSax.pass
  rw [Nat.zero_add, Nat.zero_add]

end Baas.Scheduler
