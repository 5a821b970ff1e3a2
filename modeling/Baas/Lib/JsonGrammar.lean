import Mathlib.Data.List.Nodup
import Mathlib.Data.List.TakeWhile
import Baas.Lib.JsonText

/-! The grammar of JSON between two places of a text: what stands from the first to the second. -/
namespace JsonGrammar

open JsonText

abbrev Text := List UInt8

/-- Whitespace, or nothing. -/
def Gap (text rest : Text) : Prop := ∃ space, (∀ c ∈ space, isWhitespace c = true) ∧
  text = space ++ rest

inductive Quad : Text → Nat → Text → Prop
  | digits {a b c d : UInt8} {w x y z : Nat} {rest : Text} : hexDigit a = some w →
      hexDigit b = some x → hexDigit c = some y → hexDigit d = some z →
      Quad (a :: b :: c :: d :: rest) (((w * 16 + x) * 16 + y) * 16 + z) rest

/-- The letters of the short escapes and their bytes. -/
def escapes : List (UInt8 × UInt8) :=
  [(34, 34), (92, 92), (47, 47), (98, 8), (102, 12), (110, 10), (114, 13), (116, 9)]

def High (unit : Nat) : Prop := 0xD800 ≤ unit ∧ unit ≤ 0xDBFF

def Low (unit : Nat) : Prop := 0xDC00 ≤ unit ∧ unit ≤ 0xDFFF

/-- The content of a string up to its closing quote. -/
inductive Body : Text → Text → Text → Prop
  | close {rest : Text} : Body [] (34 :: rest) rest
  | plain {c : UInt8} {content text rest : Text} : ¬ c < 0x20 → c ≠ 34 → c ≠ 92 →
      Body content text rest → Body (c :: content) (c :: text) rest
  | letter {letter byte : UInt8} {content text rest : Text} : (letter, byte) ∈ escapes →
      Body content text rest → Body (byte :: content) (92 :: letter :: text) rest
  | unit {n : Nat} {digits content text rest : Text} : Quad digits n text → ¬ High n → ¬ Low n →
      Body content text rest → Body (utf8Bytes n ++ content) (92 :: 117 :: digits) rest
  | pair {high low : Nat} {first second content text rest : Text} :
      Quad first high (92 :: 117 :: second) → High high → Quad second low text → Low low →
      Body content text rest →
      Body (utf8Bytes (0x10000 + (high - 0xD800) * 1024 + (low - 0xDC00)) ++ content)
        (92 :: 117 :: first) rest

def Quoted (content text rest : Text) : Prop := ∃ source, text = 34 :: source ∧
  Body content source rest

/-- Values apart by commas, up to the closing bracket. -/
inductive Sequence {α : Type} (R : α → Text → Text → Prop) (bracket : UInt8) :
    List α → Text → Text → Prop
  | last {v : α} {text a b rest : Text} : Gap text a → R v a b → Gap b (bracket :: rest) →
      Sequence R bracket [v] text rest
  | more {v : α} {vs : List α} {text a b c rest : Text} : Gap text a → R v a b →
      Gap b (44 :: c) → Sequence R bracket vs c rest → Sequence R bracket (v :: vs) text rest

inductive Elements {α : Type} (R : α → Text → Text → Prop) (bracket : UInt8) :
    List α → Text → Text → Prop
  | none {text rest : Text} : Gap text (bracket :: rest) → Elements R bracket [] text rest
  | some {vs : List α} {text rest : Text} : Sequence R bracket vs text rest →
      Elements R bracket vs text rest

def Member {α : Type} (R : α → Text → Text → Prop) (member : Text × α) (text rest : Text) : Prop :=
  ∃ a b c, Quoted member.1 text a ∧ Gap a (58 :: b) ∧ Gap b c ∧ R member.2 c rest

variable {α : Type} {R : α → Text → Text → Prop} {text rest : Text}

/-- A step of a parser and the steps behind it. -/
theorem bind_ok {ε α β : Type} {x : Except ε α} {f : α → Except ε β} {b : β} :
    x >>= f = .ok b ↔ ∃ a, x = .ok a ∧ f a = .ok b := by
  cases x with
  | error e => exact ⟨fun h => (by cases h), fun ⟨_, h, _⟩ => (by cases h)⟩
  | ok a => exact ⟨fun h => ⟨a, rfl, h⟩, fun ⟨_, same, h⟩ => by
      cases same
      exact h⟩

theorem Gap.refl (text : Text) : Gap text text := ⟨[], by simp, rfl⟩

theorem Gap.trans {middle : Text} (first : Gap text middle) (second : Gap middle rest) :
    Gap text rest := by
  obtain ⟨space, light, rfl⟩ := first
  obtain ⟨space', light', rfl⟩ := second
  refine ⟨space ++ space', fun c member => ?_, (List.append_assoc _ _ _).symm⟩
  rcases List.mem_append.mp member with member | member
  · exact light c member
  · exact light' c member

theorem Gap.length (gap : Gap text rest) : rest.length ≤ text.length := by
  obtain ⟨space, _, rfl⟩ := gap
  simp

theorem gap_skip (text : Text) : Gap text (skipWhitespace text) := by
  refine ⟨text.takeWhile isWhitespace, fun c member => ?_, ?_⟩
  · exact List.mem_takeWhile_imp member
  · exact List.takeWhile_append_dropWhile.symm

/-- Up to a byte that is no space there is one gap. -/
theorem Gap.skip {c : UInt8} (gap : Gap text (c :: rest)) (dark : isWhitespace c = false) :
    skipWhitespace text = c :: rest := by
  obtain ⟨space, light, rfl⟩ := gap
  rw [skipWhitespace, List.dropWhile_append_of_pos light]
  exact List.dropWhile_cons_of_neg (by simp [dark])

theorem Gap.skip_end (gap : Gap text []) : skipWhitespace text = [] := by
  obtain ⟨space, light, rfl⟩ := gap
  rw [skipWhitespace, List.append_nil, List.dropWhile_eq_nil_iff]
  exact light

theorem Quad.length {n : Nat} (quad : Quad text n rest) : text.length = rest.length + 4 := by
  cases quad
  rfl

theorem Quad.small {n : Nat} (quad : Quad text n rest) : n ≤ 0xFFFF := by
  have digit {c : UInt8} {x : Nat} (h : hexDigit c = some x) : x ≤ 15 := by
    unfold hexDigit at h
    simp only [UInt8.le_iff_toNat_le] at h
    split at h
    · next range =>
      cases h
      have := range.2
      simp at this
      omega
    split at h
    · next range =>
      cases h
      have := range.2
      simp at this
      omega
    split at h
    · next range =>
      cases h
      have := range.2
      simp at this
      omega
    · cases h
  cases quad with
  | digits a b c d =>
    have := digit a
    have := digit b
    have := digit c
    have := digit d
    omega

theorem utf8Bytes_length (n : Nat) : (utf8Bytes n).length ≤ 4 ∧ (n ≤ 0xFFFF →
    (utf8Bytes n).length ≤ 3) ∧ 1 ≤ (utf8Bytes n).length := by
  unfold utf8Bytes
  split
  · simp
  split
  · simp
  split
  · simp
  · next large =>
    refine ⟨by simp, fun small => absurd small large, by simp⟩

/-- A string has no more bytes than its source. -/
theorem Body.length {content : Text} (body : Body content text rest) :
    content.length + rest.length + 1 ≤ text.length := by
  induction body with
  | close => simp
  | plain _ _ _ _ ih | letter _ _ ih =>
    simp only [List.length_cons]
    omega
  | @unit n digits content text rest quad _ _ _ ih =>
    have short := (utf8Bytes_length n).2.1 quad.small
    have more := quad.length
    simp only [List.length_cons, List.length_append]
    omega
  | @pair high low first second content text rest quad _ quad' _ _ ih =>
    have short := (utf8Bytes_length (0x10000 + (high - 0xD800) * 1024 + (low - 0xDC00))).1
    have more := quad.length
    have more' := quad'.length
    simp only [List.length_cons, List.length_append] at more ⊢
    omega

theorem Quoted.length {content : Text} (quoted : Quoted content text rest) :
    content.length + rest.length + 2 ≤ text.length := by
  obtain ⟨source, rfl, body⟩ := quoted
  have := body.length
  rw [List.length_cons]
  omega

theorem Sequence.length {bracket : UInt8} {vs : List α} (seq : Sequence R bracket vs text rest)
    (shrinks : ∀ v a b, R v a b → b.length ≤ a.length) :
    vs.length + rest.length ≤ text.length := by
  induction seq with
  | last before value after =>
    have := before.length
    have := shrinks _ _ _ value
    have := after.length
    simp only [List.length_cons, List.length_nil] at *
    omega
  | more before value after _ ih =>
    have := before.length
    have := shrinks _ _ _ value
    have := after.length
    simp only [List.length_cons] at *
    omega

theorem Elements.length {bracket : UInt8} {vs : List α} (elements : Elements R bracket vs text rest)
    (shrinks : ∀ v a b, R v a b → b.length ≤ a.length) :
    vs.length + rest.length ≤ text.length := by
  cases elements with
  | none gap =>
    have := gap.length
    simp only [List.length_cons, List.length_nil] at *
    omega
  | some seq => exact seq.length shrinks

theorem Member.length {member : Text × α} (shrinks : ∀ v a b, R v a b → b.length ≤ a.length)
    (spelled : Member R member text rest) : rest.length ≤ text.length := by
  obtain ⟨a, b, c, quoted, before, after, value⟩ := spelled
  have := quoted.length
  have := before.length
  have := after.length
  have := shrinks _ _ _ value
  simp only [List.length_cons] at *
  omega

theorem Sequence.behind {start : Text} {bracket : UInt8} {vs : List α} (gap : Gap start text)
    (seq : Sequence R bracket vs text rest) : Sequence R bracket vs start rest := by
  cases seq with
  | last before value after => exact .last (gap.trans before) value after
  | more before value after seq => exact .more (gap.trans before) value after seq

/-- Where the first value of a sequence begins. -/
theorem Sequence.first {bracket : UInt8} {vs : List α} (seq : Sequence R bracket vs text rest) :
    ∃ v a b, Gap text a ∧ R v a b ∧ Sequence R bracket vs a rest := by
  cases seq with
  | last before value after => exact ⟨_, _, _, before, value, .last (Gap.refl _) value after⟩
  | more before value after seq =>
    exact ⟨_, _, _, before, value, .more (Gap.refl _) value after seq⟩

theorem Sequence.imp {S : α → Text → Text → Prop} {bracket : UInt8} {vs : List α}
    (seq : Sequence R bracket vs text rest) (each : ∀ v ∈ vs, ∀ a b, R v a b → S v a b) :
    Sequence S bracket vs text rest := by
  induction seq with
  | last before value after => exact .last before (each _ List.mem_cons_self _ _ value) after
  | more before value after _ ih =>
    exact .more before (each _ List.mem_cons_self _ _ value) after
      (ih (fun v member => each v (List.mem_cons_of_mem _ member)))

theorem Elements.imp {S : α → Text → Text → Prop} {bracket : UInt8} {vs : List α}
    (elements : Elements R bracket vs text rest) (each : ∀ v ∈ vs, ∀ a b, R v a b → S v a b) :
    Elements S bracket vs text rest := by
  cases elements with
  | none gap => exact .none gap
  | some seq => exact .some (seq.imp each)

/-! A text spells one thing only. -/

/-- What a text spells from its first place, and how far, is determined. -/
def Clear (R : α → Text → Text → Prop) : Prop :=
  ∀ ⦃v v' text rest rest'⦄, R v text rest → R v' text rest' → v = v' ∧ rest = rest'

/-- What is spelled begins with no space and not with the byte. -/
def Starts (R : α → Text → Text → Prop) (other : UInt8) : Prop :=
  ∀ ⦃v text rest⦄, R v text rest →
    ∃ c more, text = c :: more ∧ isWhitespace c = false ∧ c ≠ other

theorem Gap.clear {c d : UInt8} {rest' : Text} (first : Gap text (c :: rest))
    (second : Gap text (d :: rest')) (dark : isWhitespace c = false)
    (dark' : isWhitespace d = false) : c = d ∧ rest = rest' :=
  List.cons.inj ((first.skip dark).symm.trans (second.skip dark'))

theorem Quad.clear : Clear (fun n text rest => Quad text n rest) := by
  intro n n' text rest rest' first second
  cases first with
  | digits a b c d =>
    cases second with
    | digits a' b' c' d' =>
      cases a.symm.trans a'
      cases b.symm.trans b'
      cases c.symm.trans c'
      cases d.symm.trans d'
      exact ⟨rfl, rfl⟩

theorem escapes_clear {letter byte byte' : UInt8} (first : (letter, byte) ∈ escapes)
    (second : (letter, byte') ∈ escapes) : byte = byte' := by
  have apart : (escapes.map Prod.fst).Nodup := by decide
  exact (Prod.mk.inj (List.inj_on_of_nodup_map apart first second rfl)).2

theorem unicode_no_escape {byte : UInt8} : (117, byte) ∉ escapes := by
  intro there
  have letter : (117 : UInt8) ∈ escapes.map Prod.fst := List.mem_map_of_mem there
  revert letter
  decide

theorem Body.clear : Clear Body := by
  intro content content' text rest rest' first second
  induction first generalizing content' with
  | close =>
    cases second with
    | close => exact ⟨rfl, rfl⟩
    | plain _ quote => exact absurd rfl quote
  | plain _ quote slash _ ih =>
    cases second with
    | close => exact absurd rfl quote
    | plain _ _ _ later =>
      obtain ⟨rfl, rfl⟩ := ih later
      exact ⟨rfl, rfl⟩
    | letter | unit | pair => exact absurd rfl slash
  | letter escape _ ih =>
    cases second with
    | plain _ _ slash => exact absurd rfl slash
    | letter escape' later =>
      obtain ⟨rfl, rfl⟩ := ih later
      rw [escapes_clear escape escape']
      exact ⟨rfl, rfl⟩
    | unit | pair => exact absurd escape unicode_no_escape
  | unit quad high low _ ih =>
    cases second with
    | plain _ _ slash => exact absurd rfl slash
    | letter escape => exact absurd escape unicode_no_escape
    | unit quad' _ _ later =>
      obtain ⟨rfl, rfl⟩ := Quad.clear quad quad'
      obtain ⟨rfl, rfl⟩ := ih later
      exact ⟨rfl, rfl⟩
    | pair quad' up => exact absurd ((Quad.clear quad quad').1 ▸ up) high
  | pair quad up quad₂ down _ ih =>
    cases second with
    | plain _ _ slash => exact absurd rfl slash
    | letter escape => exact absurd escape unicode_no_escape
    | unit quad' high => exact absurd ((Quad.clear quad quad').1 ▸ up) high
    | pair quad' up' quad₂' down' later =>
      obtain ⟨rfl, same⟩ := Quad.clear quad quad'
      cases same
      obtain ⟨rfl, rfl⟩ := Quad.clear quad₂ quad₂'
      obtain ⟨rfl, rfl⟩ := ih later
      exact ⟨rfl, rfl⟩

theorem Quoted.clear : Clear Quoted := by
  rintro content content' text rest rest' ⟨source, rfl, first⟩ ⟨source', same, second⟩
  cases same
  exact Body.clear first second

theorem Sequence.clear {bracket : UInt8} (dark : isWhitespace bracket = false) (other : bracket ≠ 44)
    (clear : Clear R) (starts : Starts R bracket) : Clear (Sequence R bracket) := by
  intro vs vs' text rest rest' first second
  have same {v v' : α} {text a a' b b' : Text} (before : Gap text a) (value : R v a b)
      (before' : Gap text a') (value' : R v' a' b') : v = v' ∧ b = b' := by
    obtain ⟨c, more, rfl, light, _⟩ := starts value
    obtain ⟨c', more', rfl, light', _⟩ := starts value'
    obtain ⟨rfl, rfl⟩ := before.clear before' light light'
    exact clear value value'
  have comma : isWhitespace 44 = false := rfl
  induction first generalizing vs' with
  | last before value after =>
    cases second with
    | last before' value' after' =>
      obtain ⟨rfl, rfl⟩ := same before value before' value'
      exact ⟨rfl, (after.clear after' dark dark).2⟩
    | more before' value' after' =>
      obtain ⟨rfl, rfl⟩ := same before value before' value'
      exact absurd (after.clear after' dark comma).1 other
  | more before value after _ ih =>
    cases second with
    | last before' value' after' =>
      obtain ⟨rfl, rfl⟩ := same before value before' value'
      exact absurd (after.clear after' comma dark).1.symm other
    | more before' value' after' later =>
      obtain ⟨rfl, rfl⟩ := same before value before' value'
      obtain ⟨_, rfl⟩ := after.clear after' comma comma
      obtain ⟨rfl, rfl⟩ := ih later
      exact ⟨rfl, rfl⟩

theorem Elements.clear {bracket : UInt8} (dark : isWhitespace bracket = false) (other : bracket ≠ 44)
    (clear : Clear R) (starts : Starts R bracket) : Clear (Elements R bracket) := by
  have apart {vs : List α} {text rest rest' : Text} (gap : Gap text (bracket :: rest))
      (seq : Sequence R bracket vs text rest') : False := by
    obtain ⟨v, a, b, before, value, _⟩ := seq.first
    obtain ⟨c, more, rfl, light, unlike⟩ := starts value
    exact unlike (gap.clear before dark light).1.symm
  intro vs vs' text rest rest' first second
  cases first with
  | none gap =>
    cases second with
    | none gap' => exact ⟨rfl, (gap.clear gap' dark dark).2⟩
    | some seq => exact (apart gap seq).elim
  | some seq =>
    cases second with
    | none gap => exact (apart gap seq).elim
    | some seq' => exact Sequence.clear dark other clear starts seq seq'

theorem Member.clear {other : UInt8} (clear : Clear R) (starts : Starts R other) :
    Clear (Member R) := by
  rintro ⟨key, v⟩ ⟨key', v'⟩ text rest rest' ⟨a, b, c, quoted, middle, gap, value⟩
    ⟨a', b', c', quoted', middle', gap', value'⟩
  obtain ⟨rfl, rfl⟩ := Quoted.clear quoted quoted'
  obtain ⟨_, rfl⟩ := middle.clear middle' rfl rfl
  obtain ⟨d, more, rfl, light, _⟩ := starts value
  obtain ⟨d', more', rfl, light', _⟩ := starts value'
  obtain ⟨rfl, rfl⟩ := gap.clear gap' light light'
  obtain ⟨rfl, rfl⟩ := clear value value'
  exact ⟨rfl, rfl⟩

theorem Member.starts (other : UInt8) (unlike : (34 : UInt8) ≠ other) :
    Starts (Member R) other := by
  rintro ⟨key, v⟩ text rest ⟨_, _, _, ⟨source, rfl, _⟩, _⟩
  exact ⟨34, source, rfl, rfl, unlike⟩

end JsonGrammar
