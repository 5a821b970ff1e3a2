import Baas.Lib.JsonGrammar
import Baas.Repository.TreeFormat

/-! The parser of the tree format takes the strings, arrays and objects of JSON within its
limits, and nothing else. -/
namespace Baas.TreeFormat

open JsonText JsonGrammar

variable {p : JsonParser} {text rest content : Text}

/-! Strings. -/

theorem take_iff {c : UInt8} : take text = .ok (c, rest) ↔ text = c :: rest := by
  cases text <;> simp [take]

theorem unicodeUnit_succ {n result unit : Nat} :
    unicodeUnit (n + 1) result text = .ok (unit, rest) ↔ ∃ c digit more, text = c :: more ∧
      hexDigit c = some digit ∧ unicodeUnit n (result * 16 + digit) more = .ok (unit, rest) := by
  rw [unicodeUnit, bind_ok]
  constructor
  · rintro ⟨⟨c, more⟩, taken, h⟩
    cases take_iff.mp taken
    cases digit : hexDigit c with
    | none =>
      simp only [digit] at h
      cases h
    | some x =>
      simp only [digit] at h
      exact ⟨c, x, more, rfl, digit, h⟩
  · rintro ⟨c, digit, more, rfl, here, h⟩
    exact ⟨(c, more), rfl, by simp only [here]; exact h⟩

theorem unicodeUnit_iff {unit : Nat} :
    unicodeUnit 4 0 text = .ok (unit, rest) ↔ Quad text unit rest := by
  constructor
  · intro h
    obtain ⟨a, w, _, rfl, ha, h⟩ := unicodeUnit_succ.mp h
    obtain ⟨b, x, _, rfl, hb, h⟩ := unicodeUnit_succ.mp h
    obtain ⟨c, y, _, rfl, hc, h⟩ := unicodeUnit_succ.mp h
    obtain ⟨d, z, _, rfl, hd, h⟩ := unicodeUnit_succ.mp h
    cases h
    rw [Nat.zero_mul, Nat.zero_add]
    exact .digits ha hb hc hd
  · rintro ⟨ha, hb, hc, hd⟩
    refine unicodeUnit_succ.mpr ⟨_, _, _, rfl, ha, ?_⟩
    refine unicodeUnit_succ.mpr ⟨_, _, _, rfl, hb, ?_⟩
    refine unicodeUnit_succ.mpr ⟨_, _, _, rfl, hc, ?_⟩
    refine unicodeUnit_succ.mpr ⟨_, _, _, rfl, hd, ?_⟩
    rw [Nat.zero_mul, Nat.zero_add]
    rfl

theorem simpleEscape_iff {letter byte : UInt8} :
    simpleEscape letter = some byte ↔ (letter, byte) ∈ escapes := by
  constructor
  · intro h
    unfold simpleEscape at h
    split at h
    · next plain =>
      cases h
      rcases plain with rfl | rfl | rfl <;> decide
    repeat'
      split at h
      · next same =>
        cases h
        cases same
        decide
    cases h
  · intro h
    simp only [escapes, List.mem_cons, Prod.mk.injEq, List.not_mem_nil, or_false] at h
    rcases h with ⟨rfl, rfl⟩ | ⟨rfl, rfl⟩ | ⟨rfl, rfl⟩ | ⟨rfl, rfl⟩ | ⟨rfl, rfl⟩ | ⟨rfl, rfl⟩ |
      ⟨rfl, rfl⟩ | ⟨rfl, rfl⟩ <;> rfl

theorem unicode_iff {bytes : Text} : unicode text = .ok (bytes, rest) ↔
    (∃ n, Quad text n rest ∧ ¬ High n ∧ ¬ Low n ∧ bytes = utf8Bytes n) ∨
      ∃ high low second, Quad text high (92 :: 117 :: second) ∧ High high ∧
        Quad second low rest ∧ Low low ∧
        bytes = utf8Bytes (0x10000 + (high - 0xD800) * 1024 + (low - 0xDC00)) := by
  unfold unicode
  rw [bind_ok]
  constructor
  · rintro ⟨⟨first, more⟩, quad, h⟩
    rw [unicodeUnit_iff] at quad
    simp only [] at h
    split at h
    · cases h
    next low =>
    split at h
    · next plain =>
      cases h
      exact .inl ⟨first, quad, fun high => by unfold High at high; omega, low, rfl⟩
    next high =>
    rw [bind_ok] at h
    obtain ⟨⟨c, more⟩, taken, h⟩ := h
    cases take_iff.mp taken
    split at h
    · cases h
    next slash =>
    rw [bind_ok] at h
    obtain ⟨⟨d, more⟩, taken, h⟩ := h
    cases take_iff.mp taken
    simp only [] at h
    split at h
    · cases h
    next letter =>
    rw [bind_ok] at h
    obtain ⟨⟨second, more⟩, quad', h⟩ := h
    rw [unicodeUnit_iff] at quad'
    split at h
    · cases h
    next low' =>
    simp only [Except.ok.injEq, Prod.mk.injEq] at h
    obtain ⟨same, rfl⟩ := h
    rw [Decidable.not_not] at slash letter
    cases slash
    cases letter
    have up : High first := ⟨by omega, by omega⟩
    have down : Low second := ⟨by omega, by omega⟩
    exact .inr ⟨first, second, _, quad, up, quad', down, same.symm⟩
  · rintro (⟨n, quad, high, low, same⟩ | ⟨high, low, second, quad, up, quad', down, same⟩)
    · refine ⟨(n, rest), unicodeUnit_iff.mpr quad, ?_⟩
      have plain : n < 0xD800 ∨ 0xDBFF < n := by
        unfold High at high
        omega
      unfold Low at low
      simp only [if_neg low, if_pos plain, same]
    · refine ⟨(high, _), unicodeUnit_iff.mpr quad, ?_⟩
      unfold High at up
      unfold Low at down
      have quad'' := unicodeUnit_iff.mpr quad'
      simp only [take, bind, Except.bind, quad'']
      rw [if_neg (by omega), if_neg (by omega), if_neg (by decide), if_neg (by decide),
        if_neg (by omega), same]

theorem checkString_iff {result result' : Text} : checkString p result = .ok result' ↔
    result.length ≤ p.stringLimit ∧ result' = result := by
  unfold checkString
  split
  · next long => exact ⟨fun h => (by cases h), fun ⟨short, _⟩ => by omega⟩
  · next short =>
    exact ⟨fun h => ⟨Nat.not_lt.mp short, (Except.ok.inj h).symm⟩, fun ⟨_, same⟩ => by rw [same]⟩

theorem stringBody_sound {fuel : Nat} {result output : Text}
    (short : result.length ≤ p.stringLimit)
    (h : stringBody p fuel result text = .ok (output, rest)) :
    ∃ content, Body content text rest ∧ output = result ++ content ∧
      output.length ≤ p.stringLimit := by
  induction fuel generalizing result text with
  | zero => cases h
  | succ fuel ih =>
    rw [stringBody, bind_ok] at h
    obtain ⟨⟨c, more⟩, taken, h⟩ := h
    cases take_iff.mp taken
    simp only [] at h
    split at h
    · next quote =>
      cases h
      cases quote
      exact ⟨[], .close, (List.append_nil _).symm, short⟩
    next quote =>
    split at h
    · cases h
    next visible =>
    split at h
    · next slash =>
      rw [bind_ok] at h
      obtain ⟨_, checked, h⟩ := h
      obtain ⟨short', rfl⟩ := checkString_iff.mp checked
      obtain ⟨content, body, rfl, short''⟩ := ih short' h
      exact ⟨c :: content, .plain visible quote slash body, by simp, short''⟩
    next slash =>
    rw [Decidable.not_not] at slash
    cases slash
    rw [bind_ok] at h
    obtain ⟨⟨letter, more'⟩, taken', h⟩ := h
    cases take_iff.mp taken'
    cases escape : simpleEscape letter with
    | some byte =>
      simp only [escape] at h
      rw [bind_ok] at h
      obtain ⟨_, checked, h⟩ := h
      obtain ⟨short', rfl⟩ := checkString_iff.mp checked
      obtain ⟨content, body, rfl, short''⟩ := ih short' h
      exact ⟨byte :: content, .letter (simpleEscape_iff.mp escape) body, by simp, short''⟩
    | none =>
      simp only [escape] at h
      split at h
      · next unicode =>
        cases unicode
        rw [bind_ok] at h
        obtain ⟨⟨bytes, more''⟩, read, h⟩ := h
        rw [bind_ok] at h
        obtain ⟨_, checked, h⟩ := h
        obtain ⟨short', rfl⟩ := checkString_iff.mp checked
        obtain ⟨content, body, rfl, short''⟩ := ih short' h
        refine ⟨bytes ++ content, ?_, List.append_assoc result bytes content, short''⟩
        rcases unicode_iff.mp read with ⟨n, quad, high, low, same⟩ |
          ⟨high, low, second, quad, up, quad', down, same⟩
        · rw [same]
          exact .unit quad high low body
        · rw [same]
          exact .pair quad up quad' down body
      · cases h

theorem stringBody_plain {fuel : Nat} {c : UInt8} {result : Text} (visible : ¬ c < 0x20)
    (quote : c ≠ 34) (slash : c ≠ 92) (short : (result ++ [c]).length ≤ p.stringLimit) :
    stringBody p (fuel + 1) result (c :: text) = stringBody p fuel (result ++ [c]) text := by
  have checked := checkString_iff.mpr ⟨short, rfl⟩
  simp only [stringBody, take, bind, Except.bind, if_neg quote, if_neg visible, if_pos slash,
    checked]

theorem stringBody_escape {fuel : Nat} {letter byte : UInt8} {result : Text}
    (escape : (letter, byte) ∈ escapes) (short : (result ++ [byte]).length ≤ p.stringLimit) :
    stringBody p (fuel + 1) result (92 :: letter :: text) =
      stringBody p fuel (result ++ [byte]) text := by
  have checked := checkString_iff.mpr ⟨short, rfl⟩
  have found := simpleEscape_iff.mpr escape
  simp [stringBody, take, bind, Except.bind, checked, found]

theorem stringBody_unicode {fuel : Nat} {bytes result source : Text}
    (read : unicode source = .ok (bytes, text))
    (short : (result ++ bytes).length ≤ p.stringLimit) :
    stringBody p (fuel + 1) result (92 :: 117 :: source) =
      stringBody p fuel (result ++ bytes) text := by
  have checked := checkString_iff.mpr ⟨short, rfl⟩
  have none : simpleEscape 117 = none := rfl
  simp [stringBody, take, bind, Except.bind, checked, none, read]

theorem stringBody_complete {fuel : Nat} {result : Text} (body : Body content text rest)
    (short : (result ++ content).length ≤ p.stringLimit) (enough : text.length < fuel) :
    stringBody p fuel result text = .ok (result ++ content, rest) := by
  have within {first more : Text} (all : (first ++ more).length ≤ p.stringLimit) :
      first.length ≤ p.stringLimit := by
    rw [List.length_append] at all
    omega
  induction body generalizing fuel result with
  | close =>
    obtain ⟨fuel, rfl⟩ := Nat.exists_eq_add_one_of_ne_zero (Nat.ne_of_gt (Nat.zero_lt_of_lt enough))
    rw [List.append_nil]
    rfl
  | @plain c content text rest visible quote slash body ih =>
    obtain ⟨fuel, rfl⟩ := Nat.exists_eq_add_one_of_ne_zero (Nat.ne_of_gt (Nat.zero_lt_of_lt enough))
    have whole : result ++ c :: content = result ++ [c] ++ content := by simp
    rw [whole] at short ⊢
    rw [stringBody_plain visible quote slash (within short)]
    exact ih short (by simpa using enough)
  | @letter letter byte content text rest escape body ih =>
    obtain ⟨fuel, rfl⟩ := Nat.exists_eq_add_one_of_ne_zero (Nat.ne_of_gt (Nat.zero_lt_of_lt enough))
    have whole : result ++ byte :: content = result ++ [byte] ++ content := by simp
    rw [whole] at short ⊢
    rw [stringBody_escape escape (within short)]
    refine ih short ?_
    simp only [List.length_cons] at enough
    omega
  | @unit n digits content text rest quad high low body ih =>
    obtain ⟨fuel, rfl⟩ := Nat.exists_eq_add_one_of_ne_zero (Nat.ne_of_gt (Nat.zero_lt_of_lt enough))
    have size := quad.length
    rw [← List.append_assoc] at short ⊢
    rw [stringBody_unicode (unicode_iff.mpr (.inl ⟨n, quad, high, low, rfl⟩)) (within short)]
    refine ih short ?_
    simp only [List.length_cons] at enough
    omega
  | @pair high low first second content text rest quad up quad' down body ih =>
    obtain ⟨fuel, rfl⟩ := Nat.exists_eq_add_one_of_ne_zero (Nat.ne_of_gt (Nat.zero_lt_of_lt enough))
    have size := quad.length
    have size' := quad'.length
    have read := unicode_iff.mpr (.inr ⟨high, low, second, quad, up, quad', down, rfl⟩)
    rw [← List.append_assoc] at short ⊢
    rw [stringBody_unicode read (within short)]
    refine ih short ?_
    simp only [List.length_cons] at enough size
    omega

theorem string_sound {c c' : Cursor} (h : string p c = .ok (content, c')) :
    Quoted content c.rest c'.rest ∧ content.length ≤ p.stringLimit ∧ c'.nodes = c.nodes := by
  unfold string at h
  rw [bind_ok] at h
  obtain ⟨⟨quote, more⟩, taken, h⟩ := h
  rw [take_iff] at taken
  simp only [] at h
  split at h
  · cases h
  next quoted =>
  rw [bind_ok] at h
  obtain ⟨⟨result, more'⟩, read, h⟩ := h
  simp only [] at h
  split at h
  · cases h
  obtain ⟨_, body, rfl, short⟩ := stringBody_sound (Nat.zero_le _) read
  cases h
  rw [Decidable.not_not] at quoted
  rw [quoted] at taken
  exact ⟨⟨more, taken, body⟩, short, rfl⟩

theorem string_complete {c : Cursor} (quoted : Quoted content c.rest rest)
    (short : content.length ≤ p.stringLimit) (budget : c.decoded + c.rest.length ≤ p.size) :
    ∃ d, string p c = .ok (content, ⟨rest, c.nodes, d⟩) ∧ d + rest.length ≤ p.size := by
  have size := quoted.length
  obtain ⟨source, whole, body⟩ := quoted
  have read : stringBody p (source.length + 1) [] source = .ok ([] ++ content, rest) :=
    stringBody_complete body short (Nat.lt_succ_self _)
  refine ⟨c.decoded + content.length, ?_, by omega⟩
  have room : ¬ p.size - c.decoded < content.length := by omega
  simp only [string, whole, take, bind, Except.bind, ne_eq, not_true, if_false, read,
    List.nil_append, if_neg room]

/-! Values. -/

mutual

/-- The nodes of a value. -/
def count : Json → Nat
  | .string _ => 1
  | .array items => 1 + countItems items
  | .object members => 1 + countMembers members

def countItems : List Json → Nat
  | [] => 0
  | item :: rest => count item + countItems rest

def countMembers : List (Text × Json) → Nat
  | [] => 0
  | (_, item) :: rest => count item + countMembers rest

end

/-- A text between two places and the value it spells, of at most so many levels. -/
def Spells : Nat → Json → Text → Text → Prop
  | 0, _, _, _ => False
  | _ + 1, .string content, text, rest => Quoted content text rest
  | levels + 1, .array items, text, rest => ∃ inner, text = 91 :: inner ∧
      Elements (Spells levels) 93 items inner rest
  | levels + 1, .object members, text, rest => ∃ inner, text = 123 :: inner ∧
      Elements (Member (Spells levels)) 125 members inner rest

/-- The values within the limits: their levels, their strings and their keys, once each. -/
def Fine (stringLimit : Nat) : Nat → Json → Prop
  | 0, _ => False
  | _ + 1, .string content => content.length ≤ stringLimit
  | levels + 1, .array items => ∀ item ∈ items, Fine stringLimit levels item
  | levels + 1, .object members => (members.map Prod.fst).Nodup ∧
      ∀ member ∈ members, member.1.length ≤ stringLimit ∧ Fine stringLimit levels member.2

/-- What a parser of values does. -/
structure Reads (p : JsonParser) (value : ValueParser) (R : Json → Text → Text → Prop)
    (P : Json → Prop) : Prop where
  sound : ∀ {c c' v}, value c = .ok (v, c') → (∃ a, Gap c.rest a ∧ R v a c'.rest) ∧ P v ∧
    c'.nodes = c.nodes + count v ∧ c'.nodes ≤ p.nodeLimit
  complete : ∀ {c : Cursor} {v a rest}, Gap c.rest a → R v a rest → P v →
    c.nodes + count v ≤ p.nodeLimit → c.decoded + c.rest.length ≤ p.size →
      ∃ d, value c = .ok (v, ⟨rest, c.nodes + count v, d⟩) ∧ d + rest.length ≤ p.size
  shrinks : ∀ v a b, R v a b → b.length ≤ a.length
  opens : ∀ v a b, R v a b → ∃ c more, a = c :: more ∧ (c = 34 ∨ c = 91 ∨ c = 123)

section Containers

variable {value : ValueParser} {R : Json → Text → Text → Prop} {P : Json → Prop}
  (reads : Reads p value R P)
include reads

theorem items_sound {fuel : Nat} {result out : List Json} {c c' : Cursor}
    (h : items value fuel result c = .ok (out, c')) : ∃ vs, out = result ++ vs ∧
      Sequence R 93 vs c.rest c'.rest ∧ (∀ v ∈ vs, P v) ∧
      c'.nodes = c.nodes + countItems vs ∧ c'.nodes ≤ p.nodeLimit := by
  induction fuel generalizing result c with
  | zero => cases h
  | succ fuel ih =>
    rw [items, bind_ok] at h
    obtain ⟨⟨v, c₁⟩, parsed, h⟩ := h
    obtain ⟨⟨a, before, spelled⟩, fine, nodes, few⟩ := reads.sound parsed
    rw [bind_ok] at h
    obtain ⟨⟨separator, more⟩, taken, h⟩ := h
    rw [take_iff] at taken
    have after : Gap c₁.rest (separator :: more) := taken ▸ gap_skip c₁.rest
    simp only [] at h
    split at h
    · next close =>
      cases h
      cases close
      refine ⟨[v], rfl, .last before spelled after, ?_, ?_, few⟩
      · exact List.forall_mem_singleton.mpr fine
      · simpa [countItems] using nodes
    split at h
    · next comma =>
      cases comma
      obtain ⟨vs, rfl, seq, fines, nodes', few'⟩ := ih h
      refine ⟨v :: vs, by simp, .more before spelled after seq,
        List.forall_mem_cons.mpr ⟨fine, fines⟩, ?_, few'⟩
      simp only [countItems] at nodes' ⊢
      omega
    · cases h

theorem items_complete {fuel : Nat} {result vs : List Json} {c : Cursor}
    (seq : Sequence R 93 vs text rest) (here : c.rest = text) (fine : ∀ v ∈ vs, P v)
    (few : c.nodes + countItems vs ≤ p.nodeLimit) (budget : c.decoded + c.rest.length ≤ p.size)
    (enough : vs.length ≤ fuel) :
    ∃ d, items value fuel result c = .ok (result ++ vs, ⟨rest, c.nodes + countItems vs, d⟩) ∧
      d + rest.length ≤ p.size := by
  induction seq generalizing fuel result c with
  | @last v text a b rest before spelled after =>
    obtain ⟨fuel, rfl⟩ := Nat.exists_eq_add_one_of_ne_zero (Nat.ne_of_gt (Nat.zero_lt_of_lt enough))
    rw [← here] at before
    obtain ⟨d, parsed, left⟩ := reads.complete before spelled (fine v List.mem_cons_self)
      (by simpa [countItems] using few) budget
    have skip := after.skip (by decide)
    have shorter := after.length
    rw [List.length_cons] at shorter
    refine ⟨d, ?_, by omega⟩
    simp [items, parsed, bind, Except.bind, Cursor.skip, skip, take, countItems]
  | @more v vs text a b next rest before spelled after seq ih =>
    obtain ⟨fuel, rfl⟩ := Nat.exists_eq_add_one_of_ne_zero (Nat.ne_of_gt (Nat.zero_lt_of_lt enough))
    rw [← here] at before
    rw [countItems] at few
    obtain ⟨d, parsed, left⟩ := reads.complete before spelled (fine v List.mem_cons_self)
      (by omega) budget
    have skip := after.skip (by decide)
    have shorter := after.length
    rw [List.length_cons] at shorter
    obtain ⟨d', later, left'⟩ := @ih fuel (result ++ [v]) ⟨next, c.nodes + count v, d⟩ rfl
      (fun w member => fine w (List.mem_cons_of_mem v member)) (by simpa [Nat.add_assoc] using few)
      (Nat.le_trans (by simp only; omega) left) (by simpa using enough)
    refine ⟨d', ?_, left'⟩
    simp only [items, parsed, bind, Except.bind, Cursor.skip, skip, take, countItems]
    rw [if_neg (by decide), if_pos trivial]
    simpa [Nat.add_assoc] using later

theorem members_sound {fuel : Nat} {result out : List (Text × Json)} {c c' : Cursor}
    (apart : (result.map Prod.fst).Nodup) (h : members p value fuel result c = .ok (out, c')) :
    ∃ vs, out = result ++ vs ∧ Sequence (Member R) 125 vs c.rest c'.rest ∧
      (∀ v ∈ vs, v.1.length ≤ p.stringLimit ∧ P v.2) ∧ (out.map Prod.fst).Nodup ∧
      c'.nodes = c.nodes + countMembers vs ∧ c'.nodes ≤ p.nodeLimit := by
  induction fuel generalizing result c with
  | zero => cases h
  | succ fuel ih =>
    rw [members, bind_ok] at h
    obtain ⟨⟨key, c₁⟩, named, h⟩ := h
    obtain ⟨quoted, short, same⟩ := string_sound named
    rw [bind_ok] at h
    obtain ⟨⟨colon, more⟩, taken, h⟩ := h
    rw [take_iff] at taken
    have middle : Gap c₁.rest (colon :: more) := taken ▸ gap_skip c₁.rest
    simp only [] at h
    split at h
    · cases h
    next pointed =>
    rw [Decidable.not_not] at pointed
    cases pointed
    rw [bind_ok] at h
    obtain ⟨⟨v, c₂⟩, parsed, h⟩ := h
    obtain ⟨⟨a, before, spelled⟩, fine, nodes, few⟩ := reads.sound parsed
    simp only [] at h
    split at h
    · cases h
    next fresh =>
    rw [bind_ok] at h
    obtain ⟨⟨separator, more'⟩, taken', h⟩ := h
    rw [take_iff] at taken'
    have after : Gap c₂.rest (separator :: more') := taken' ▸ gap_skip c₂.rest
    have spelt : Member R (key, v) c.skip.rest c₂.rest :=
      ⟨c₁.rest, more, a, quoted, middle, before, spelled⟩
    have start : Gap c.rest c.skip.rest := gap_skip c.rest
    have apart' : ((result ++ [(key, v)]).map Prod.fst).Nodup := by
      rw [List.map_append, List.nodup_append']
      refine ⟨apart, List.nodup_singleton key, ?_⟩
      simpa [List.any_eq_true] using fresh
    have total : c₂.nodes = c.nodes + count v := by
      rw [nodes, same]
      rfl
    simp only [] at h
    split at h
    · next close =>
      cases h
      cases close
      refine ⟨[(key, v)], rfl, .last start spelt after, ?_, apart', ?_, few⟩
      · exact List.forall_mem_singleton.mpr ⟨short, fine⟩
      · simpa [countMembers] using total
    split at h
    · next comma =>
      cases comma
      obtain ⟨vs, rfl, seq, fines, apart'', nodes', few'⟩ := ih apart' h
      refine ⟨(key, v) :: vs, by simp, .more start spelt after seq,
        List.forall_mem_cons.mpr ⟨⟨short, fine⟩, fines⟩, apart'', ?_, few'⟩
      simp only [countMembers] at nodes' ⊢
      omega
    · cases h

/-- One turn of the loop, up to the separator. -/
theorem members_turn {fuel : Nat} {result : List (Text × Json)} {c : Cursor} {v : Text × Json}
    {a b next : Text} {separator : UInt8} (before : Gap c.rest a) (spelled : Member R v a b)
    (after : Gap b (separator :: next)) (dark : isWhitespace separator = false)
    (fine : v.1.length ≤ p.stringLimit ∧ P v.2) (fresh : v.1 ∉ result.map Prod.fst)
    (few : c.nodes + count v.2 ≤ p.nodeLimit) (budget : c.decoded + c.rest.length ≤ p.size) :
    ∃ d, members p value (fuel + 1) result c =
        (if separator = 125 then .ok (result ++ [v], ⟨next, c.nodes + count v.2, d⟩)
        else if separator = 44 then
          members p value fuel (result ++ [v]) ⟨next, c.nodes + count v.2, d⟩
        else .error "JSON object delimiter expected") ∧ d + next.length ≤ p.size := by
  obtain ⟨a₁, b₁, c₁, quoted, middle, gap, spelled⟩ := spelled
  have start : c.skip.rest = a := by
    obtain ⟨source, rfl, _⟩ := quoted
    exact before.skip (by decide)
  rw [← start] at quoted
  have shorter := before.length
  rw [← start] at shorter
  have room : c.skip.decoded + c.skip.rest.length ≤ p.size :=
    Nat.le_trans (Nat.add_le_add_left shorter c.decoded) budget
  obtain ⟨d₁, named, left₁⟩ := string_complete quoted fine.1 room
  have colon := middle.skip (by decide)
  have shorter₁ := middle.length
  rw [List.length_cons] at shorter₁
  obtain ⟨d₂, parsed, left₂⟩ := @Reads.complete _ _ _ _ reads ⟨b₁, c.nodes, d₁⟩ _ _ _ gap spelled
    fine.2 few (by simp only; omega)
  have last := after.skip dark
  have shorter₂ := after.length
  rw [List.length_cons] at shorter₂
  have new : result.any (·.1 = v.1) = false := by
    rw [List.any_eq_false]
    intro member there same
    exact fresh (List.mem_map.mpr ⟨member, there, of_decide_eq_true same⟩)
  refine ⟨d₂, ?_, by omega⟩
  rw [members, named]
  simp only [bind, Except.bind, take, Cursor.skip, colon, ne_eq, not_true, if_false,
    parsed, new, Bool.false_eq_true, last]

theorem members_complete {fuel : Nat} {result vs : List (Text × Json)} {c : Cursor}
    (seq : Sequence (Member R) 125 vs text rest) (here : c.rest = text)
    (fine : ∀ v ∈ vs, v.1.length ≤ p.stringLimit ∧ P v.2)
    (apart : ((result ++ vs).map Prod.fst).Nodup)
    (few : c.nodes + countMembers vs ≤ p.nodeLimit) (budget : c.decoded + c.rest.length ≤ p.size)
    (enough : vs.length ≤ fuel) :
    ∃ d, members p value fuel result c = .ok (result ++ vs, ⟨rest, c.nodes + countMembers vs, d⟩) ∧
      d + rest.length ≤ p.size := by
  induction seq generalizing fuel result c with
  | @last v text a b rest before spelled after =>
    obtain ⟨fuel, rfl⟩ := Nat.exists_eq_add_one_of_ne_zero (Nat.ne_of_gt (Nat.zero_lt_of_lt enough))
    rw [← here] at before
    have fresh : v.1 ∉ result.map Prod.fst := by
      rw [List.map_append, List.nodup_append'] at apart
      exact fun there => apart.2.2 there (List.mem_singleton_self v.1)
    obtain ⟨d, turn, left⟩ := @members_turn _ _ _ _ reads fuel result c v a b rest 125 before spelled
      after (by decide) (fine v List.mem_cons_self) fresh (by simpa [countMembers] using few) budget
    refine ⟨d, ?_, left⟩
    rw [turn, if_pos rfl]
    simp [countMembers]
  | @more v vs text a b next rest before spelled after seq ih =>
    obtain ⟨fuel, rfl⟩ := Nat.exists_eq_add_one_of_ne_zero (Nat.ne_of_gt (Nat.zero_lt_of_lt enough))
    rw [← here] at before
    rw [countMembers] at few
    have fresh : v.1 ∉ result.map Prod.fst := by
      rw [List.map_append, List.nodup_append'] at apart
      exact fun there => apart.2.2 there List.mem_cons_self
    obtain ⟨d, turn, left⟩ := @members_turn _ _ _ _ reads fuel result c v a b next 44 before spelled
      after (by decide) (fine v List.mem_cons_self) fresh (by omega) budget
    obtain ⟨d', later, left'⟩ := @ih fuel (result ++ [v]) ⟨next, c.nodes + count v.2, d⟩ rfl
      (fun w member => fine w (List.mem_cons_of_mem v member)) (by simpa using apart)
      (by simpa [Nat.add_assoc] using few) left (by simpa using enough)
    refine ⟨d', ?_, left'⟩
    rw [turn, if_neg (by decide), if_pos rfl]
    simpa [countMembers, Nat.add_assoc] using later

theorem parseArray_sound {c c' : Cursor} {v : Json} (here : c.nodes ≤ p.nodeLimit)
    (h : parseArray value c = .ok (v, c')) : ∃ vs, v = .array vs ∧
      Elements R 93 vs c.rest c'.rest ∧ (∀ item ∈ vs, P item) ∧
      c'.nodes = c.nodes + countItems vs ∧ c'.nodes ≤ p.nodeLimit := by
  have skip := gap_skip c.rest
  unfold parseArray at h
  split at h
  · next rest close =>
    cases h
    rw [close] at skip
    exact ⟨[], rfl, .none skip, fun _ none => (by cases none), rfl, here⟩
  · next rest _ =>
    rw [bind_ok] at h
    obtain ⟨⟨result, c₁⟩, parsed, h⟩ := h
    cases h
    obtain ⟨_, rfl, seq, fine, nodes, few⟩ := items_sound reads parsed
    exact ⟨_, rfl, .some (seq.behind skip), fine, nodes, few⟩

theorem parseArray_complete {c : Cursor} {vs : List Json} (elements : Elements R 93 vs c.rest rest)
    (fine : ∀ v ∈ vs, P v) (few : c.nodes + countItems vs ≤ p.nodeLimit)
    (budget : c.decoded + c.rest.length ≤ p.size) :
    ∃ d, parseArray value c = .ok (.array vs, ⟨rest, c.nodes + countItems vs, d⟩) ∧
      d + rest.length ≤ p.size := by
  unfold parseArray
  cases elements with
  | none gap =>
    have shorter := gap.length
    rw [List.length_cons] at shorter
    rw [gap.skip (by decide)]
    exact ⟨c.decoded, rfl, by omega⟩
  | some seq =>
    obtain ⟨v, a, b, gap, spelled, seq⟩ := seq.first
    obtain ⟨first, more, rfl, opening⟩ := reads.opens v a b spelled
    have shorter := gap.length
    have dark : isWhitespace first = false := by
      rcases opening with rfl | rfl | rfl <;> decide
    have other : first ≠ 93 := by
      rcases opening with rfl | rfl | rfl <;> decide
    have size := seq.length reads.shrinks
    obtain ⟨d, parsed, left⟩ := @items_complete _ _ _ _ _ _ reads ((first :: more).length + 1) [] vs
      ⟨first :: more, c.nodes, c.decoded⟩ seq rfl fine few (by simp only; omega) (by omega)
    rw [gap.skip dark]
    refine ⟨d, ?_, left⟩
    split
    · next same => exact absurd (List.cons.inj same).1 other
    · rw [bind_ok]
      exact ⟨_, parsed, rfl⟩

theorem parseObject_sound {c c' : Cursor} {v : Json} (here : c.nodes ≤ p.nodeLimit)
    (h : parseObject p value c = .ok (v, c')) : ∃ vs, v = .object vs ∧
      Elements (Member R) 125 vs c.rest c'.rest ∧ (vs.map Prod.fst).Nodup ∧
      (∀ member ∈ vs, member.1.length ≤ p.stringLimit ∧ P member.2) ∧
      c'.nodes = c.nodes + countMembers vs ∧ c'.nodes ≤ p.nodeLimit := by
  have skip := gap_skip c.rest
  unfold parseObject at h
  split at h
  · next rest close =>
    cases h
    rw [close] at skip
    exact ⟨[], rfl, .none skip, List.nodup_nil, fun _ none => (by cases none), rfl, here⟩
  · next rest _ =>
    rw [bind_ok] at h
    obtain ⟨⟨result, c₁⟩, parsed, h⟩ := h
    cases h
    have none : (([] : List (Text × Json)).map Prod.fst).Nodup := List.nodup_nil
    obtain ⟨_, rfl, seq, fine, apart, nodes, few⟩ := members_sound reads none parsed
    exact ⟨_, rfl, .some (seq.behind skip), apart, fine, nodes, few⟩

theorem parseObject_complete {c : Cursor} {vs : List (Text × Json)}
    (elements : Elements (Member R) 125 vs c.rest rest) (apart : (vs.map Prod.fst).Nodup)
    (fine : ∀ v ∈ vs, v.1.length ≤ p.stringLimit ∧ P v.2)
    (few : c.nodes + countMembers vs ≤ p.nodeLimit)
    (budget : c.decoded + c.rest.length ≤ p.size) :
    ∃ d, parseObject p value c = .ok (.object vs, ⟨rest, c.nodes + countMembers vs, d⟩) ∧
      d + rest.length ≤ p.size := by
  unfold parseObject
  cases elements with
  | none gap =>
    have shorter := gap.length
    rw [List.length_cons] at shorter
    rw [gap.skip (by decide)]
    exact ⟨c.decoded, rfl, by omega⟩
  | some seq =>
    obtain ⟨v, a, b, gap, spelled, seq⟩ := seq.first
    obtain ⟨_, _, _, ⟨source, rfl, _⟩, _⟩ := spelled
    have shorter := gap.length
    have size := seq.length (fun v a b => Member.length reads.shrinks)
    obtain ⟨d, parsed, left⟩ := @members_complete _ _ _ _ _ _ reads ((34 :: source).length + 1) [] vs
      ⟨34 :: source, c.nodes, c.decoded⟩ seq rfl fine apart few (by simp only; omega) (by omega)
    rw [gap.skip (by decide)]
    refine ⟨d, ?_, left⟩
    split
    · next same => exact absurd (List.cons.inj same).1 (by decide)
    · rw [bind_ok]
      exact ⟨_, parsed, rfl⟩

end Containers

theorem spells_opens {levels : Nat} {v : Json} {a b : Text} (spelled : Spells levels v a b) :
    ∃ c more, a = c :: more ∧ (c = 34 ∨ c = 91 ∨ c = 123) := by
  cases levels with
  | zero => cases spelled
  | succ levels =>
    cases v with
    | string content =>
      obtain ⟨source, rfl, _⟩ := spelled
      exact ⟨34, source, rfl, .inl rfl⟩
    | array items =>
      obtain ⟨inner, rfl, _⟩ := spelled
      exact ⟨91, inner, rfl, .inr (.inl rfl)⟩
    | object members =>
      obtain ⟨inner, rfl, _⟩ := spelled
      exact ⟨123, inner, rfl, .inr (.inr rfl)⟩

theorem spells_shrinks (levels : Nat) : ∀ v a b, Spells levels v a b → b.length ≤ a.length := by
  induction levels with
  | zero => exact fun _ _ _ none => (by cases none)
  | succ levels ih =>
    intro v a b spelled
    cases v with
    | string content =>
      have := Quoted.length spelled
      omega
    | array items =>
      obtain ⟨inner, rfl, elements⟩ := spelled
      have := elements.length ih
      rw [List.length_cons]
      omega
    | object members =>
      obtain ⟨inner, rfl, elements⟩ := spelled
      have := elements.length (fun v a b => Member.length ih)
      rw [List.length_cons]
      omega

theorem value_reads (levels : Nat) :
    Reads p (value p levels) (Spells levels) (Fine p.stringLimit levels) := by
  induction levels with
  | zero => exact ⟨fun h => (by cases h), fun _ none => (by cases none), spells_shrinks 0,
      fun _ _ _ => spells_opens⟩
  | succ levels ih =>
    refine ⟨?_, ?_, spells_shrinks _, fun _ _ _ => spells_opens⟩
    · intro c c' v h
      rw [value] at h
      split at h
      · cases h
      next room =>
      have skip := gap_skip c.rest
      split at h
      · cases h
      next first rest start =>
      rw [start] at skip
      split at h
      · next quote =>
        rw [bind_ok] at h
        obtain ⟨⟨content, c₁⟩, named, h⟩ := h
        cases h
        obtain ⟨quoted, short, nodes⟩ := string_sound named
        have few : c.nodes + 1 ≤ p.nodeLimit := Nat.not_lt.mp room
        exact ⟨⟨_, skip, quoted⟩, short, nodes, nodes ▸ few⟩
      split at h
      · next brace =>
        cases brace
        obtain ⟨vs, rfl, elements, apart, fine, nodes, few⟩ :=
          parseObject_sound ih (by simp only; omega) h
        refine ⟨⟨_, skip, rest, rfl, elements⟩, ⟨apart, fine⟩, ?_, few⟩
        simp only [nodes, count]
        omega
      split at h
      · next bracket =>
        cases bracket
        obtain ⟨vs, rfl, elements, fine, nodes, few⟩ :=
          parseArray_sound ih (by simp only; omega) h
        refine ⟨⟨_, skip, rest, rfl, elements⟩, fine, ?_, few⟩
        simp only [nodes, count]
        omega
      · cases h
    · intro c v a rest gap spelled fine few budget
      have shorter := gap.length
      have positive : 1 ≤ count v := by
        cases v <;> simp only [count] <;> omega
      rw [value, if_neg (by omega)]
      cases v with
      | string content =>
        have size := Quoted.length spelled
        obtain ⟨source, rfl, body⟩ := spelled
        rw [gap.skip (by decide)]
        obtain ⟨d, named, left⟩ := @string_complete p rest content
          ⟨34 :: source, c.nodes + 1, c.decoded⟩ ⟨source, rfl, body⟩ fine (by simp only; omega)
        refine ⟨d, ?_, left⟩
        simp only [if_true]
        rw [bind_ok]
        exact ⟨_, named, rfl⟩
      | array items =>
        obtain ⟨inner, rfl, elements⟩ := spelled
        rw [List.length_cons] at shorter
        rw [gap.skip (by decide)]
        simp only [count] at few
        obtain ⟨d, parsed, left⟩ := @parseArray_complete p rest _ _ _ ih
          ⟨inner, c.nodes + 1, c.decoded⟩ items elements fine (by simp only; omega)
          (by simp only; omega)
        refine ⟨d, ?_, left⟩
        simp only [count, ← Nat.add_assoc]
        exact parsed
      | object members =>
        obtain ⟨inner, rfl, elements⟩ := spelled
        rw [List.length_cons] at shorter
        rw [gap.skip (by decide)]
        simp only [count] at few
        obtain ⟨d, parsed, left⟩ := @parseObject_complete p rest _ _ _ ih
          ⟨inner, c.nodes + 1, c.decoded⟩ members elements fine.1 fine.2 (by simp only; omega)
          (by simp only; omega)
        refine ⟨d, ?_, left⟩
        simp only [count, ← Nat.add_assoc]
        exact parsed

/-- A text is a document, with space around it. -/
def Document (text : Text) (document : Json) : Prop :=
  ∃ levels a b, Gap text a ∧ Spells levels document a b ∧ Gap b []

theorem Spells.within {levels room limit : Nat} {v : Json} {a b : Text} (spelled : Spells levels v a b)
    (fine : Fine limit room v) : Spells room v a b := by
  induction room generalizing levels v a b with
  | zero => cases fine
  | succ room ih =>
    cases levels with
    | zero => cases spelled
    | succ levels =>
      cases v with
      | string content => exact spelled
      | array items =>
        obtain ⟨inner, rfl, elements⟩ := spelled
        exact ⟨inner, rfl, elements.imp (fun v member a b spelled => ih spelled (fine v member))⟩
      | object members =>
        obtain ⟨inner, rfl, elements⟩ := spelled
        refine ⟨inner, rfl, elements.imp ?_⟩
        rintro v member a b ⟨c, d, e, quoted, before, after, spelled⟩
        exact ⟨c, d, e, quoted, before, after, ih spelled (fine.2 v member).2⟩

theorem spells_starts (levels : Nat) (other : UInt8) (unlike : other = 93 ∨ other = 125) :
    Starts (Spells levels) other := by
  intro v a b spelled
  obtain ⟨c, more, rfl, opening⟩ := spells_opens spelled
  refine ⟨c, more, rfl, ?_, ?_⟩
  · rcases opening with rfl | rfl | rfl <;> rfl
  · rcases opening with rfl | rfl | rfl <;> rcases unlike with rfl | rfl <;> decide

theorem spells_clear (levels : Nat) : Clear (Spells levels) := by
  induction levels with
  | zero => exact fun _ _ _ _ _ none => (by cases none)
  | succ levels ih =>
    intro v v' text rest rest' first second
    cases v with
    | string content =>
      cases v' with
      | string content' =>
        obtain ⟨rfl, rfl⟩ := Quoted.clear first second
        exact ⟨rfl, rfl⟩
      | array items' =>
        obtain ⟨source, rfl, _⟩ := first
        obtain ⟨_, same, _⟩ := second
        cases same
      | object members' =>
        obtain ⟨source, rfl, _⟩ := first
        obtain ⟨_, same, _⟩ := second
        cases same
    | array items =>
      obtain ⟨inner, rfl, elements⟩ := first
      cases v' with
      | string content' =>
        obtain ⟨_, same, _⟩ := second
        cases same
      | array items' =>
        obtain ⟨_, same, elements'⟩ := second
        cases same
        obtain ⟨rfl, rfl⟩ := Elements.clear rfl (by decide) ih (spells_starts levels 93 (.inl rfl))
          elements elements'
        exact ⟨rfl, rfl⟩
      | object members' =>
        obtain ⟨_, same, _⟩ := second
        cases same
    | object members =>
      obtain ⟨inner, rfl, elements⟩ := first
      cases v' with
      | string content' =>
        obtain ⟨_, same, _⟩ := second
        cases same
      | array items' =>
        obtain ⟨_, same, _⟩ := second
        cases same
      | object members' =>
        obtain ⟨_, same, elements'⟩ := second
        cases same
        have one := Member.clear ih (spells_starts levels 125 (.inr rfl))
        obtain ⟨rfl, rfl⟩ := Elements.clear rfl (by decide) one (Member.starts 125 (by decide))
          elements elements'
        exact ⟨rfl, rfl⟩

theorem Spells.more {levels : Nat} {v : Json} {a b : Text} (spelled : Spells levels v a b)
    (extra : Nat) : Spells (levels + extra) v a b := by
  induction levels generalizing v a b with
  | zero => cases spelled
  | succ levels ih =>
    rw [Nat.succ_add]
    cases v with
    | string content => exact spelled
    | array items =>
      obtain ⟨inner, rfl, elements⟩ := spelled
      exact ⟨inner, rfl, elements.imp (fun _ _ _ _ => ih)⟩
    | object members =>
      obtain ⟨inner, rfl, elements⟩ := spelled
      refine ⟨inner, rfl, elements.imp ?_⟩
      rintro v _ a b ⟨c, d, e, quoted, before, after, spelled⟩
      exact ⟨c, d, e, quoted, before, after, ih spelled⟩

/-- A text is one document at most. -/
theorem Document.unique {document document' : Json} (first : Document text document)
    (second : Document text document') : document = document' := by
  obtain ⟨n, a, b, before, spelled, _⟩ := first
  obtain ⟨m, a', b', before', spelled', _⟩ := second
  obtain ⟨c, more, rfl, dark, _⟩ := spells_starts n 93 (.inl rfl) spelled
  obtain ⟨c', more', rfl, dark', _⟩ := spells_starts m 93 (.inl rfl) spelled'
  obtain ⟨rfl, rfl⟩ := before.clear before' dark dark'
  have high := spelled'.more n
  rw [Nat.add_comm] at high
  exact (spells_clear (n + m) (spelled.more m) high).1

/-- A document that the parser has room for. -/
def Within (limits : TreeFormatLimits) (document : Json) : Prop :=
  limits.maxEntries ≤ (2 ^ 64 - 1 - 16) / 6 ∧
    Fine (max limits.maxRelativePathBytes 256) 7 document ∧
    count document ≤ 16 + limits.maxEntries * 6

/-- The parser takes the documents that it has room for. -/
theorem parse_iff {limits : TreeFormatLimits} {document : Json} :
    parse text limits = .ok document ↔ Document text document ∧ Within limits document := by
  unfold parse jsonParser
  constructor
  · intro h
    rw [bind_ok] at h
    obtain ⟨p, made, h⟩ := h
    split at made
    · cases made
    next few =>
    cases made
    rw [bind_ok] at h
    obtain ⟨⟨v, c⟩, parsed, h⟩ := h
    obtain ⟨⟨a, before, spelled⟩, fine, nodes, room⟩ := (value_reads 7).sound parsed
    have after := gap_skip c.rest
    simp only [] at h
    split at h
    · next nothing =>
      cases h
      rw [nothing] at after
      simp only [Nat.zero_add] at nodes
      exact ⟨⟨7, a, c.rest, before, spelled, after⟩, Nat.not_lt.mp few, fine, nodes ▸ room⟩
    · cases h
  · rintro ⟨⟨levels, a, b, before, spelled, after⟩, few, fine, room⟩
    obtain ⟨d, parsed, _⟩ := (@value_reads ⟨text.length, 16 + limits.maxEntries * 6,
      max limits.maxRelativePathBytes 256⟩ 7).complete (c := ⟨text, 0, 0⟩) before
      (spelled.within fine) fine (by simpa using room) (by simp)
    rw [bind_ok]
    refine ⟨_, if_neg (Nat.not_lt.mpr few), ?_⟩
    rw [bind_ok]
    refine ⟨_, parsed, ?_⟩
    simp only [after.skip_end]

end Baas.TreeFormat
