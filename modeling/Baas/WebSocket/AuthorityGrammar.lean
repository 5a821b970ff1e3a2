import Baas.Lib.JsonText
import Baas.WebSocket.Authority

/-! The authorities as a grammar, and that the scanners take them. -/
namespace Baas.WebSocket

open Decimal

/-! The grammar. -/

structure Numeral (text : Bytes) : Prop where
  some : text ≠ []
  digits : ∀ c ∈ text, isDigit c = true

structure Octet (text : Bytes) : Prop extends Numeral text where
  short : text.length ≤ 3
  value : valueOf text ≤ 255

def Ipv4 (text : Bytes) : Prop :=
  ∃ a b c d, Octet a ∧ Octet b ∧ Octet c ∧ Octet d ∧
    text = a ++ 46 :: (b ++ 46 :: (c ++ 46 :: d))

structure Hextet (text : Bytes) : Prop where
  some : text ≠ []
  short : text.length ≤ 4
  digits : ∀ c ∈ text, isAsciiHex c = true

/-- Groups with single colons between them. The last two may be written with dots. -/
inductive Groups (dotted : Bool) : Bytes → Nat → Prop
  | one {text : Bytes} : Hextet text → Groups dotted text 1
  | quad {text : Bytes} : dotted = true → Ipv4 text → Groups dotted text 2
  | cons {text rest : Bytes} {n : Nat} :
      Hextet text → Groups dotted rest n → Groups dotted (text ++ 58 :: rest) (n + 1)

/-- One side of a compression. -/
def Side (dotted : Bool) (text : Bytes) (n : Nat) : Prop :=
  text = [] ∧ n = 0 ∨ Groups dotted text n

def Ipv6 (text : Bytes) : Prop :=
  Groups true text 8 ∨ ∃ left right m n, Side false left m ∧ Side true right n ∧ m + n < 8 ∧
    text = left ++ 58 :: 58 :: right

structure Label (text : Bytes) : Prop where
  short : text.length ≤ 63
  inner : ∀ c ∈ text, isAlnum c = true ∨ c = 45
  first : ∃ c, text.head? = some c ∧ isAlnum c = true
  last : ∃ c, text.getLast? = some c ∧ isAlnum c = true

/-- Labels with single dots between them. -/
inductive Labels : Bytes → Prop
  | one {text : Bytes} : Label text → Labels text
  | cons {text rest : Bytes} : Label text → Labels rest → Labels (text ++ 46 :: rest)

/-- A name with at most one dot behind it. -/
def DnsName (text : Bytes) : Prop :=
  ∃ name, Labels name ∧ name.length ≤ 253 ∧ (text = name ∨ text = name ++ [46])

/-- More than digits and dots. -/
def Lettered (text : Bytes) : Prop := ∃ c ∈ text, isDigit c = false ∧ c ≠ 46

def PortSuffix (text : Bytes) : Prop :=
  text = [] ∨ ∃ port, text = 58 :: port ∧ Numeral port ∧ valueOf port ≤ 65535

/-- `host` says which names stand for a host. -/
def AuthorityOf (host : Bytes → Prop) (text : Bytes) : Prop :=
  ∃ first port, PortSuffix port ∧ text = first ++ port ∧
    (host first ∨ ∃ literal, Ipv6 literal ∧ first = 91 :: (literal ++ [93]))

/-- An address, or a name that could not be meant as one. -/
def Host (text : Bytes) : Prop := Ipv4 text ∨ DnsName text ∧ Lettered text

def Authority : Bytes → Prop := AuthorityOf Host

/-- A name with two dots behind it. -/
def DoubledDot (text : Bytes) : Prop :=
  ∃ name, Labels name ∧ name.length < 253 ∧ Lettered name ∧ text = name ++ [46, 46]

/-! Cutting. -/

theorem cutAt_none {byte : UInt8} {text : Bytes} : cutAt byte text = none ↔ byte ∉ text := by
  induction text with
  | nil => simp [cutAt]
  | cons c rest ih =>
    unfold cutAt
    by_cases same : c = byte
    · simp [same]
    · simp [same, ih, Ne.symm same]

theorem cutAt_some {byte : UInt8} {text before after : Bytes} :
    cutAt byte text = some (before, after) ↔ text = before ++ byte :: after ∧ byte ∉ before := by
  induction text generalizing before with
  | nil => simp [cutAt]
  | cons c rest ih =>
    unfold cutAt
    by_cases same : c = byte
    · cases before with
      | nil => simp [same, eq_comm]
      | cons d before =>
        simp only [same, if_true, Option.some.injEq, Prod.mk.injEq, List.cons_append,
          List.cons.injEq, List.mem_cons, not_or]
        constructor
        · rintro ⟨none, -⟩
          cases none
        · rintro ⟨⟨rfl, -⟩, other, -⟩
          exact absurd rfl other
    · cases before with
      | nil => simp [same]
      | cons d before =>
        have shorter : cutAt byte rest = Option.some (before, after) ↔
            rest = before ++ byte :: after ∧ byte ∉ before := ih
        simp only [same, if_false, Option.map_eq_some_iff, Prod.exists, Prod.mk.injEq,
          List.cons.injEq, List.cons_append, List.mem_cons, not_or]
        constructor
        · rintro ⟨a, b, cut, ⟨rfl, rfl⟩, rfl⟩
          obtain ⟨rfl, free⟩ := shorter.mp cut
          exact ⟨⟨rfl, rfl⟩, Ne.symm same, free⟩
        · rintro ⟨⟨rfl, whole⟩, -, free⟩
          exact ⟨_, _, shorter.mpr ⟨whole, free⟩, ⟨rfl, rfl⟩, rfl⟩

theorem cut_unique {byte : UInt8} {first second rest rest' : Bytes}
    (same : first ++ byte :: rest = second ++ byte :: rest') (free : byte ∉ first)
    (free' : byte ∉ second) : first = second ∧ rest = rest' := by
  have left : cutAt byte (first ++ byte :: rest) = some (first, rest) :=
    cutAt_some.mpr ⟨rfl, free⟩
  have right := cutAt_some.mpr ⟨same, free'⟩
  cases left.symm.trans right
  exact ⟨rfl, rfl⟩

theorem splitOn_whole {byte : UInt8} {text : Bytes} (free : byte ∉ text) :
    text.splitOn byte = [text] := List.splitOn_eq_singleton free

theorem splitOn_join {byte : UInt8} {text rest : Bytes} (free : byte ∉ text) :
    (text ++ byte :: rest).splitOn byte = text :: rest.splitOn byte :=
  List.splitOn_append_cons_self_of_not_mem free rest

/-- The cases of a text by its first separator. -/
theorem splitOn_cases (byte : UInt8) (text : Bytes) :
    byte ∉ text ∧ text.splitOn byte = [text] ∨ ∃ first rest, byte ∉ first ∧
      text = first ++ byte :: rest ∧ text.splitOn byte = first :: rest.splitOn byte := by
  cases cut : cutAt byte text with
  | none => exact .inl ⟨cutAt_none.mp cut, splitOn_whole (cutAt_none.mp cut)⟩
  | some parts =>
    obtain ⟨first, rest⟩ := parts
    obtain ⟨rfl, free⟩ := cutAt_some.mp cut
    exact .inr ⟨first, rest, free, rfl, splitOn_join free⟩

/-! Ports. -/

theorem valueOf_snoc_le (port : Nat) (digits : Bytes) :
    port ≤ digits.foldl (fun n c => 10 * n + (c.toNat - 48)) port := by
  induction digits generalizing port with
  | nil => exact Nat.le_refl _
  | cons c rest ih =>
    rw [List.foldl_cons]
    exact Nat.le_trans (show port ≤ 10 * port + (c.toNat - 48) by omega) (ih _)

theorem digit_small {c : UInt8} (digit : isDigit c = true) : c.toNat - 48 ≤ 9 := by
  simp only [isDigit, Bool.and_eq_true, decide_eq_true_eq, UInt8.le_iff_toNat_le] at digit
  have high : c.toNat ≤ 57 := digit.2
  omega

theorem portFrom_iff {port : Nat} {digits : Bytes} (small : port ≤ 65535) :
    portFrom port digits = true ↔ (∀ c ∈ digits, isDigit c = true) ∧
      digits.foldl (fun n c => 10 * n + (c.toNat - 48)) port ≤ 65535 := by
  induction digits generalizing port with
  | nil => simp [portFrom, small]
  | cons c rest ih =>
    unfold portFrom
    cases digit : isDigit c with
    | false => simp [digit]
    | true =>
      have low := digit_small digit
      have past := valueOf_snoc_le (10 * port + (c.toNat - 48)) rest
      simp only [digit, Bool.not_true, Bool.false_eq_true, if_false, List.forall_mem_cons,
        true_and, List.foldl_cons]
      split
      · next large =>
        simp only [Bool.false_eq_true, false_iff, not_and, Nat.not_le]
        intro _
        omega
      · next fits =>
        rw [ih (by omega), Nat.mul_comm port 10]

theorem validDecimalPort_iff (port : Bytes) :
    validDecimalPort port = true ↔ Numeral port ∧ valueOf port ≤ 65535 := by
  unfold validDecimalPort
  split
  · next empty => exact ⟨fun no => (by cases no), fun ⟨numeral, _⟩ => absurd empty numeral.some⟩
  · next some =>
    rw [portFrom_iff (Nat.zero_le _)]
    exact ⟨fun ⟨digits, small⟩ => ⟨⟨some, digits⟩, small⟩,
      fun ⟨numeral, small⟩ => ⟨numeral.digits, small⟩⟩

/-! Addresses of version 4. -/

theorem validIpv4Component_iff (text : Bytes) : validIpv4Component text = true ↔ Octet text := by
  unfold validIpv4Component
  constructor
  · intro valid
    split at valid
    · cases valid
    next shape =>
    split at valid
    · cases valid
    next digits =>
    simp only [Bool.not_eq_true', decide_eq_false_iff_not, Nat.not_lt] at valid
    simp only [Bool.not_eq_true', Bool.not_eq_false, List.all_eq_true] at digits
    obtain ⟨some, short⟩ := not_or.mp shape
    exact ⟨⟨some, digits⟩, Nat.not_lt.mp short, valid⟩
  · intro octet
    have digits : text.all isDigit = true := List.all_eq_true.mpr octet.digits
    rw [if_neg (not_or.mpr ⟨octet.some, Nat.not_lt.mpr octet.short⟩), digits]
    simpa using octet.value

theorem Octet.dotless {text : Bytes} (octet : Octet text) : (46 : UInt8) ∉ text :=
  fun there => absurd (octet.digits 46 there) (by decide)

theorem validIpv4_iff (text : Bytes) : validIpv4 text = true ↔ Ipv4 text := by
  unfold validIpv4
  rw [Bool.and_eq_true, List.all_eq_true, decide_eq_true_eq]
  constructor
  · rintro ⟨valid, four⟩
    obtain ⟨a, b, c, d, pieces⟩ := List.length_eq_four.mp four
    have whole : [46].intercalate (text.splitOn 46) = text := List.intercalate_splitOn 46
    rw [pieces] at valid whole
    have octets : ∀ t ∈ [a, b, c, d], Octet t :=
      fun t there => (validIpv4Component_iff t).mp (valid t there)
    simp only [List.forall_mem_cons] at octets
    refine ⟨a, b, c, d, octets.1, octets.2.1, octets.2.2.1, octets.2.2.2.1, ?_⟩
    rw [← whole]
    simp [List.intercalate, List.intersperse]
  · rintro ⟨a, b, c, d, first, second, third, fourth, rfl⟩
    rw [splitOn_join first.dotless, splitOn_join second.dotless, splitOn_join third.dotless,
      splitOn_whole fourth.dotless]
    refine ⟨?_, rfl⟩
    simp only [List.forall_mem_cons, validIpv4Component_iff]
    exact ⟨first, second, third, fourth, fun _ none => absurd none List.not_mem_nil⟩

theorem Ipv4.each {text : Bytes} (address : Ipv4 text) : ∀ c ∈ text, isDigit c = true ∨ c = 46 := by
  obtain ⟨a, b, c, d, first, second, third, fourth, rfl⟩ := address
  intro x there
  simp only [List.mem_append, List.mem_cons] at there
  obtain h | h | h | h | h | h | h := there
  · exact .inl (first.digits x h)
  · exact .inr h
  · exact .inl (second.digits x h)
  · exact .inr h
  · exact .inl (third.digits x h)
  · exact .inr h
  · exact .inl (fourth.digits x h)

theorem Ipv4.dotted {text : Bytes} (address : Ipv4 text) : (46 : UInt8) ∈ text := by
  obtain ⟨a, b, c, d, _, _, _, _, rfl⟩ := address
  simp

theorem Ipv4.some {text : Bytes} (address : Ipv4 text) : text ≠ [] := by
  rintro rfl
  cases address.dotted

/-! Addresses of version 6. -/

variable {dotted : Bool}

theorem Hextet.dotless {text : Bytes} (hextet : Hextet text) : (46 : UInt8) ∉ text :=
  fun there => absurd (hextet.digits 46 there) (by decide)

theorem Hextet.undivided {text : Bytes} (hextet : Hextet text) : (58 : UInt8) ∉ text :=
  fun there => absurd (hextet.digits 58 there) (by decide)

theorem Ipv4.undivided {text : Bytes} (address : Ipv4 text) : (58 : UInt8) ∉ text := by
  intro there
  obtain digit | dot := address.each 58 there
  · exact absurd digit (by decide)
  · exact absurd dot (by decide)

/-- The three ways a group is taken or not. -/
theorem ipv6Groups_cons {groups total : Nat} {group : Bytes} {rest : List Bytes} :
    ipv6Groups dotted groups (group :: rest) = some total ↔
      (Hextet group ∧ ipv6Groups dotted (groups + 1) rest = some total) ∨
        dotted = true ∧ Ipv4 group ∧ rest = [] ∧ total = groups + 2 := by
  constructor
  · intro taken
    unfold ipv6Groups at taken
    split at taken
    · cases taken
    next some =>
    split at taken
    · split at taken
      · cases taken
      next quad =>
      simp only [Bool.or_eq_true, Bool.not_eq_true', decide_eq_true_eq, not_or,
        Bool.not_eq_false, ne_eq, Decidable.not_not] at quad
      obtain ⟨⟨may, rfl⟩, address⟩ := quad
      cases taken
      exact .inr ⟨may, (validIpv4_iff group).mp address, rfl, rfl⟩
    · split at taken
      · cases taken
      next shape =>
      simp only [Bool.or_eq_true, decide_eq_true_eq, Bool.not_eq_true', not_or,
        Bool.not_eq_false, List.all_eq_true, Nat.not_lt] at shape
      exact .inl ⟨⟨some, shape.1, shape.2⟩, taken⟩
  · rintro (⟨hextet, taken⟩ | ⟨rfl, address, rfl, rfl⟩)
    · have digits : group.all isAsciiHex = true := List.all_eq_true.mpr hextet.digits
      have short : ¬ group.length > 4 := Nat.not_lt.mpr hextet.short
      unfold ipv6Groups
      simp [hextet.some, hextet.dotless, digits, short, taken]
    · have valid := (validIpv4_iff group).mpr address
      unfold ipv6Groups
      simp [address.some, address.dotted, valid, ipv6Groups]

theorem ipv6Groups_take {text : Bytes} {groups n : Nat} (grammar : Groups dotted text n) :
    ipv6Groups dotted groups (text.splitOn 58) = some (groups + n) := by
  induction grammar generalizing groups with
  | one hextet =>
    rw [splitOn_whole hextet.undivided]
    exact ipv6Groups_cons.mpr (.inl ⟨hextet, rfl⟩)
  | quad may address =>
    rw [splitOn_whole address.undivided]
    exact ipv6Groups_cons.mpr (.inr ⟨may, address, rfl, rfl⟩)
  | cons hextet _ ih =>
    rw [splitOn_join hextet.undivided]
    refine ipv6Groups_cons.mpr (.inl ⟨hextet, ?_⟩)
    rw [ih, Nat.add_right_comm, Nat.add_assoc]

theorem ipv6Groups_spec {text : Bytes} {groups total : Nat}
    (taken : ipv6Groups dotted groups (text.splitOn 58) = some total) :
    ∃ n, Groups dotted text n ∧ total = groups + n := by
  induction length : text.length using Nat.strongRecOn generalizing text groups with
  | _ size ih =>
    subst length
    obtain ⟨_, pieces⟩ | ⟨first, rest, _, rfl, pieces⟩ := splitOn_cases 58 text
    · rw [pieces] at taken
      obtain ⟨hextet, done⟩ | ⟨may, address, _, rfl⟩ := ipv6Groups_cons.mp taken
      · cases done
        exact ⟨1, .one hextet, rfl⟩
      · exact ⟨2, .quad may address, rfl⟩
    · rw [pieces] at taken
      obtain ⟨hextet, later⟩ | ⟨_, _, none, _⟩ := ipv6Groups_cons.mp taken
      · have shorter : rest.length < (first ++ 58 :: rest).length := by
          simp only [List.length_append, List.length_cons]
          omega
        obtain ⟨n, grammar, rfl⟩ := ih _ shorter later rfl
        exact ⟨n + 1, .cons hextet grammar, by omega⟩
      · exact absurd none (List.splitOn_ne_nil 58 rest)

theorem Groups.some {text : Bytes} {n : Nat} (grammar : Groups dotted text n) : text ≠ [] := by
  cases grammar with
  | one hextet => exact hextet.some
  | quad _ address => exact address.some
  | cons _ _ => exact List.append_ne_nil_of_right_ne_nil _ (List.cons_ne_nil _ _)

theorem validIpv6Side_iff {side : Bytes} {groups total : Nat} :
    validIpv6Side side groups dotted = some total ↔
      ∃ n, Side dotted side n ∧ total = groups + n := by
  unfold validIpv6Side
  split
  · next empty =>
    constructor
    · intro same
      cases same
      exact ⟨0, .inl ⟨empty, rfl⟩, rfl⟩
    · rintro ⟨n, ⟨_, rfl⟩ | grammar, rfl⟩
      · rfl
      · exact absurd empty grammar.some
  · next some =>
    constructor
    · intro taken
      obtain ⟨n, grammar, same⟩ := ipv6Groups_spec taken
      exact ⟨n, .inr grammar, same⟩
    · rintro ⟨n, ⟨empty, _⟩ | grammar, rfl⟩
      · exact absurd empty some
      · exact ipv6Groups_take grammar

theorem digit_hex {c : UInt8} (digit : isDigit c = true) : isAsciiHex c = true := by
  simp [isAsciiHex, digit]

theorem Groups.each {text : Bytes} {n : Nat} (grammar : Groups dotted text n) :
    ∀ c ∈ text, isAsciiHex c = true ∨ c = 46 ∨ c = 58 := by
  induction grammar with
  | one hextet => exact fun c there => .inl (hextet.digits c there)
  | quad _ address => exact fun c there => (address.each c there).imp digit_hex .inl
  | cons hextet _ ih =>
    intro c there
    simp only [List.mem_append, List.mem_cons] at there
    obtain here | colon | later := there
    · exact .inl (hextet.digits c here)
    · exact .inr (.inr colon)
    · exact ih c later

theorem Side.each {text : Bytes} {n : Nat} (side : Side dotted text n) :
    ∀ c ∈ text, isAsciiHex c = true ∨ c = 46 ∨ c = 58 := by
  obtain ⟨rfl, _⟩ | grammar := side
  · exact fun c none => absurd none List.not_mem_nil
  · exact grammar.each

theorem Ipv6.each {text : Bytes} (address : Ipv6 text) :
    ∀ c ∈ text, isAsciiHex c = true ∨ c = 46 ∨ c = 58 := by
  obtain grammar | ⟨left, right, m, n, first, second, _, rfl⟩ := address
  · exact grammar.each
  · intro c there
    simp only [List.mem_append, List.mem_cons] at there
    obtain h | h | h | h := there
    · exact first.each c h
    · exact .inr (.inr h)
    · exact .inr (.inr h)
    · exact second.each c h

theorem Ipv6.some {text : Bytes} (address : Ipv6 text) : text ≠ [] := by
  obtain grammar | ⟨left, right, m, n, _, _, _, rfl⟩ := address
  · exact grammar.some
  · exact List.append_ne_nil_of_right_ne_nil _ (List.cons_ne_nil _ _)

/-! The two colons. -/

theorem findCompression_some {text left right : Bytes}
    (found : findCompression text = some (left, right)) : text = left ++ 58 :: 58 :: right := by
  induction text generalizing left with
  | nil => cases found
  | cons a rest ih =>
    cases rest with
    | nil => cases found
    | cons b rest =>
      unfold findCompression at found
      split at found
      · next both =>
        cases found
        obtain ⟨rfl, rfl⟩ := both
        rfl
      · simp only [Option.map_eq_some_iff, Prod.exists, Prod.mk.injEq] at found
        obtain ⟨before, after, later, rfl, rfl⟩ := found
        rw [ih later]
        rfl

/-- A text without colons lets the search through to what follows its colon. -/
theorem findCompression_join {first rest : Bytes} (free : (58 : UInt8) ∉ first)
    (some : first ≠ []) (next : rest.head? ≠ Option.some 58) :
    findCompression (first ++ 58 :: rest) =
      (findCompression rest).map (fun (left, right) => (first ++ 58 :: left, right)) := by
  induction first with
  | nil => exact absurd rfl some
  | cons a first ih =>
    have other : a ≠ 58 := fun same => free (same ▸ List.mem_cons_self)
    cases first with
    | nil =>
      rw [List.singleton_append, findCompression, if_neg (fun both => other both.1)]
      cases rest with
      | nil => rfl
      | cons b rest =>
        have other' : b ≠ 58 := fun same => next (by rw [same]; rfl)
        rw [findCompression, if_neg (fun both => other' both.2)]
        cases findCompression (b :: rest) <;> rfl
    | cons b first =>
      have free' : (58 : UInt8) ∉ b :: first := fun there => free (List.mem_cons_of_mem a there)
      have later := ih free' (List.cons_ne_nil b first)
      rw [List.cons_append, List.cons_append, findCompression, if_neg (fun both => other both.1)]
      rw [List.cons_append] at later
      rw [later]
      cases findCompression rest <;> rfl

theorem findCompression_none {text : Bytes} (free : (58 : UInt8) ∉ text) :
    findCompression text = none := by
  cases found : findCompression text with
  | none => rfl
  | some parts =>
    obtain ⟨left, right⟩ := parts
    rw [findCompression_some found] at free
    simp at free

theorem findCompression_here {left right : Bytes} (free : (58 : UInt8) ∉ left) :
    findCompression (left ++ 58 :: 58 :: right) = some (left, right) := by
  induction left with
  | nil => simp [findCompression]
  | cons a left ih =>
    have other : a ≠ 58 := fun same => free (same ▸ List.mem_cons_self)
    have later := ih (fun there => free (List.mem_cons_of_mem a there))
    cases left with
    | nil => simp [findCompression, other]
    | cons b left =>
      rw [List.cons_append] at later
      rw [List.cons_append, List.cons_append, findCompression, if_neg (fun both => other both.1),
        later]
      rfl

theorem undivided_head {text : Bytes} (free : (58 : UInt8) ∉ text) : text.head? ≠ some 58 :=
  fun there => free (List.mem_of_mem_head? there)

theorem Groups.head {text : Bytes} {n : Nat} (grammar : Groups dotted text n) :
    text.head? ≠ Option.some 58 := by
  cases grammar with
  | one hextet => exact undivided_head hextet.undivided
  | quad _ address => exact undivided_head address.undivided
  | @cons first rest _ hextet _ =>
    rw [List.head?_append_of_ne_nil _ hextet.some]
    exact undivided_head hextet.undivided

theorem Groups.single {text : Bytes} {n : Nat} (grammar : Groups dotted text n) :
    findCompression text = none := by
  induction grammar with
  | one hextet => exact findCompression_none hextet.undivided
  | quad _ address => exact findCompression_none address.undivided
  | cons hextet later ih =>
    rw [findCompression_join hextet.undivided hextet.some later.head, ih]
    rfl

theorem Groups.compressed {text right : Bytes} {n : Nat} (grammar : Groups dotted text n) :
    findCompression (text ++ 58 :: 58 :: right) = Option.some (text, right) := by
  induction grammar with
  | one hextet => exact findCompression_here hextet.undivided
  | quad _ address => exact findCompression_here address.undivided
  | @cons first rest _ hextet later ih =>
    have next : (rest ++ 58 :: 58 :: right).head? ≠ Option.some 58 := by
      rw [List.head?_append_of_ne_nil _ later.some]
      exact later.head
    rw [List.append_assoc, List.cons_append,
      findCompression_join hextet.undivided hextet.some next, ih]
    rfl

theorem Side.single {text : Bytes} {n : Nat} (side : Side dotted text n) :
    findCompression text = none := by
  obtain ⟨rfl, _⟩ | grammar := side
  · rfl
  · exact grammar.single

theorem Side.compressed {text right : Bytes} {n : Nat} (side : Side dotted text n) :
    findCompression (text ++ 58 :: 58 :: right) = some (text, right) := by
  obtain ⟨rfl, _⟩ | grammar := side
  · exact findCompression_here List.not_mem_nil
  · exact grammar.compressed

theorem validIpv6_iff (value : Bytes) : validIpv6 value = true ↔ Ipv6 value := by
  unfold validIpv6
  constructor
  · intro valid
    split at valid
    · cases valid
    next some =>
    split at valid
    · rw [decide_eq_true_eq, validIpv6Side_iff] at valid
      obtain ⟨n, ⟨empty, _⟩ | grammar, eight⟩ := valid
      · exact absurd empty some
      · rw [Nat.zero_add] at eight
        exact .inl (eight ▸ grammar)
    next left right found =>
    split at valid
    · cases valid
    split at valid
    · cases valid
    next groups before =>
    split at valid
    · cases valid
    next total after =>
    rw [decide_eq_true_eq] at valid
    obtain ⟨m, first, rfl⟩ := validIpv6Side_iff.mp before
    obtain ⟨n, second, rfl⟩ := validIpv6Side_iff.mp after
    rw [Nat.zero_add] at valid
    exact .inr ⟨left, right, m, n, first, second, valid, findCompression_some found⟩
  · rintro (grammar | ⟨left, right, m, n, first, second, few, rfl⟩)
    · rw [if_neg grammar.some, grammar.single]
      exact decide_eq_true (validIpv6Side_iff.mpr ⟨8, .inr grammar, rfl⟩)
    · have before := validIpv6Side_iff.mpr ⟨m, first, (Nat.zero_add m).symm⟩
      have after : validIpv6Side right m true = some (m + n) :=
        validIpv6Side_iff.mpr ⟨n, second, rfl⟩
      rw [if_neg (List.append_ne_nil_of_right_ne_nil _ (List.cons_ne_nil _ _)),
        first.compressed]
      simp only [second.single, Option.isSome_none, Bool.false_eq_true, if_false]
      rw [before]
      dsimp only
      rw [after]
      exact decide_eq_true few

end Baas.WebSocket
