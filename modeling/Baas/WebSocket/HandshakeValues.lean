import Baas.Lib.Base64Url
import Baas.WebSocket.HandshakeFields

/-! The values of single fields: lists of tokens, lengths and keys. -/
namespace Baas.WebSocket

open JsonText (ascii byte_forall)

theorem trimOws_self {value : Bytes} (dark : ∀ c ∈ value, isOws c = false) :
    trimOws value = value := by
  unfold trimOws
  have front : value.dropWhile isOws = value := by
    cases value with
    | nil => rfl
    | cons c rest => exact List.dropWhile_cons_of_neg (by simp [dark c List.mem_cons_self])
  rw [front, List.rdropWhile_eq_self_iff]
  intro some
  simp [dark _ (List.getLast_mem some)]

theorem validAuthority_dark {value : Bytes} (valid : validAuthority value = true) :
    value ≠ [] ∧ ∀ c ∈ value, isOws c = false := by
  unfold validAuthority at valid
  split at valid
  · cases valid
  next filled =>
  split at valid
  · cases valid
  next inside =>
  refine ⟨filled, fun c there => ?_⟩
  have all := byte_forall (p := fun c => outsideAuthority c || !isOws c) (by decide +kernel) c
  have here : outsideAuthority c = false := by
    by_contra out
    exact inside (List.any_eq_true.mpr ⟨c, there, Bool.not_eq_false _ ▸ out⟩)
  simpa [here] using all

/-- A comma list of tokens, one of them `upgrade`. -/
structure UpgradeList (value : Bytes) : Prop where
  tokens : ∀ piece ∈ value.splitOn 44, Token (trimOws piece)
  upgrade : ∃ piece ∈ value.splitOn 44, lower (trimOws piece) = lower (ascii "upgrade")

theorem connectionTokens_iff (found : Bool) (pieces : List Bytes) :
    connectionTokens found pieces = .validWithUpgrade ↔
      (∀ piece ∈ pieces, Token (trimOws piece)) ∧ (found = true ∨
        ∃ piece ∈ pieces, lower (trimOws piece) = lower (ascii "upgrade")) := by
  induction pieces generalizing found with
  | nil => cases found <;> simp [connectionTokens]
  | cons piece rest ih =>
    unfold connectionTokens
    dsimp only
    rw [List.forall_mem_cons]
    split
    · next empty =>
      exact ⟨fun no => (by cases no), fun ⟨⟨token, _⟩, _⟩ => absurd empty token.some⟩
    next filled =>
    split
    · next strange =>
      refine ⟨fun no => (by cases no), fun ⟨⟨token, _⟩, _⟩ => ?_⟩
      rw [List.all_eq_true.mpr token.each] at strange
      cases strange
    next plain =>
    have token : Token (trimOws piece) := ⟨filled, by simpa using plain⟩
    rw [ih, Bool.or_eq_true, asciiIequals_iff, List.exists_mem_cons_iff, or_assoc]
    exact ⟨fun ⟨rest, named⟩ => ⟨⟨token, rest⟩, named⟩, fun ⟨⟨_, rest⟩, named⟩ => ⟨rest, named⟩⟩

theorem validateConnectionValue_iff (value : Bytes) :
    validateConnectionValue value = .validWithUpgrade ↔ UpgradeList value := by
  unfold validateConnectionValue
  rw [connectionTokens_iff]
  exact ⟨fun ⟨tokens, named⟩ => ⟨tokens, named.resolve_left (by decide)⟩,
    fun list => ⟨list.tokens, .inr list.upgrade⟩⟩

/-- Zeros and nothing else. -/
structure ZeroNumeral (value : Bytes) : Prop where
  some : value ≠ []
  zeros : ∀ c ∈ value, c = 48

theorem validateContentLength_iff (value : Bytes) :
    validateContentLength value = .zero ↔ ZeroNumeral (trimOws value) := by
  unfold validateContentLength
  dsimp only
  split
  · next empty => exact ⟨fun no => (by cases no), fun zero => absurd empty zero.some⟩
  next filled =>
  split
  · next strange =>
    refine ⟨fun no => (by cases no), fun zero => ?_⟩
    have digits : (trimOws value).all Decimal.isDigit = true := by
      rw [List.all_eq_true]
      intro c there
      rw [zero.zeros c there]
      decide
    rw [digits] at strange
    cases strange
  split
  · next other =>
    refine ⟨fun no => (by cases no), fun zero => ?_⟩
    obtain ⟨c, there, nonzero⟩ := List.any_eq_true.mp other
    exact absurd (zero.zeros c there) (by simpa using nonzero)
  · next zeros =>
    refine ⟨fun _ => ⟨filled, fun c there => ?_⟩, fun _ => rfl⟩
    by_contra nonzero
    exact zeros (List.any_eq_true.mpr ⟨c, there, by simpa using nonzero⟩)

/-! The key. -/

/-- The alphabet with a plus sign and a slash where the one for URLs has a dash and a low
line. -/
def toStandard (c : UInt8) : UInt8 := if c = 45 then 43 else if c = 95 then 47 else c

def base64 (bytes : Bytes) : Bytes := (Base64Url.encode bytes).map toStandard

theorem base64Value_symbol : ∀ n : Fin 64,
    base64Value (toStandard (Base64Url.symbol n)) = some n.val := by
  decide

theorem base64Value_some {c : UInt8} {n : Nat} (value : base64Value c = some n) :
    n < 64 ∧ c = toStandard (Base64Url.symbol n) := by
  have all := byte_forall (p := fun c => (base64Value c).all fun n =>
    n < 64 && c = toStandard (Base64Url.symbol n)) (by decide +kernel) c
  simp only [value, Option.all_some, Bool.and_eq_true, decide_eq_true_eq] at all
  exact all

def sextet (n : Nat) : UInt8 := toStandard (Base64Url.symbol n)

theorem base64_one (x : UInt8) :
    base64 [x] = [sextet (x.toNat / 4), sextet (x.toNat % 4 * 16), 61, 61] := rfl

theorem base64_three (x y z : UInt8) (rest : Bytes) : base64 (x :: y :: z :: rest) =
    sextet (x.toNat / 4) :: sextet (x.toNat % 4 * 16 + y.toNat / 16) ::
      sextet (y.toNat % 16 * 4 + z.toNat / 64) :: sextet (z.toNat % 64) :: base64 rest := by
  rw [base64, Base64Url.encode]
  rfl

theorem base64Value_sextet {n : Nat} (small : n < 64) : base64Value (sextet n) = some n :=
  base64Value_symbol ⟨n, small⟩

/-- Four digits are the digits of three bytes. -/
theorem three_of_four {a b c d : UInt8} (digits : ∀ e ∈ [a, b, c, d], (base64Value e).isSome) :
    ∃ x y z : UInt8, a = sextet (x.toNat / 4) ∧ b = sextet (x.toNat % 4 * 16 + y.toNat / 16) ∧
      c = sextet (y.toNat % 16 * 4 + z.toNat / 64) ∧ d = sextet (z.toNat % 64) := by
  simp only [List.forall_mem_cons, Option.isSome_iff_exists] at digits
  obtain ⟨⟨i, first⟩, ⟨j, second⟩, ⟨k, third⟩, ⟨l, fourth⟩, -⟩ := digits
  obtain ⟨hi, rfl⟩ := base64Value_some first
  obtain ⟨hj, rfl⟩ := base64Value_some second
  obtain ⟨hk, rfl⟩ := base64Value_some third
  obtain ⟨hl, rfl⟩ := base64Value_some fourth
  refine ⟨UInt8.ofNat (i * 4 + j / 16), UInt8.ofNat (j % 16 * 16 + k / 4),
    UInt8.ofNat (k % 4 * 64 + l), ?_⟩
  rw [UInt8.toNat_ofNat_of_lt' (by change _ < 256; omega),
    UInt8.toNat_ofNat_of_lt' (by change _ < 256; omega),
    UInt8.toNat_ofNat_of_lt' (by change _ < 256; omega)]
  refine ⟨congrArg sextet ?_, congrArg sextet ?_, congrArg sextet ?_, congrArg sextet ?_⟩ <;> omega

/-- The digits of a text that ends in the middle of its last group. -/
structure KeyDigits (core : Bytes) (groups : Nat) : Prop where
  size : core.length = 4 * groups + 2
  digits : ∀ c ∈ core, (base64Value c).isSome = true
  last : ∃ n, core.getLast?.bind base64Value = some n ∧ n % 16 = 0

theorem sextet_isSome {n : Nat} (small : n < 64) : (base64Value (sextet n)).isSome = true := by
  rw [base64Value_sextet small]
  rfl

theorem length_base64 (bytes : Bytes) : (base64 bytes).length = 4 * ((bytes.length + 2) / 3) := by
  rw [base64, List.length_map, Base64Url.length_encode]

theorem four_of_length {text : Bytes} (long : 4 ≤ text.length) :
    ∃ a b c d rest, text = a :: b :: c :: d :: rest := by
  match text, long with
  | a :: b :: c :: d :: rest, _ => exact ⟨a, b, c, d, rest, rfl⟩

theorem keyDigits_iff (groups : Nat) (core : Bytes) : KeyDigits core groups ↔
    ∃ bytes : Bytes, bytes.length = 3 * groups + 1 ∧ core ++ [61, 61] = base64 bytes := by
  induction groups generalizing core with
  | zero =>
    constructor
    · rintro ⟨size, digits, n, last, zero⟩
      obtain ⟨a, b, rfl⟩ := List.length_eq_two.mp size
      simp only [List.forall_mem_cons, Option.isSome_iff_exists] at digits
      obtain ⟨⟨i, first⟩, ⟨j, second⟩, -⟩ := digits
      obtain rfl : n = j := Option.some.inj (last.symm.trans second)
      obtain ⟨hi, rfl⟩ := base64Value_some first
      obtain ⟨hj, rfl⟩ := base64Value_some second
      refine ⟨[UInt8.ofNat (i * 4 + n / 16)], rfl, ?_⟩
      rw [base64_one, UInt8.toNat_ofNat_of_lt' (by change _ < 256; omega)]
      have same : (i * 4 + n / 16) / 4 = i ∧ (i * 4 + n / 16) % 4 * 16 = n := by omega
      rw [same.1, same.2]
      rfl
    · rintro ⟨bytes, size, whole⟩
      obtain ⟨x, rfl⟩ := List.length_eq_one_iff.mp size
      obtain ⟨h₁, h₂, -, -⟩ := Base64Url.three x 0 0
      simp only [UInt8.toNat_zero, Nat.zero_div, Nat.add_zero] at h₂
      have same : core = [sextet (x.toNat / 4), sextet (x.toNat % 4 * 16)] :=
        List.append_cancel_right (whole.trans (base64_one x))
      subst same
      refine ⟨rfl, ?_, x.toNat % 4 * 16, base64Value_sextet h₂, by omega⟩
      intro c there
      simp only [List.mem_cons, List.not_mem_nil, or_false] at there
      obtain rfl | rfl := there
      · exact sextet_isSome h₁
      · exact sextet_isSome h₂
  | succ groups ih =>
    have later {core : Bytes} (size : core.length = 4 * groups + 2) (a b c d : UInt8) :
        (a :: b :: c :: d :: core).getLast? = core.getLast? := by
      cases core with
      | nil => cases size
      | cons e core => rfl
    constructor
    · rintro ⟨size, digits, last⟩
      obtain ⟨a, b, c, d, core, rfl⟩ := four_of_length (by omega : 4 ≤ core.length)
      have size' : core.length = 4 * groups + 2 := by
        simp only [List.length_cons] at size
        omega
      rw [later size'] at last
      have front : ∀ e ∈ [a, b, c, d], (base64Value e).isSome = true :=
        fun e there => digits e (List.mem_append_left core there)
      have back : ∀ e ∈ core, (base64Value e).isSome = true :=
        fun e there => digits e (List.mem_append_right [a, b, c, d] there)
      obtain ⟨x, y, z, rfl, rfl, rfl, rfl⟩ := three_of_four front
      obtain ⟨bytes, count, whole⟩ := (ih core).mp ⟨size', back, last⟩
      refine ⟨x :: y :: z :: bytes, by simp only [List.length_cons]; omega, ?_⟩
      rw [base64_three, ← whole]
      rfl
    · rintro ⟨bytes, count, whole⟩
      have long := congrArg List.length whole
      rw [length_base64, List.length_append] at long
      obtain ⟨a, b, c, d, core, rfl⟩ := four_of_length
        (by simp only [List.length_cons, List.length_nil] at long; omega : 4 ≤ core.length)
      obtain ⟨x, y, z, w, rest, rfl⟩ := four_of_length (by omega : 4 ≤ bytes.length)
      have count' : (w :: rest).length = 3 * groups + 1 := by
        simp only [List.length_cons] at count ⊢
        omega
      rw [base64_three] at whole
      simp only [List.cons_append, List.cons.injEq] at whole
      obtain ⟨rfl, rfl, rfl, rfl, back⟩ := whole
      obtain ⟨size, digits, last⟩ := (ih core).mpr ⟨w :: rest, count', back⟩
      obtain ⟨h₁, h₂, h₃, h₄⟩ := Base64Url.three x y z
      refine ⟨by simp only [List.length_cons]; omega, ?_, by rwa [later size]⟩
      simp only [List.forall_mem_cons]
      exact ⟨sextet_isSome h₁, sextet_isSome h₂, sextet_isSome h₃, sextet_isSome h₄, digits⟩

theorem base64_padded {groups : Nat} {bytes : Bytes} (count : bytes.length = 3 * groups + 1) :
    ∃ core, base64 bytes = core ++ [61, 61] := by
  induction groups generalizing bytes with
  | zero =>
    obtain ⟨x, rfl⟩ := List.length_eq_one_iff.mp count
    exact ⟨[_, _], base64_one x⟩
  | succ groups ih =>
    obtain ⟨x, y, z, w, rest, rfl⟩ := four_of_length (by omega : 4 ≤ bytes.length)
    have count' : (w :: rest).length = 3 * groups + 1 := by
      simp only [List.length_cons] at count ⊢
      omega
    obtain ⟨core, whole⟩ := ih count'
    rw [base64_three, whole]
    exact ⟨_ :: _ :: _ :: _ :: core, rfl⟩

theorem validWebsocketKey_digits (core : Bytes) :
    validWebsocketKey (core ++ [61, 61]) = true ↔ KeyDigits core 5 := by
  unfold validWebsocketKey
  by_cases size : core.length = 22
  · have front : (core ++ [61, 61]).take 22 = core := by rw [← size, List.take_left]
    have back : (core ++ [61, 61]).drop 22 = [61, 61] := by rw [← size, List.drop_left]
    have last : ((core ++ [61, 61]).drop 21).head? = core.getLast? := by
      rw [List.head?_drop, List.getLast?_eq_getElem?, size,
        List.getElem?_append_left (by omega)]
    rw [if_neg (by simp [size, back]), front, last]
    constructor
    · intro valid
      split at valid
      · cases valid
      next digits =>
      simp only [Bool.not_eq_true', Bool.not_eq_false, List.all_eq_true] at digits
      cases value : core.getLast?.bind base64Value with
      | none =>
        rw [value] at valid
        cases valid
      | some n =>
        rw [value, Option.any_some, decide_eq_true_eq] at valid
        exact ⟨size, digits, n, value, by rwa [← Nat.and_two_pow_sub_one_eq_mod n 4]⟩
    · rintro ⟨_, digits, n, value, zero⟩
      rw [List.all_eq_true.mpr digits, value, Option.any_some]
      exact decide_eq_true ((Nat.and_two_pow_sub_one_eq_mod n 4).trans zero)
  · rw [if_pos (.inl (by simpa using size))]
    exact ⟨fun no => (by cases no), fun key => absurd key.size size⟩

/-- The key is the canonical base64 of sixteen bytes. -/
theorem validWebsocketKey_iff (value : Bytes) : validWebsocketKey value = true ↔
    ∃ bytes : Bytes, bytes.length = 16 ∧ value = base64 bytes := by
  constructor
  · intro valid
    have shape : value.length = 24 ∧ value.drop 22 = [61, 61] := by
      by_contra other
      unfold validWebsocketKey at valid
      rw [if_pos (Decidable.not_and_iff_not_or_not.mp other)] at valid
      cases valid
    have whole : value.take 22 ++ [61, 61] = value := by rw [← shape.2, List.take_append_drop]
    rw [← whole, validWebsocketKey_digits, keyDigits_iff, whole] at valid
    exact valid
  · rintro ⟨bytes, count, rfl⟩
    obtain ⟨core, whole⟩ := base64_padded (show bytes.length = 3 * 5 + 1 from count)
    rw [whole, validWebsocketKey_digits, keyDigits_iff]
    exact ⟨bytes, count, whole.symm⟩

end Baas.WebSocket
