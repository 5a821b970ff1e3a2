import Baas.Auth.SecureEnvelope

/-! One cipher encrypts, the other one decrypts: what arrives, which nonces are used and
which sequences are accepted. -/
namespace Baas.Auth

open Decimal JsonText

/-! Nonces. -/

theorem controlSequenceNonce_eq (sequence : Nat) : controlSequenceNonce sequence =
    [0, 0, 0, 0, UInt8.ofNat (sequence >>> 56 % 256), UInt8.ofNat (sequence >>> 48 % 256),
      UInt8.ofNat (sequence >>> 40 % 256), UInt8.ofNat (sequence >>> 32 % 256),
      UInt8.ofNat (sequence >>> 24 % 256), UInt8.ofNat (sequence >>> 16 % 256),
      UInt8.ofNat (sequence >>> 8 % 256), UInt8.ofNat (sequence >>> 0 % 256)] := rfl

theorem length_controlSequenceNonce (sequence : Nat) :
    (controlSequenceNonce sequence).length = nonceBytes := by
  rw [controlSequenceNonce_eq]
  rfl

/-- Numbers are equal where they agree in the next byte and above it. -/
theorem div_join {n m k : Nat} (low : n / 2 ^ k % 256 = m / 2 ^ k % 256)
    (high : n / 2 ^ (k + 8) = m / 2 ^ (k + 8)) : n / 2 ^ k = m / 2 ^ k := by
  rw [pow_add, ← Nat.div_div_eq_div_mul, ← Nat.div_div_eq_div_mul] at high
  change n / 2 ^ k / 256 = m / 2 ^ k / 256 at high
  omega

theorem controlSequenceNonce_injective {first second : Nat}
    (small : first ≤ maximumSafeJsonInteger) (small' : second ≤ maximumSafeJsonInteger)
    (same : controlSequenceNonce first = controlSequenceNonce second) : first = second := by
  have byte {n m : Nat} (same : UInt8.ofNat (n % 256) = UInt8.ofNat (m % 256)) :
      n % 256 = m % 256 := by
    have values := congrArg UInt8.toNat same
    simpa using values
  rw [controlSequenceNonce_eq, controlSequenceNonce_eq] at same
  simp only [List.cons.injEq, true_and, and_true] at same
  obtain ⟨b₇, b₆, b₅, b₄, b₃, b₂, b₁, b₀⟩ := same
  replace b₀ := byte b₀
  replace b₁ := byte b₁
  replace b₂ := byte b₂
  replace b₃ := byte b₃
  replace b₄ := byte b₄
  replace b₅ := byte b₅
  replace b₆ := byte b₆
  simp only [Nat.shiftRight_eq_div_pow] at b₀ b₁ b₂ b₃ b₄ b₅ b₆
  unfold maximumSafeJsonInteger at small small'
  -- byte by byte, from the highest one that is not always zero
  have top : first / 2 ^ 56 = second / 2 ^ 56 :=
    (Nat.div_eq_of_lt (Nat.lt_of_le_of_lt small (by decide))).trans
      (Nat.div_eq_of_lt (Nat.lt_of_le_of_lt small' (by decide))).symm
  have s₅ := div_join (k := 40) b₅ (div_join b₆ top)
  have s₃ := div_join (k := 24) b₃ (div_join b₄ s₅)
  have s₁ := div_join (k := 8) b₁ (div_join b₂ s₃)
  have s₀ := div_join b₀ s₁
  rwa [pow_zero, Nat.div_one, Nat.div_one] at s₀

/-! Base64. -/

theorem validBase64Alphabet_encode (bytes : Text) :
    validBase64Alphabet false 0 (Base64Url.encode bytes) = true := by
  fun_induction Base64Url.encode bytes with
  | case1 => rfl
  | case2 a =>
    obtain ⟨h₁, h₂, -, -⟩ := Base64Url.three a 0 0
    simp only [UInt8.toNat_zero, Nat.zero_div, Nat.add_zero] at h₂
    simp [validBase64Alphabet, Base64Url.symbol_ne_padding h₁, Base64Url.symbol_ne_padding h₂,
      Base64Url.digit_symbol h₁, Base64Url.digit_symbol h₂]
  | case3 a b =>
    obtain ⟨h₁, h₂, h₃, -⟩ := Base64Url.three a b 0
    simp only [UInt8.toNat_zero, Nat.zero_div, Nat.add_zero] at h₃
    simp [validBase64Alphabet, Base64Url.symbol_ne_padding h₁, Base64Url.symbol_ne_padding h₂,
      Base64Url.symbol_ne_padding h₃, Base64Url.digit_symbol h₁, Base64Url.digit_symbol h₂,
      Base64Url.digit_symbol h₃]
  | case4 a b c rest ih =>
    obtain ⟨h₁, h₂, h₃, h₄⟩ := Base64Url.three a b c
    simp [validBase64Alphabet, Base64Url.symbol_ne_padding h₁, Base64Url.symbol_ne_padding h₂,
      Base64Url.symbol_ne_padding h₃, Base64Url.symbol_ne_padding h₄, Base64Url.digit_symbol h₁,
      Base64Url.digit_symbol h₂, Base64Url.digit_symbol h₃, Base64Url.digit_symbol h₄, ih]

theorem decodeBase64urlCanonical_encode {bytes : Text} (small : bytes.length ≤ 2147483647) :
    decodeBase64urlCanonical (Base64Url.encode bytes) = .ok bytes := by
  have four : ¬ ((Base64Url.encode bytes).length % 4 ≠ 0 ∨
      !validBase64Alphabet false 0 (Base64Url.encode bytes)) := by
    rw [Base64Url.length_encode, validBase64Alphabet_encode]
    simp
  unfold decodeBase64urlCanonical encodeBase64urlPadded
  rw [if_neg four, Base64Url.decode_encode]
  simp [Nat.not_lt.mpr small]

/-! The text of an envelope. -/

def envelopeValue (ciphertext : Text) (sequence : Nat) : CanonicalJsonValue :=
  .object [(ascii "ciphertext", .string ciphertext), (ascii "seq", .integer sequence),
    (ascii "type", .string (ascii "secure"))]

theorem escaped_encode (bytes : Text) :
    escaped (Base64Url.encode bytes) = Base64Url.encode bytes := by
  have plain : ∀ c ∈ Base64Url.encode bytes, escapeByte c = [c] := by
    intro c member
    obtain ⟨-, quote, backslash, control⟩ := Base64Url.mem_encode member
    have below : ¬ c < 0x20 := not_lt.mpr control
    have other {b : UInt8} (small : b < 0x20) : c ≠ b := by
      rintro rfl
      exact below small
    unfold escapeByte
    rw [if_neg quote, if_neg backslash, if_neg (other (by decide)), if_neg (other (by decide)),
      if_neg (other (by decide)), if_neg (other (by decide)), if_neg (other (by decide)),
      if_neg below]
  unfold escaped
  rw [List.flatMap_congr plain]
  simp

theorem render_envelopeValue (bytes : Text) (sequence : Nat) :
    render (envelopeValue (Base64Url.encode bytes) sequence) =
      SecureEnvelopeCipher.envelopeText (Base64Url.encode bytes) sequence := by
  have opening : ascii "\x7b\"ciphertext\":\"" =
      123 :: (quoted (ascii "ciphertext") ++ [58, 34]) := by
    simp only [ascii_eq]
    decide
  have middle : ascii "\",\"seq\":" = [34, 44] ++ quoted (ascii "seq") ++ [58] := by
    simp only [ascii_eq]
    decide
  have closing : ascii ",\"type\":\"secure\"\x7d" =
      44 :: (quoted (ascii "type") ++ 58 :: (quoted (ascii "secure") ++ [125])) := by
    simp only [ascii_eq]
    decide
  have text : quoted (Base64Url.encode bytes) = 34 :: (Base64Url.encode bytes ++ [34]) := by
    rw [quoted, escaped_encode]
  unfold SecureEnvelopeCipher.envelopeText
  rw [opening, middle, closing]
  simp [envelopeValue, render, renderMembers, joined, joinedTail, text, integerText]

theorem length_envelopeText (ciphertext : Text) (sequence : Nat) :
    (SecureEnvelopeCipher.envelopeText ciphertext sequence).length =
      40 + (decimal sequence).length + ciphertext.length := by
  have opening : (ascii "\x7b\"ciphertext\":\"").length = 15 := by rw [ascii_eq]; decide
  have middle : (ascii "\",\"seq\":").length = 8 := by rw [ascii_eq]; decide
  have closing : (ascii ",\"type\":\"secure\"\x7d").length = 17 := by rw [ascii_eq]; decide
  simp only [SecureEnvelopeCipher.envelopeText, List.length_append, opening, middle, closing]
  omega

theorem envelopeValue_readable (bytes : Text) {sequence room : Nat}
    (safe : sequence ≤ maximumSafeJsonInteger) :
    Readable (room + 2) (envelopeValue (Base64Url.encode bytes) sequence) := by
  have valid : validUtf8 (Base64Url.encode bytes) = true :=
    validUtf8_ascii (fun c member => (Base64Url.mem_encode member).1)
  have secure : validUtf8 (ascii "secure") = true := by rw [ascii_eq]; decide
  apply Readable.object
  · have sorted : [ascii "ciphertext", ascii "seq", ascii "type"].Pairwise (· < ·) := by
      simp only [ascii_eq]
      decide
    exact sorted
  · have keys : ∀ key ∈ [ascii "ciphertext", ascii "seq", ascii "type"], validUtf8 key = true := by
      simp only [ascii_eq]
      decide
    simpa using keys
  · simp only [List.forall_mem_cons]
    exact ⟨.string valid, .integer (by simpa using safe), .string secure, by simp⟩

/-- An envelope is read if it is not too long. -/
theorem envelopeMembers_envelopeText (bytes : Text) {sequence : Nat}
    (safe : sequence ≤ maximumSafeJsonInteger) :
    SecureEnvelopeCipher.envelopeMembers
      (SecureEnvelopeCipher.envelopeText (Base64Url.encode bytes) sequence) =
        if (SecureEnvelopeCipher.envelopeText (Base64Url.encode bytes) sequence).length ≤ 1048576
        then some ((sequence : Int), Base64Url.encode bytes) else none := by
  unfold SecureEnvelopeCipher.envelopeMembers
  by_cases small : (SecureEnvelopeCipher.envelopeText (Base64Url.encode bytes) sequence).length ≤
      1048576
  · rw [if_pos small]
    have readable : Readable _ _ := @envelopeValue_readable bytes sequence 62 safe
    have read : parseDocument {} (render (envelopeValue (Base64Url.encode bytes) sequence)) =
        .ok (envelopeValue (Base64Url.encode bytes) sequence) := by
      apply parseDocument_render readable
      simp [envelopeValue, values, memberValues]
    have valid := render_utf8 readable
    rw [render_envelopeValue] at read valid
    have parsed : parseCanonicalJsonValue
        (SecureEnvelopeCipher.envelopeText (Base64Url.encode bytes) sequence) =
          .ok (envelopeValue (Base64Url.encode bytes) sequence) := by
      unfold parseCanonicalJsonValue
      have some : CanonicalJsonLimits.empty {} = false := by decide
      rw [some, if_neg (by decide), if_neg (Nat.not_lt.mpr small), valid, read]
      rfl
    have names : ascii "ciphertext" ≠ ascii "seq" ∧ ascii "ciphertext" ≠ ascii "type" ∧
        ascii "seq" ≠ ascii "type" := by
      simp only [ascii_eq]
      decide
    obtain ⟨n₁, n₂, n₃⟩ := names
    rw [parsed]
    simp [envelopeValue, CanonicalJsonValue.find, n₁, n₂, n₃]
  · rw [if_neg small]
    have refused : parseCanonicalJsonValue
        (SecureEnvelopeCipher.envelopeText (Base64Url.encode bytes) sequence) =
          .error (.inputTooLarge, 0) := by
      unfold parseCanonicalJsonValue
      have some : CanonicalJsonLimits.empty {} = false := by decide
      rw [some, if_neg (by decide), if_pos (Nat.lt_of_not_le small)]
    rw [refused]

namespace SecureEnvelopeCipher

variable {aead : Aead} {cipher peer : SecureEnvelopeCipher} {plaintext : CanonicalJsonValue}
  {text : Text}

/-- How long an envelope with so many bytes of plaintext is. -/
def envelopeBytes (sequence plaintextBytes : Nat) : Nat :=
  40 + (decimal sequence).length + 4 * ((plaintextBytes + 18) / 3)

/-- The ciphertext of a plaintext under the next sequence. -/
def ciphertext (aead : Aead) (cipher : SecureEnvelopeCipher) (text : Text) : Text :=
  aead.encrypt cipher.transmitKey (controlSequenceNonce cipher.nextSendSequence) text
    (ascii "\x7b\"seq\":" ++ decimal cipher.nextSendSequence ++ ascii ",\"type\":\"secure\"\x7d")

theorem controlSequenceAad_safe {sequence : Nat} (safe : sequence ≤ maximumSafeJsonInteger) :
    controlSequenceAad sequence =
      .ok (ascii "\x7b\"seq\":" ++ decimal sequence ++ ascii ",\"type\":\"secure\"\x7d") := by
  unfold controlSequenceAad
  rw [if_neg (Nat.not_lt.mpr safe)]

theorem length_ciphertext (lawful : aead.Lawful)
    (encoded : encodeCanonicalJsonValue plaintext = .ok text) :
    (ciphertext aead cipher text).length = text.length + 16 ∧
      (ciphertext aead cipher text).length ≤ 2147483647 := by
  have small := (encode_adds encoded).2.2.2.2
  have size : (ciphertext aead cipher text).length = text.length + 16 := lawful.tag ..
  change text.length ≤ 1048576 at small
  omega

theorem encryptedEnvelope_eq (lawful : aead.Lawful)
    (safe : cipher.nextSendSequence ≤ maximumSafeJsonInteger)
    (encoded : encodeCanonicalJsonValue plaintext = .ok text) :
    cipher.encryptedEnvelope aead plaintext = .ok
      (envelopeText (Base64Url.encode (ciphertext aead cipher text)) cipher.nextSendSequence) := by
  have size : (ciphertext aead cipher text).length ≤ 2147483647 :=
    (length_ciphertext lawful encoded).2
  have keys : ¬ (cipher.transmitKey.length ≠ keyBytes ∨
      (controlSequenceNonce cipher.nextSendSequence).length ≠ nonceBytes) := by
    simp [cipher.transmitBytes, length_controlSequenceNonce]
  have armored : encodeBase64urlPadded (ciphertext aead cipher text) =
      .ok (Base64Url.encode (ciphertext aead cipher text)) := if_neg (Nat.not_lt.mpr size)
  unfold ciphertext at armored ⊢
  unfold encryptedEnvelope
  rw [encoded]
  simp only [controlSequenceAad_safe safe, chacha20poly1305IetfEncrypt, if_neg keys, armored]

/-- The keys are crossed and the counters agree. -/
structure Crossed (cipher peer : SecureEnvelopeCipher) : Prop where
  transmit : cipher.transmitKey = peer.receiveKey
  receive : cipher.receiveKey = peer.transmitKey
  send : cipher.nextSendSequence = peer.nextReceiveSequence
  expect : cipher.nextReceiveSequence = peer.nextSendSequence

theorem decryptedPlaintext_eq (lawful : aead.Lawful) (crossed : Crossed cipher peer)
    (safe : cipher.nextSendSequence ≤ maximumSafeJsonInteger)
    (encoded : encodeCanonicalJsonValue plaintext = .ok text) :
    peer.decryptedPlaintext aead
      (envelopeText (Base64Url.encode (ciphertext aead cipher text)) cipher.nextSendSequence) =
        if envelopeBytes cipher.nextSendSequence text.length ≤ 1048576 then
          .ok (canonical plaintext)
        else .error .invalidEnvelope := by
  obtain ⟨size, bound⟩ : (ciphertext aead cipher text).length = text.length + 16 ∧
      (ciphertext aead cipher text).length ≤ 2147483647 := length_ciphertext lawful encoded
  have length : (envelopeText (Base64Url.encode (ciphertext aead cipher text))
      cipher.nextSendSequence).length = envelopeBytes cipher.nextSendSequence text.length := by
    rw [length_envelopeText, Base64Url.length_encode, size, envelopeBytes]
  have keys : ¬ (peer.receiveKey.length ≠ keyBytes ∨
      (controlSequenceNonce peer.nextReceiveSequence).length ≠ nonceBytes) := by
    simp [peer.receiveBytes, length_controlSequenceNonce]
  have tagged : ¬ (ciphertext aead cipher text).length < tagBytes := by
    rw [size]
    unfold tagBytes
    omega
  have read := parse_encode encoded (encode_adds encoded).2.2.2.2
  have again : encodeCanonicalJsonValue (canonical plaintext) = .ok text := by
    rw [encode_canonical, encoded]
  have opened := lawful.decrypts cipher.transmitKey (controlSequenceNonce cipher.nextSendSequence)
    text (ascii "\x7b\"seq\":" ++ decimal cipher.nextSendSequence ++
      ascii ",\"type\":\"secure\"\x7d")
  unfold decryptedPlaintext
  rw [envelopeMembers_envelopeText _ safe, length]
  by_cases fits : envelopeBytes cipher.nextSendSequence text.length ≤ 1048576
  · rw [if_pos fits, if_pos fits]
    simp only [← crossed.send, ne_eq, not_true_eq_false, if_false,
      decodeBase64urlCanonical_encode bound, controlSequenceAad_safe safe,
      chacha20poly1305IetfDecrypt]
    rw [← crossed.send] at keys
    rw [if_neg keys, if_neg tagged, ← crossed.transmit]
    unfold ciphertext
    rw [opened]
    simp only [read, again]
    simp
  · rw [if_neg fits, if_neg fits]

/-! Calls in a row. -/

/-- A call of `encrypt`, which an allocation that fails may end. -/
structure Call where
  plaintext : CanonicalJsonValue
  failure : Option SecureEnvelopeError := none

def call (aead : Aead) (cipher : SecureEnvelopeCipher) (c : Call) :
    Except SecureEnvelopeError Text × SecureEnvelopeCipher :=
  match c.failure with
  | some error => (.error error, cipher)
  | none => cipher.encrypt aead c.plaintext

/-- The peer accepts every envelope in turn, with the value that went into it. -/
def Delivered (aead : Aead) : SecureEnvelopeCipher → SecureEnvelopeCipher → List Call → Prop
  | _, _, [] => True
  | cipher, peer, c :: rest =>
    match call aead cipher c with
    | (.error _, next) => Delivered aead next peer rest
    | (.ok envelope, next) =>
      (peer.decrypt aead envelope).1 = .ok (canonical c.plaintext) ∧
        Delivered aead next (peer.decrypt aead envelope).2 rest

/-- No envelope of these calls is too long for the peer's parser. -/
def Fit : Nat → List Call → Prop
  | _, [] => True
  | sequence, c :: rest =>
    match c.failure, encodeCanonicalJsonValue c.plaintext with
    | none, .ok text =>
      sequence ≤ maximumSafeJsonInteger →
        envelopeBytes sequence text.length ≤ 1048576 ∧ Fit (sequence + 1) rest
    | _, _ => Fit sequence rest

/-- The nonces of the envelopes that the calls return. -/
def nonces (aead : Aead) : SecureEnvelopeCipher → List Call → List Text
  | _, [] => []
  | cipher, c :: rest =>
    match call aead cipher c with
    | (.error _, next) => nonces aead next rest
    | (.ok _, next) => controlSequenceNonce cipher.nextSendSequence :: nonces aead next rest

/-- The sequences of the envelopes that are accepted. -/
def acceptedSequences (aead : Aead) : SecureEnvelopeCipher → List Text → List (Option Int)
  | _, [] => []
  | cipher, envelope :: rest =>
    match cipher.decrypt aead envelope with
    | (.error _, next) => acceptedSequences aead next rest
    | (.ok _, next) =>
      (envelopeMembers envelope).map Prod.fst :: acceptedSequences aead next rest

/-- A call returns an error and changes nothing, or it returns an envelope and advances the
send sequence. -/
theorem call_cases (lawful : aead.Lawful) (cipher : SecureEnvelopeCipher) (c : Call) :
    (∃ error, call aead cipher c = (.error error, cipher) ∧
      (c.failure ≠ none ∨ (∃ error, encodeCanonicalJsonValue c.plaintext = .error error) ∨
        maximumSafeJsonInteger < cipher.nextSendSequence)) ∨
    ∃ text next, c.failure = none ∧ encodeCanonicalJsonValue c.plaintext = .ok text ∧
      cipher.nextSendSequence ≤ maximumSafeJsonInteger ∧
      call aead cipher c = (.ok (envelopeText (Base64Url.encode (ciphertext aead cipher text))
        cipher.nextSendSequence), next) ∧
      next.transmitKey = cipher.transmitKey ∧ next.receiveKey = cipher.receiveKey ∧
      next.nextSendSequence = cipher.nextSendSequence + 1 ∧
      next.nextReceiveSequence = cipher.nextReceiveSequence := by
  unfold call
  cases failed : c.failure with
  | some error => exact .inl ⟨error, rfl, .inl (by simp)⟩
  | none =>
    unfold encrypt
    by_cases exhausted : cipher.nextSendSequence > maximumSafeJsonInteger
    · exact .inl ⟨_, by rw [dif_pos exhausted], .inr (.inr exhausted)⟩
    · have safe : cipher.nextSendSequence ≤ maximumSafeJsonInteger := Nat.not_lt.mp exhausted
      rw [dif_neg exhausted]
      cases encoded : encodeCanonicalJsonValue c.plaintext with
      | error error =>
        left
        refine ⟨.invalidPlaintext, ?_, .inr (.inl ⟨error, rfl⟩)⟩
        simp [encryptedEnvelope, encoded]
      | ok text =>
        right
        rw [encryptedEnvelope_eq lawful safe encoded]
        exact ⟨text, _, rfl, rfl, safe, rfl, rfl, rfl, rfl, rfl⟩

theorem decrypt_cases (aead : Aead) (peer : SecureEnvelopeCipher) (envelope : Text) :
    (∃ error, peer.decrypt aead envelope = (.error error, peer)) ∨
    ∃ value next, peer.decrypt aead envelope = (.ok value, next) ∧
      peer.nextReceiveSequence ≤ maximumSafeJsonInteger ∧
      peer.decryptedPlaintext aead envelope = .ok value ∧
      next.transmitKey = peer.transmitKey ∧ next.receiveKey = peer.receiveKey ∧
      next.nextSendSequence = peer.nextSendSequence ∧
      next.nextReceiveSequence = peer.nextReceiveSequence + 1 := by
  unfold decrypt
  by_cases exhausted : peer.nextReceiveSequence > maximumSafeJsonInteger
  · exact .inl ⟨_, by rw [dif_pos exhausted]⟩
  · rw [dif_neg exhausted]
    cases opened : peer.decryptedPlaintext aead envelope with
    | error error => exact .inl ⟨error, rfl⟩
    | ok value => exact .inr ⟨value, _, rfl, Nat.not_lt.mp exhausted, rfl, rfl, rfl, rfl, rfl⟩

theorem decrypt_answer (safe : peer.nextReceiveSequence ≤ maximumSafeJsonInteger)
    (envelope : Text) :
    (peer.decrypt aead envelope).1 = peer.decryptedPlaintext aead envelope := by
  unfold decrypt
  rw [dif_neg (Nat.not_lt.mpr safe)]
  cases peer.decryptedPlaintext aead envelope with
  | error error => rfl
  | ok value => rfl

theorem fit_exhausted {sequence : Nat} (exhausted : maximumSafeJsonInteger < sequence)
    (calls : List Call) : Fit sequence calls := by
  induction calls with
  | nil => trivial
  | cons c rest ih =>
    unfold Fit
    split
    · exact fun safe => absurd exhausted (Nat.not_lt.mpr safe)
    · exact ih

theorem delivered_iff_fit (lawful : aead.Lawful) (crossed : Crossed cipher peer)
    (calls : List Call) :
    Delivered aead cipher peer calls ↔ Fit cipher.nextSendSequence calls := by
  induction calls generalizing cipher peer with
  | nil => exact Iff.rfl
  | cons c rest ih =>
    obtain ⟨error, failed, why⟩ | ⟨text, next, works, encoded, safe, sent, t, r, send, expect⟩ :=
      call_cases lawful cipher c
    · have skipped : Fit cipher.nextSendSequence (c :: rest) ↔
          Fit cipher.nextSendSequence rest := by
        obtain broken | ⟨e, refused⟩ | exhausted := why
        · cases found : c.failure with
          | none => exact absurd found broken
          | some e => simp [Fit, found]
        · simp [Fit, refused]
        · exact iff_of_true (fit_exhausted exhausted _) (fit_exhausted exhausted _)
      rw [skipped, ← ih crossed]
      simp [Delivered, failed]
    · have open_ := decryptedPlaintext_eq lawful crossed safe encoded
      have one : Fit cipher.nextSendSequence (c :: rest) ↔
          envelopeBytes cipher.nextSendSequence text.length ≤ 1048576 ∧
            Fit next.nextSendSequence rest := by
        simp [Fit, works, encoded, safe, send]
      rw [one]
      simp only [Delivered, sent]
      have answer := @decrypt_answer aead peer (crossed.send ▸ safe)
        (envelopeText (Base64Url.encode (ciphertext aead cipher text)) cipher.nextSendSequence)
      by_cases fits : envelopeBytes cipher.nextSendSequence text.length ≤ 1048576
      · rw [if_pos fits] at open_
        rw [open_] at answer
        obtain ⟨error, refused⟩ | ⟨value, peer', accepted, -, -, t', r', send', expect'⟩ :=
          decrypt_cases aead peer
            (envelopeText (Base64Url.encode (ciphertext aead cipher text)) cipher.nextSendSequence)
        · rw [refused] at answer
          cases answer
        · have onward : Crossed next peer' :=
            ⟨by rw [t, r', crossed.transmit], by rw [r, t', crossed.receive],
              by rw [send, expect', crossed.send], by rw [expect, send', crossed.expect]⟩
          rw [answer, accepted, ih onward]
          simp [fits]
      · rw [if_neg fits] at open_
        rw [answer, open_]
        simp [fits]

theorem nonces_eq (lawful : aead.Lawful) (cipher : SecureEnvelopeCipher) (calls : List Call) :
    ∃ n, cipher.nextSendSequence + n ≤ maximumSafeJsonInteger + 1 ∧
      nonces aead cipher calls =
        (List.range' cipher.nextSendSequence n).map controlSequenceNonce := by
  induction calls generalizing cipher with
  | nil => exact ⟨0, cipher.sendSafe, rfl⟩
  | cons c rest ih =>
    obtain ⟨error, failed, -⟩ | ⟨text, next, -, -, safe, sent, -, -, send, -⟩ :=
      call_cases lawful cipher c
    · simpa [nonces, failed] using ih cipher
    · obtain ⟨n, bound, later⟩ := ih next
      rw [send] at bound later
      exact ⟨n + 1, by omega, by simp [nonces, sent, later, List.range'_succ]⟩

theorem nonces_nodup (lawful : aead.Lawful) (cipher : SecureEnvelopeCipher) (calls : List Call) :
    (nonces aead cipher calls).Nodup := by
  obtain ⟨n, bound, same⟩ := nonces_eq lawful cipher calls
  rw [same]
  apply List.Nodup.map_on _ List.nodup_range'
  intro first member second member'
  rw [List.mem_range'_1] at member member'
  exact controlSequenceNonce_injective (by omega) (by omega)

theorem accepted_sequence {envelope : Text} {value : CanonicalJsonValue}
    (opened : peer.decryptedPlaintext aead envelope = .ok value) :
    (envelopeMembers envelope).map Prod.fst = some (peer.nextReceiveSequence : Int) := by
  unfold decryptedPlaintext at opened
  split at opened
  · cases opened
  · next sequence ciphertext members =>
    split at opened
    · cases opened
    · next same =>
      rw [members]
      simpa using same

theorem acceptedSequences_eq (aead : Aead) (peer : SecureEnvelopeCipher) (envelopes : List Text) :
    ∃ n, acceptedSequences aead peer envelopes =
      (List.range' peer.nextReceiveSequence n).map (fun sequence => some (sequence : Int)) := by
  induction envelopes generalizing peer with
  | nil => exact ⟨0, rfl⟩
  | cons envelope rest ih =>
    obtain ⟨error, refused⟩ | ⟨value, next, accepted, -, opened, -, -, -, expect⟩ :=
      decrypt_cases aead peer envelope
    · simpa [acceptedSequences, refused] using ih peer
    · obtain ⟨n, later⟩ := ih next
      rw [expect] at later
      refine ⟨n + 1, ?_⟩
      simp [acceptedSequences, accepted, accepted_sequence opened, later, List.range'_succ]

/-- A text followed by sixteen bytes of its nonce and its key. -/
def sampleTag (key nonce : Text) : Text := (nonce.drop 4 ++ key).takeD 16 0

def sampleAead : Aead where
  encrypt key nonce plaintext _ := plaintext ++ sampleTag key nonce
  decrypt key nonce ciphertext _ :=
    if ciphertext.drop (ciphertext.length - 16) = sampleTag key nonce then
      some (ciphertext.take (ciphertext.length - 16))
    else none

theorem sampleAead_lawful : sampleAead.Lawful where
  decrypts := by
    intro key nonce plaintext aad
    have size : (sampleTag key nonce).length = 16 := List.takeD_length ..
    simp [sampleAead, size]
  rejects := by
    intro key nonce ciphertext aad plaintext opened
    simp only [sampleAead] at opened ⊢
    split at opened
    · next tag =>
      cases opened
      rw [← tag, List.take_append_drop]
    · cases opened
  tag := by
    intro key nonce plaintext aad
    have size : (sampleTag key nonce).length = 16 := List.takeD_length ..
    simp [sampleAead, size]

def sample : SecureEnvelopeCipher where
  transmitKey := List.replicate 32 1
  receiveKey := List.replicate 32 2
  nextSendSequence := 0
  nextReceiveSequence := 0
  transmitBytes := by decide
  receiveBytes := by decide
  apart := by decide
  sendSafe := by decide
  receiveSafe := by decide

def samplePeer : SecureEnvelopeCipher where
  transmitKey := List.replicate 32 2
  receiveKey := List.replicate 32 1
  nextSendSequence := 0
  nextReceiveSequence := 0
  transmitBytes := by decide
  receiveBytes := by decide
  apart := by decide
  sendSafe := by decide
  receiveSafe := by decide

theorem sample_crossed : Crossed sample samplePeer := ⟨rfl, rfl, rfl, rfl⟩

theorem append_fits {limits : CanonicalJsonLimits} {w : Writer} {value : Text}
    (fits : w.output.length + value.length ≤ limits.maxOutputBytes) :
    append limits w value = .ok { w with output := w.output ++ value } := by
  unfold append
  rw [if_neg (by omega)]

theorem append_replicate {limits : CanonicalJsonLimits} {w : Writer} {n : Nat}
    (fits : w.output.length + n ≤ limits.maxOutputBytes) :
    (List.replicate n 97).foldlM (fun w byte => append limits w (escapeByte byte)) w =
      .ok { w with output := w.output ++ List.replicate n 97 } := by
  induction n generalizing w with
  | zero => simp [pure, Except.pure]
  | succ n ih =>
    have byte : escapeByte 97 = [97] := by decide
    have one : append limits w (escapeByte 97) = .ok { w with output := w.output ++ [97] } := by
      rw [byte]
      exact append_fits (by simp only [List.length_singleton]; omega)
    rw [List.replicate_succ, List.foldlM_cons, one]
    simp only [bind, Except.bind]
    rw [ih (by simp only [List.length_append, List.length_singleton]; omega)]
    simp

/-- A string of so many letters is encoded. -/
theorem encode_replicate {n : Nat} (small : n + 2 ≤ 1048576) :
    encodeCanonicalJsonValue (.string (List.replicate n 97)) =
      .ok (34 :: (List.replicate n 97 ++ [34])) := by
  have valid : validUtf8 (List.replicate n 97) = true := by
    apply validUtf8_ascii
    intro c member
    rw [List.eq_of_mem_replicate member]
    decide
  have entered : enter {} 1 {} = .ok { valueCount := 1 } := rfl
  have opening : append {} { valueCount := 1 } [34] = .ok { output := [34], valueCount := 1 } := rfl
  have middle := @append_replicate {} { output := [34], valueCount := 1 } n (by
    simp only [List.length_singleton]
    omega)
  have closing : append {} { output := [34] ++ List.replicate n 97, valueCount := 1 } [34] =
      .ok { output := [34] ++ List.replicate n 97 ++ [34], valueCount := 1 } := by
    apply append_fits
    simp only [List.length_append, List.length_singleton, List.length_replicate]
    omega
  have some : CanonicalJsonLimits.empty {} = false := by decide
  unfold encodeCanonicalJsonValue appendValue appendJsonString
  rw [some, entered]
  simp only [bind, Except.bind, valid, opening, middle, closing]
  rfl

theorem fit_replicate {n : Nat} (small : n + 2 ≤ 1048576) :
    Fit 0 [⟨.string (List.replicate n 97), none⟩] ↔ 41 + 4 * ((n + 20) / 3) ≤ 1048576 := by
  have zero : decimal 0 = [48] := by simp [decimal]
  simp [Fit, encode_replicate small, envelopeBytes, zero]

end SecureEnvelopeCipher

end Baas.Auth
