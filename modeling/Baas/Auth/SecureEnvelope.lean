import Baas.Auth.CanonicalJsonRead
import Baas.Lib.Base64Url

/-! The secure control envelope: a pair of directional keys with a counter each. -/
namespace Baas.Auth

open Decimal JsonText

inductive CryptoError
  | initializationFailed | invalidInput | invalidLength | invalidBase64 | noncanonicalBase64
  | derivationFailed | verificationFailed | authenticationFailed | resourceExhausted
deriving DecidableEq

inductive SecureEnvelopeError
  | cryptoInitializationFailed | invalidKey | invalidEnvelope | invalidPlaintext
  | sequenceMismatch | sequenceExhausted | authenticationFailed | resourceExhausted
deriving DecidableEq

def mapCryptoError : CryptoError → SecureEnvelopeError
  | .initializationFailed => .cryptoInitializationFailed
  | .invalidLength => .invalidEnvelope
  | .invalidInput => .invalidEnvelope
  | .invalidBase64 => .invalidEnvelope
  | .noncanonicalBase64 => .invalidEnvelope
  | .verificationFailed => .authenticationFailed
  | .authenticationFailed => .authenticationFailed
  | .resourceExhausted => .resourceExhausted
  | .derivationFailed => .authenticationFailed

/-- ChaCha20-Poly1305, by key, nonce, text and associated data. -/
structure Aead where
  encrypt : Text → Text → Text → Text → Text
  decrypt : Text → Text → Text → Text → Option Text

/-- It decrypts exactly what was encrypted under the same key, nonce and associated data. -/
structure Aead.Lawful (aead : Aead) : Prop where
  decrypts : ∀ key nonce plaintext aad,
    aead.decrypt key nonce (aead.encrypt key nonce plaintext aad) aad = some plaintext
  rejects : ∀ key nonce ciphertext aad plaintext,
    aead.decrypt key nonce ciphertext aad = some plaintext →
      ciphertext = aead.encrypt key nonce plaintext aad
  tag : ∀ key nonce plaintext aad,
    (aead.encrypt key nonce plaintext aad).length = plaintext.length + 16

def keyBytes : Nat := 32
def nonceBytes : Nat := 12
def tagBytes : Nat := 16

def chacha20poly1305IetfEncrypt (aead : Aead) (key nonce plaintext aad : Text) :
    Except CryptoError Text :=
  if key.length ≠ keyBytes ∨ nonce.length ≠ nonceBytes then .error .invalidLength
  else .ok (aead.encrypt key nonce plaintext aad)

def chacha20poly1305IetfDecrypt (aead : Aead) (key nonce ciphertext aad : Text) :
    Except CryptoError Text :=
  if key.length ≠ keyBytes ∨ nonce.length ≠ nonceBytes then .error .invalidLength
  else if ciphertext.length < tagBytes then .error .invalidLength
  else
    match aead.decrypt key nonce ciphertext aad with
    | none => .error .authenticationFailed
    | some plaintext => .ok plaintext

def encodeBase64urlPadded (input : Text) : Except CryptoError Text :=
  if input.length > 2147483647 then .error .invalidLength else .ok (Base64Url.encode input)

def validBase64Alphabet (paddingStarted : Bool) (padding : Nat) : Text → Bool
  | [] => true
  | value :: rest =>
    if value = Base64Url.padding then
      if padding + 1 > 2 then false else validBase64Alphabet true (padding + 1) rest
    else if paddingStarted then false
    else if (Base64Url.digit value).isNone then false
    else validBase64Alphabet false padding rest

def decodeBase64urlCanonical (input : Text) : Except CryptoError Text :=
  if input.length % 4 ≠ 0 ∨ !validBase64Alphabet false 0 input then .error .invalidBase64
  else
    match Base64Url.decode input with
    | none => .error .invalidBase64
    | some decoded =>
      match encodeBase64urlPadded decoded with
      | .error error => .error error
      | .ok canonical => if canonical ≠ input then .error .noncanonicalBase64 else .ok decoded

/-- The sequence in the last eight of twelve bytes, its highest byte first. -/
def controlSequenceNonce (sequence : Nat) : Text :=
  (List.range 8).foldl
    (fun nonce offset => nonce.set (11 - offset) (UInt8.ofNat (sequence >>> (offset * 8) % 256)))
    (List.replicate 12 0)

def controlSequenceAad (sequence : Nat) : Except CryptoError Text :=
  if sequence > maximumSafeJsonInteger then .error .invalidInput
  else .ok (ascii "\x7b\"seq\":" ++ decimal sequence ++ ascii ",\"type\":\"secure\"\x7d")

/-- The keys of a cipher are different keys of the right length, and its counters stop behind
the last safe integer. -/
structure SecureEnvelopeCipher where
  transmitKey : Text
  receiveKey : Text
  nextSendSequence : Nat
  nextReceiveSequence : Nat
  transmitBytes : transmitKey.length = keyBytes
  receiveBytes : receiveKey.length = keyBytes
  apart : transmitKey ≠ receiveKey
  sendSafe : nextSendSequence ≤ maximumSafeJsonInteger + 1
  receiveSafe : nextReceiveSequence ≤ maximumSafeJsonInteger + 1

namespace SecureEnvelopeCipher

def create (transmitKey receiveKey : Text) (nextSend nextReceive : Nat) :
    Except CryptoError SecureEnvelopeCipher :=
  if lengths : transmitKey.length ≠ keyBytes ∨ receiveKey.length ≠ keyBytes then
    .error .invalidLength
  else if equal : transmitKey = receiveKey then .error .invalidInput
  else if unsafe_ : nextSend > maximumSafeJsonInteger ∨ nextReceive > maximumSafeJsonInteger then
    .error .invalidInput
  else
    .ok {
      transmitKey := transmitKey
      receiveKey := receiveKey
      nextSendSequence := nextSend
      nextReceiveSequence := nextReceive
      transmitBytes := by omega
      receiveBytes := by omega
      apart := equal
      sendSafe := by omega
      receiveSafe := by omega }

def envelopeText (ciphertext : Text) (sequence : Nat) : Text :=
  ascii "\x7b\"ciphertext\":\"" ++ ciphertext ++ ascii "\",\"seq\":" ++ decimal sequence ++
    ascii ",\"type\":\"secure\"\x7d"

variable (aead : Aead)

/-- The text of an envelope under the next sequence. -/
def encryptedEnvelope (cipher : SecureEnvelopeCipher) (plaintext : CanonicalJsonValue) :
    Except SecureEnvelopeError Text :=
  match encodeCanonicalJsonValue plaintext with
  | .error _ => .error .invalidPlaintext
  | .ok encodedPlaintext =>
    let nonce := controlSequenceNonce cipher.nextSendSequence
    match controlSequenceAad cipher.nextSendSequence with
    | .error error => .error (mapCryptoError error)
    | .ok aad =>
      match chacha20poly1305IetfEncrypt aead cipher.transmitKey nonce encodedPlaintext aad with
      | .error error => .error (mapCryptoError error)
      | .ok ciphertext =>
        match encodeBase64urlPadded ciphertext with
        | .error error => .error (mapCryptoError error)
        | .ok encodedCiphertext => .ok (envelopeText encodedCiphertext cipher.nextSendSequence)

def encrypt (cipher : SecureEnvelopeCipher) (plaintext : CanonicalJsonValue) :
    Except SecureEnvelopeError Text × SecureEnvelopeCipher :=
  if exhausted : cipher.nextSendSequence > maximumSafeJsonInteger then
    (.error .sequenceExhausted, cipher)
  else
    match cipher.encryptedEnvelope aead plaintext with
    | .error error => (.error error, cipher)
    | .ok envelope =>
      (.ok envelope, { cipher with
        nextSendSequence := cipher.nextSendSequence + 1
        sendSafe := by omega })

/-- The members of an envelope of the right form: its sequence and its ciphertext. -/
def envelopeMembers (envelope : Text) : Option (Int × Text) :=
  match parseCanonicalJsonValue envelope with
  | .error _ => none
  | .ok parsed =>
    match parsed with
    | .object members =>
      if members.length ≠ 3 then none
      else
        match parsed.find (ascii "type"), parsed.find (ascii "seq"),
          parsed.find (ascii "ciphertext") with
        | some (.string type), some (.integer sequence), some (.string ciphertext) =>
          if type ≠ ascii "secure" ∨ sequence < 0 then none else some (sequence, ciphertext)
        | _, _, _ => none
    | _ => none

/-- The value in an envelope with the next sequence. -/
def decryptedPlaintext (cipher : SecureEnvelopeCipher) (envelope : Text) :
    Except SecureEnvelopeError CanonicalJsonValue :=
  match envelopeMembers envelope with
  | none => .error .invalidEnvelope
  | some (sequence, ciphertextText) =>
    if sequence ≠ cipher.nextReceiveSequence then .error .sequenceMismatch
    else
      match decodeBase64urlCanonical ciphertextText with
      | .error error => .error (mapCryptoError error)
      | .ok ciphertext =>
        let nonce := controlSequenceNonce cipher.nextReceiveSequence
        match controlSequenceAad cipher.nextReceiveSequence with
        | .error error => .error (mapCryptoError error)
        | .ok aad =>
          match chacha20poly1305IetfDecrypt aead cipher.receiveKey nonce ciphertext aad with
          | .error error => .error (mapCryptoError error)
          | .ok plaintextText =>
            match parseCanonicalJsonValue plaintextText with
            | .error _ => .error .invalidPlaintext
            | .ok parsedPlaintext =>
              match encodeCanonicalJsonValue parsedPlaintext with
              | .error _ => .error .invalidPlaintext
              | .ok canonical =>
                if canonical ≠ plaintextText then .error .invalidPlaintext else .ok parsedPlaintext

def decrypt (cipher : SecureEnvelopeCipher) (envelope : Text) :
    Except SecureEnvelopeError CanonicalJsonValue × SecureEnvelopeCipher :=
  if exhausted : cipher.nextReceiveSequence > maximumSafeJsonInteger then
    (.error .sequenceExhausted, cipher)
  else
    match cipher.decryptedPlaintext aead envelope with
    | .error error => (.error error, cipher)
    | .ok plaintext =>
      (.ok plaintext, { cipher with
        nextReceiveSequence := cipher.nextReceiveSequence + 1
        receiveSafe := by omega })

end SecureEnvelopeCipher

end Baas.Auth
