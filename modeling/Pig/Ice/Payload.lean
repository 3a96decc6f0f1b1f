import Pig.Lib.Go

namespace Pig.Ice

open Go

/-! The payloads of signaling: messages as JSON, and encrypted if there is a
key. -/

/-- What is used of the libraries. A key of 32 bytes is good for AES. -/
structure Codec (Message : Type) where
  marshal : Message → Bytes
  unmarshal : Bytes → Option Message
  encodeToString : Bytes → Bytes
  decodeString : Bytes → Option Bytes
  sealWith : (key nonce plaintext : Bytes) → Bytes
  openWith : (key nonce ciphertext : Bytes) → Option Bytes

structure Codec.Lawful {Message : Type} (codec : Codec Message) : Prop where
  unmarshal_marshal : ∀ msg, codec.unmarshal (codec.marshal msg) = some msg
  unmarshal_nil : codec.unmarshal [] = none
  decode_encode : ∀ bytes, codec.decodeString (codec.encodeToString bytes) = some bytes
  open_seal : ∀ key nonce plaintext, key.length = 32 → nonce.length = 12 →
    codec.openWith key nonce (codec.sealWith key nonce plaintext) = some plaintext

inductive SignalError where
  | cipherKey (size : Nat)
  | tooShort
  | decode
  | decrypt
  | unmarshal
  deriving DecidableEq, Repr

structure Nonce where
  bytes : Bytes
  length_eq : bytes.length = 12

section

variable {Message : Type} (codec : Codec Message)

/-- The key padded with zeros or cut off. -/
def fitKey (passkey : Bytes) : Bytes :=
  let passkey := if passkey.length < 32 then passkey ++ List.replicate (32 - passkey.length) 0
    else passkey
  if 32 < passkey.length then passkey.take 32 else passkey

def newCipher (key : Bytes) : Except SignalError Bytes :=
  if key.length = 16 ∨ key.length = 24 ∨ key.length = 32 then .ok key
  else .error (.cipherKey key.length)

def encrypt (nonce : Nonce) (plaintext passkey : Bytes) : Except SignalError Bytes := do
  let block ← newCipher (fitKey passkey)
  return nonce.bytes ++ codec.sealWith block nonce.bytes plaintext

def decrypt (encryptedText passkey : Bytes) : Except SignalError Bytes := do
  let block ← newCipher (fitKey passkey)
  if encryptedText.length < 12 then .error .tooShort
  else
    match codec.openWith block (encryptedText.take 12) (encryptedText.drop 12) with
    | some plaintext => .ok plaintext
    | none => .error .decrypt

/-- There is a key unless the slice is nil. -/
def preparePayload (encryptionKey : Option Bytes) (nonce : Nonce) (iceMsg : Message) :
    Except SignalError Bytes :=
  match encryptionKey with
  | none => .ok (codec.marshal iceMsg)
  | some key => do
      let ciphertext ← encrypt codec nonce (codec.marshal iceMsg) key
      return codec.encodeToString ciphertext

def decodePayload (key payload : Bytes) : Except SignalError Bytes :=
  match codec.decodeString payload with
  | none => .error .decode
  | some ciphertext => decrypt codec ciphertext key

def parseMessage (payload : Bytes) : Except SignalError Message :=
  match codec.unmarshal payload with
  | none => .error .unmarshal
  | some iceMsg => .ok iceMsg

/-- The payload of an offer is only set if there is a key. -/
def handleOfferMessage (encryptionKey : Option Bytes) (msg : Bytes) : Except SignalError Message :=
  match encryptionKey with
  | none => parseMessage codec []
  | some key => decodePayload codec key msg >>= parseMessage codec

def handleAnswerMessage (encryptionKey : Option Bytes) (msg : Bytes) :
    Except SignalError Message :=
  match encryptionKey with
  | none => parseMessage codec msg
  | some key => decodePayload codec key msg >>= parseMessage codec

end

theorem length_fitKey (passkey : Bytes) : (fitKey passkey).length = 32 := by
  simp only [fitKey]
  split <;> split <;> simp_all <;> omega

section

variable {Message : Type} {codec : Codec Message}

theorem newCipher_fitKey (passkey : Bytes) : newCipher (fitKey passkey) = .ok (fitKey passkey) :=
  if_pos (.inr (.inr (length_fitKey passkey)))

theorem decrypt_encrypt (lawful : codec.Lawful) (nonce : Nonce) (plaintext passkey : Bytes) :
    ∃ ciphertext, encrypt codec nonce plaintext passkey = .ok ciphertext ∧
      decrypt codec ciphertext passkey = .ok plaintext := by
  refine ⟨_, by rw [encrypt, newCipher_fitKey]; rfl, ?_⟩
  have hlong : ¬ (nonce.bytes ++
      codec.sealWith (fitKey passkey) nonce.bytes plaintext).length < 12 := by
    rw [List.length_append, nonce.length_eq]
    omega
  rw [decrypt, newCipher_fitKey, ok_bind, if_neg hlong, List.take_left' nonce.length_eq,
    List.drop_left' nonce.length_eq,
    lawful.open_seal _ _ _ (length_fitKey passkey) nonce.length_eq]

variable {encryptionKey : Option Bytes} {nonce : Nonce} {msg : Message}

/-- Answers are always recovered, offers exactly if there is a key. -/
theorem handleMessage_preparePayload (lawful : codec.Lawful) (encryptionKey : Option Bytes)
    (nonce : Nonce) (msg : Message) :
    ∃ payload, preparePayload codec encryptionKey nonce msg = .ok payload ∧
      handleAnswerMessage codec encryptionKey payload = .ok msg ∧
      (handleOfferMessage codec encryptionKey payload = .ok msg ↔ encryptionKey ≠ none) := by
  have hparse : parseMessage codec (codec.marshal msg) = .ok msg := by
    rw [parseMessage, lawful.unmarshal_marshal]
  cases encryptionKey with
  | none =>
    refine ⟨codec.marshal msg, rfl, hparse, iff_of_false ?_ (by simp)⟩
    rw [handleOfferMessage, parseMessage, lawful.unmarshal_nil]
    nofun
  | some key =>
    obtain ⟨ciphertext, hencrypt, hdecrypt⟩ := decrypt_encrypt lawful nonce (codec.marshal msg) key
    have hdecode : decodePayload codec key (codec.encodeToString ciphertext) =
        .ok (codec.marshal msg) := by
      rw [decodePayload, lawful.decode_encode]
      exact hdecrypt
    have hrecovers : (decodePayload codec key (codec.encodeToString ciphertext) >>=
        parseMessage codec) = .ok msg := by
      rw [hdecode, ok_bind, hparse]
    refine ⟨codec.encodeToString ciphertext, ?_, hrecovers, iff_of_true hrecovers nofun⟩
    rw [preparePayload, hencrypt]
    rfl

end

def sampleCodec : Codec UInt8 where
  marshal msg := [msg]
  unmarshal
    | [msg] => some msg
    | _ => none
  encodeToString bytes := bytes
  decodeString bytes := some bytes
  sealWith key _ plaintext := key ++ plaintext
  openWith key _ ciphertext := if ciphertext.take 32 = key then some (ciphertext.drop 32) else none

theorem lawful_sampleCodec : sampleCodec.Lawful where
  unmarshal_marshal _ := rfl
  unmarshal_nil := rfl
  decode_encode _ := rfl
  open_seal key nonce plaintext hkey _ := by
    simp [sampleCodec, List.take_left' hkey, List.drop_left' hkey]

def sampleNonce : Nonce := ⟨List.replicate 12 9, rfl⟩

theorem handleMessage_preparePayload_keyed : ∃ payload,
    preparePayload sampleCodec (some [1, 2, 3]) sampleNonce 5 = .ok payload ∧
      handleAnswerMessage sampleCodec (some [1, 2, 3]) payload = .ok 5 ∧
      handleOfferMessage sampleCodec (some [1, 2, 3]) payload = .ok 5 := by
  obtain ⟨payload, hprepare, hanswer, hoffer⟩ :=
    handleMessage_preparePayload lawful_sampleCodec (some [1, 2, 3]) sampleNonce 5
  exact ⟨payload, hprepare, hanswer, hoffer.mpr nofun⟩

/-- Without a key the offer is lost. -/
theorem exists_offer_lost : preparePayload sampleCodec none sampleNonce 5 = .ok [5] ∧
    handleAnswerMessage sampleCodec none [5] = .ok 5 ∧
    handleOfferMessage sampleCodec none [5] = .error .unmarshal :=
  ⟨rfl, rfl, rfl⟩

end Pig.Ice
