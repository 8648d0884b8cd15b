import CordeliaCore.Base64Decoding
import CordeliaCore.CryptoPrimitives
import CordeliaCore.StepRuns

set_option autoImplicit false

/-!
# Encrypted payloads

`cordelia-crypto`: the payload that a provider makes of a plaintext and what another makes of
it. AES-256-GCM, scrypt and base64 come from the crates `ring`, `scrypt` and `base64` and are
parameters: what was sealed opens again under the same key and nonce, the tag is the last 16
bytes, and what was encoded decodes. The bytes of the random generator are an argument.
-/
namespace CordeliaCore.PayloadEncryption
open CryptoPrimitives StepRuns

def keyLength : ℕ := 32
def ivLength : ℕ := 12
def tagLen : ℕ := 16

abbrev Key := { bytes : Bytes // bytes.length = keyLength }

abbrev Iv := { bytes : Bytes // bytes.length = ivLength }

class Aes256Gcm where
  /-- `UnboundKey::new` takes these bytes. -/
  acceptsKey : Bytes → Bool
  /-- `Nonce::try_assume_unique_for_key` takes these bytes. -/
  acceptsNonce : Bytes → Bool
  sealAppendTag (key : Key) (nonce plaintext : Bytes) : Option Bytes
  openSealed (key : Key) (nonce sealed : Bytes) : Option Bytes
  open_of_seal : ∀ key nonce plaintext sealed,
    sealAppendTag key nonce plaintext = some sealed → openSealed key nonce sealed = some plaintext
  length_of_seal : ∀ key nonce plaintext sealed,
    sealAppendTag key nonce plaintext = some sealed → sealed.length = plaintext.length + tagLen

/-- With the logarithm of N, r and p. -/
class Scrypt where
  scrypt (logN r p : ℕ) (passphrase salt : Bytes) : Except String Key

class Base64 where
  encode : Bytes → String
  decode : String → Except String Bytes
  decode_encode : ∀ bytes, decode (encode bytes) = .ok bytes

inductive CryptoError where
  | encryptionFailed (reason : String)
  | decryptionFailed
  | unsupportedVersion (version : UInt32)
  | keyDerivationFailed (reason : String)
  | base64Error (reason : String)
deriving DecidableEq, Repr

structure EncryptedPayload where
  encrypted : Bool
  version : UInt32
  iv : String
  authTag : String
  ciphertext : String
deriving DecidableEq, Repr

def okOr {α : Type} (x : Option α) (err : CryptoError) : Except CryptoError α :=
  x.elim (.error err) .ok

def decode [Base64] (text : String) : Except CryptoError Bytes :=
  (Base64.decode text).mapError .base64Error

def deriveKey [Scrypt] (passphrase salt : Bytes) : Except CryptoError Key :=
  (Scrypt.scrypt 14 8 1 passphrase salt).mapError .keyDerivationFailed

structure Aes256GcmProvider where
  key : Option Key

namespace Aes256GcmProvider
variable [Aes256Gcm] (self : Aes256GcmProvider)

def new : Aes256GcmProvider := ⟨none⟩

def unlockWithKey (_self : Aes256GcmProvider) (keyBytes : Key) :
    Except CryptoError Aes256GcmProvider :=
  if Aes256Gcm.acceptsKey keyBytes.val then .ok ⟨some keyBytes⟩
  else .error (.encryptionFailed "invalid key")

def unlock [Scrypt] (passphrase salt : Bytes) : Except CryptoError Aes256GcmProvider := do
  let keyBytes ← deriveKey passphrase salt
  self.unlockWithKey keyBytes

def isUnlocked : Bool := self.key.isSome

variable [Base64]

/-- `rng` is what the generator fills the bytes with, unless it fails. -/
def encrypt (rng : Option Iv) (plaintext : Bytes) : Except CryptoError EncryptedPayload := do
  let key ← okOr self.key (.encryptionFailed "not unlocked")
  let ivBytes ← okOr rng (.encryptionFailed "RNG failure")
  if Aes256Gcm.acceptsNonce ivBytes.val then
    let inOut ← okOr (Aes256Gcm.sealAppendTag key ivBytes.val plaintext)
      (.encryptionFailed "seal failed")
    let tagStart := inOut.length - tagLen
    return {
      encrypted := true
      version := 1
      iv := Base64.encode ivBytes.val
      authTag := Base64.encode (inOut.drop tagStart)
      ciphertext := Base64.encode (inOut.take tagStart) }
  else .error (.encryptionFailed "nonce error")

def decrypt (payload : EncryptedPayload) : Except CryptoError Bytes :=
  if payload.version ≠ 1 then .error (.unsupportedVersion payload.version)
  else do
    let key ← okOr self.key (.encryptionFailed "not unlocked")
    let ivBytes ← decode payload.iv
    let authTag ← decode payload.authTag
    let ciphertext ← decode payload.ciphertext
    if Aes256Gcm.acceptsNonce ivBytes then
      okOr (Aes256Gcm.openSealed key ivBytes (ciphertext ++ authTag)) .decryptionFailed
    else .error .decryptionFailed

end Aes256GcmProvider

section Payloads
open Aes256Gcm
variable [Aes256Gcm] [Base64] {self : Aes256GcmProvider} {payload : EncryptedPayload}
variable {plaintext : Bytes}

omit [Aes256Gcm] in
theorem decode_encode (bytes : Bytes) : decode (Base64.encode bytes) = .ok bytes := by
  rw [decode, Base64.decode_encode]
  rfl

theorem encrypt_eq_ok {rng : Option Iv} (h : self.encrypt rng plaintext = .ok payload) :
    ∃ key iv sealed, self.key = some key ∧ rng = some iv ∧ acceptsNonce iv.val = true ∧
      sealAppendTag key iv.val plaintext = some sealed ∧
      payload = ⟨true, 1, Base64.encode iv.val,
        Base64.encode (sealed.drop (sealed.length - tagLen)),
        Base64.encode (sealed.take (sealed.length - tagLen))⟩ := by
  unfold Aes256GcmProvider.encrypt at h
  cases hkey : self.key with
  | none =>
    rw [hkey] at h
    cases h
  | some key =>
    cases rng with
    | none =>
      rw [hkey] at h
      cases h
    | some iv =>
      simp only [hkey, okOr, Option.elim, bind, Except.bind] at h
      split_ifs at h with haccepts
      cases hsealed : sealAppendTag key iv.val plaintext with
      | none =>
        rw [hsealed] at h
        cases h
      | some sealed =>
        rw [hsealed] at h
        exact ⟨key, iv, sealed, rfl, rfl, haccepts, hsealed, (Except.ok.inj h).symm⟩

structure WellFormed (plaintext : Bytes) (payload : EncryptedPayload) : Prop where
  encrypted : payload.encrypted = true
  version : payload.version = 1
  iv : ∃ iv : Iv, decode payload.iv = .ok iv.val
  authTag : ∃ authTag, decode payload.authTag = .ok authTag ∧ authTag.length = tagLen
  ciphertext : ∃ ciphertext, decode payload.ciphertext = .ok ciphertext ∧
    ciphertext.length = plaintext.length

theorem wellFormed_of_encrypt {rng : Option Iv} (h : self.encrypt rng plaintext = .ok payload) :
    WellFormed plaintext payload := by
  obtain ⟨key, iv, sealed, -, -, -, hseal, rfl⟩ := encrypt_eq_ok h
  have hlength := length_of_seal _ _ _ _ hseal
  refine ⟨rfl, rfl, ⟨iv, decode_encode _⟩, ⟨_, decode_encode _, ?_⟩, ⟨_, decode_encode _, ?_⟩⟩
  · rw [List.length_drop, hlength]
    omega
  · rw [List.length_take, hlength]
    omega

theorem decrypt_of_encrypt {rng : Option Iv} {other : Aes256GcmProvider}
    (h : self.encrypt rng plaintext = .ok payload) (hsame : other.key = self.key) :
    other.decrypt payload = .ok plaintext := by
  obtain ⟨key, iv, sealed, hkey, -, haccepts, hseal, rfl⟩ := encrypt_eq_ok h
  have hopen := open_of_seal _ _ _ _ hseal
  have hversion : ¬ ((1 : UInt32) ≠ 1) := fun hne => hne rfl
  unfold Aes256GcmProvider.decrypt
  rw [if_neg hversion, hsame, hkey, decode_encode, decode_encode, decode_encode]
  -- the two parts are joined where they were cut
  simp only [okOr, Option.elim, bind, Except.bind, haccepts, if_true, List.take_append_drop, hopen]

theorem encrypt_of_locked (h : self.key = none) (rng : Option Iv) (plaintext : Bytes) :
    self.encrypt rng plaintext = .error (.encryptionFailed "not unlocked") := by
  unfold Aes256GcmProvider.encrypt
  rw [h]
  rfl

theorem decrypt_of_locked (h : self.key = none) (payload : EncryptedPayload) :
    self.decrypt payload =
      if payload.version = 1 then .error (.encryptionFailed "not unlocked")
      else .error (.unsupportedVersion payload.version) := by
  unfold Aes256GcmProvider.decrypt
  rw [h]
  by_cases hversion : payload.version = 1
  · rw [if_pos hversion, if_neg (fun hne => hne hversion)]
    rfl
  · rw [if_neg hversion, if_pos hversion]

end Payloads

section Sessions
variable [Aes256Gcm] [Scrypt]

inductive Secret where
  | passphrase (passphrase salt : Bytes)
  | keyBytes (key : Key)

def Aes256GcmProvider.unlockBy (self : Aes256GcmProvider) :
    Secret → Except CryptoError Aes256GcmProvider
  | .passphrase passphrase salt => self.unlock passphrase salt
  | .keyBytes key => self.unlockWithKey key

/-- The call to unlock one of some providers; one that fails leaves it as it is. -/
def step (providers : ℕ → Aes256GcmProvider) (call : ℕ × Secret) : ℕ → Aes256GcmProvider :=
  match (providers call.1).unlockBy call.2 with
  | .ok unlocked => Function.update providers call.1 unlocked
  | .error _ => providers

def providersAfter (calls : List (ℕ × Secret)) : ℕ → Aes256GcmProvider :=
  run step (fun _ => .new) calls

def accepted (key : Option Key) : Option Key := key.filter (fun key => Aes256Gcm.acceptsKey key.val)

def Secret.key : Secret → Option Key
  | .passphrase words salt => accepted (deriveKey words salt).toOption
  | .keyBytes key => accepted (some key)

/-- The secret of the last call that unlocked a provider. -/
def lastUnlock (calls : List (ℕ × Secret)) (i : ℕ) : Option Secret :=
  (calls.filter (fun call => call.1 = i ∧ call.2.key.isSome)).getLast?.map (·.2)

theorem unlockBy_toOption (self : Aes256GcmProvider) (secret : Secret) :
    (self.unlockBy secret).toOption = secret.key.map (fun key => ⟨some key⟩) := by
  have hkey : ∀ key, (self.unlockWithKey key).toOption =
      (accepted (some key)).map (fun key => ⟨some key⟩) := by
    intro key
    unfold Aes256GcmProvider.unlockWithKey accepted
    rw [Option.filter_some]
    split_ifs <;> rfl
  cases secret with
  | keyBytes key => exact hkey key
  | passphrase words salt =>
    change ((deriveKey words salt).bind self.unlockWithKey).toOption =
      (accepted (deriveKey words salt).toOption).map (fun key => ⟨some key⟩)
    cases deriveKey words salt with
    | error err => rfl
    | ok key => exact hkey key

theorem step_key (providers : ℕ → Aes256GcmProvider) (call : ℕ × Secret) (i : ℕ) :
    (step providers call i).key =
      if call.1 = i ∧ call.2.key.isSome then call.2.key else (providers i).key := by
  have hunlock := unlockBy_toOption (providers call.1) call.2
  unfold step
  cases hresult : (providers call.1).unlockBy call.2 with
  | error err =>
    rw [hresult] at hunlock
    have hnone : call.2.key = none := Option.map_eq_none_iff.mp hunlock.symm
    simp [hnone]
  | ok unlocked =>
    rw [hresult] at hunlock
    obtain ⟨key, hkey, rfl⟩ := Option.map_eq_some_iff.mp hunlock.symm
    dsimp only
    rw [hkey, Function.update_apply]
    by_cases hi : i = call.1
    · simp [hi]
    · simp [hi, Ne.symm hi]

/-- A provider holds the key of the last secret that unlocked it. -/
theorem providersAfter_key (calls : List (ℕ × Secret)) (i : ℕ) :
    (providersAfter calls i).key = (lastUnlock calls i).bind Secret.key := by
  induction calls using List.reverseRecOn with
  | nil => rfl
  | append_singleton calls call ih =>
    have hstep : providersAfter (calls ++ [call]) = step (providersAfter calls) call := by
      unfold providersAfter
      rw [run_append, run_cons, run_nil]
    rw [hstep, step_key, ih]
    unfold lastUnlock
    rw [List.filter_append]
    split_ifs with hunlocks
    · simp [hunlocks]
    · simp [hunlocks]

theorem key_of_lastUnlock {calls : List (ℕ × Secret)} {i : ℕ} {secret : Secret}
    (h : lastUnlock calls i = some secret) : secret.key.isSome := by
  obtain ⟨call, hcall, rfl⟩ := Option.map_eq_some_iff.mp h
  have hunlocks := (List.mem_filter.mp (List.mem_of_getLast? hcall)).2
  exact (of_decide_eq_true hunlocks).2

variable [Base64]

/-- Whatever calls unlock which providers with which secrets: what a provider encrypts has the
    format of a payload and is decrypted, at any later time, by every provider whose last
    secret is then the one that the first had; and a provider that nothing has unlocked
    neither encrypts nor decrypts. -/
theorem payload_opens_with_same_secret (past coming : List (ℕ × Secret)) (i j : ℕ) :
    (∀ rng plaintext payload,
      (providersAfter past i).encrypt rng plaintext = .ok payload →
      lastUnlock (past ++ coming) j = lastUnlock past i →
        WellFormed plaintext payload ∧
          (providersAfter (past ++ coming) j).decrypt payload = .ok plaintext) ∧
      (providersAfter past i).isUnlocked = (lastUnlock past i).isSome ∧
      (lastUnlock past i = none →
        (∀ rng plaintext, (providersAfter past i).encrypt rng plaintext =
          .error (.encryptionFailed "not unlocked")) ∧
        ∀ payload, (providersAfter past i).decrypt payload =
          if payload.version = 1 then .error (.encryptionFailed "not unlocked")
          else .error (.unsupportedVersion payload.version)) := by
  have hkey := providersAfter_key past i
  refine ⟨fun rng plaintext payload hmade hsame => ?_, ?_, fun hnever => ?_⟩
  · refine ⟨wellFormed_of_encrypt hmade, decrypt_of_encrypt hmade ?_⟩
    rw [providersAfter_key, hsame, hkey]
  · unfold Aes256GcmProvider.isUnlocked
    rw [hkey]
    cases hlast : lastUnlock past i with
    | none => rfl
    | some secret => exact key_of_lastUnlock hlast
  · rw [hnever, Option.bind_none] at hkey
    exact ⟨encrypt_of_locked hkey, decrypt_of_locked hkey⟩

end Sessions

section Example

@[reducible] def standardBase64 : Base64 where
  encode bytes := TextEncodings.ascii (TextEncodings.base64 bytes)
  decode text := (TextEncodings.decodeBase64 (TextEncodings.utf8 text)).elim (.error "") .ok
  decode_encode bytes := by rw [TextEncodings.decodeBase64_text]; rfl

def exampleSalt : Bytes := List.replicate 32 0x42

def exampleKey : Key :=
  ⟨[0x67, 0x7d, 0xdf, 0x4b, 0xdd, 0x69, 0x0a, 0xf2, 0x64, 0x4d, 0x7b, 0xd3, 0x09, 0x21, 0xb3, 0x64,
    0x48, 0xd1, 0x50, 0xf4, 0x14, 0xc0, 0x6d, 0x06, 0x5b, 0xdf, 0x67, 0x20, 0x76, 0xfa, 0x5d, 0x35],
    rfl⟩

@[reducible] def knownKeys : Scrypt where
  scrypt logN r p passphrase salt :=
    if (logN, r, p) = (14, 8, 1) ∧ passphrase = asBytes "test-passphrase" ∧ salt = exampleSalt then
      .ok exampleKey
    else .error ""

def exampleIv : Iv := ⟨[0, 1, 2, 3, 4, 5, 6, 7, 8, 9, 10, 11], rfl⟩

def examplePlaintext : Bytes := asBytes "hello cordelia"

def exampleSealed : Bytes :=
  [0xa6, 0x5f, 0x35, 0xb3, 0x03, 0x4b, 0x0e, 0x21, 0xce, 0xc4, 0x4e, 0x4a, 0x82, 0xc8,
    0x82, 0x0d, 0xd2, 0x76, 0x68, 0xea, 0x07, 0xde, 0x3a, 0xfe, 0x2e, 0x29, 0x58, 0x27, 0x1c, 0x93]

/-- The cipher on the one text that the concrete run encrypts. -/
@[reducible] def knownSeals : Aes256Gcm where
  acceptsKey bytes := bytes.length = keyLength
  acceptsNonce bytes := bytes.length = ivLength
  sealAppendTag key nonce plaintext :=
    if key = exampleKey ∧ nonce = exampleIv.val ∧ plaintext = examplePlaintext then
      some exampleSealed
    else none
  openSealed key nonce sealed :=
    if key = exampleKey ∧ nonce = exampleIv.val ∧ sealed = exampleSealed then
      some examplePlaintext
    else none
  open_of_seal key nonce plaintext sealed h := by
    obtain ⟨⟨hkey, hnonce, hplaintext⟩, hsealed⟩ := Option.ite_none_right_eq_some.mp h
    rw [if_pos ⟨hkey, hnonce, (Option.some.inj hsealed).symm⟩, hplaintext]
  length_of_seal key nonce plaintext sealed h := by
    obtain ⟨⟨-, -, rfl⟩, hsealed⟩ := Option.ite_none_right_eq_some.mp h
    rw [← Option.some.inj hsealed]
    decide +kernel

def examplePayload : EncryptedPayload :=
  ⟨true, 1, "AAECAwQFBgcICQoL", "gg3SdmjqB946/i4pWCcckw==", "pl81swNLDiHOxE5Kgsg="⟩

/-- The second provider has had another key before; the third is never unlocked. -/
theorem payload_opens_elsewhere :
    let := knownSeals
    let := knownKeys
    let := standardBase64
    let secret := Secret.passphrase (asBytes "test-passphrase") exampleSalt
    let other := Secret.keyBytes ⟨List.replicate 32 0, rfl⟩
    let calls := [(0, secret)] ++ [(1, other), (1, secret)]
    (providersAfter [(0, secret)] 0).encrypt (some exampleIv) examplePlaintext =
        .ok examplePayload ∧
      (providersAfter calls 1).decrypt examplePayload = .ok examplePlaintext ∧
      (providersAfter calls 2).decrypt examplePayload =
        .error (.encryptionFailed "not unlocked") := by
  intro _ _ _ secret other calls
  have hmade : (providersAfter [(0, secret)] 0).encrypt (some exampleIv) examplePlaintext =
      .ok examplePayload := by
    decide +kernel
  have hsecret : secret.key.isSome = true := by
    decide +kernel
  have hother : other.key.isSome = true := by
    decide +kernel
  have hsame : lastUnlock calls 1 = lastUnlock [(0, secret)] 0 := by
    simp [calls, lastUnlock, hsecret, hother]
  have hnever : lastUnlock calls 2 = none := by
    simp [calls, lastUnlock]
  refine ⟨hmade, ?_, ?_⟩
  · exact ((payload_opens_with_same_secret [(0, secret)] _ 0 1).1 _ _ _ hmade hsame).2
  · exact ((payload_opens_with_same_secret calls [] 2 2).2.2 hnever).2 examplePayload

end Example
end CordeliaCore.PayloadEncryption
