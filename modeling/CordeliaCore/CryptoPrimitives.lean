import Mathlib.Data.List.Basic
import Mathlib.Data.String.Basic

set_option autoImplicit false

/-!
# Hashing, signatures and hex text

The digest and the signature check come from the crates `sha2` and `ring`. They
are parameters here. Nothing is assumed about the digest. A signature that
verifies has 64 bytes, and a node's own signatures verify.
-/
namespace CordeliaCore.CryptoPrimitives

abbrev Bytes := List UInt8

class Sha256 where
  digest : Bytes → Bytes

class Ed25519 where
  verify (publicKey message signature : Bytes) : Bool
  length_of_verify : ∀ publicKey message signature,
    verify publicKey message signature = true → signature.length = 64

structure NodeIdentity [Ed25519] where
  publicKey : Bytes
  sign : Bytes → Bytes
  genuine : ∀ message, Ed25519.verify publicKey message (sign message) = true

def asBytes (s : String) : Bytes := s.toList.flatMap String.utf8EncodeChar

def hexEncode (bytes : Bytes) : String :=
  String.ofList (bytes.flatMap (fun b => [Nat.digitChar (b.toNat / 16), Nat.digitChar (b.toNat % 16)]))

def hexValue (c : Char) : Option ℕ :=
  if '0' ≤ c ∧ c ≤ '9' then some (c.toNat - '0'.toNat)
  else if 'a' ≤ c ∧ c ≤ 'f' then some (c.toNat - 'a'.toNat + 10)
  else if 'A' ≤ c ∧ c ≤ 'F' then some (c.toNat - 'A'.toNat + 10)
  else none

def hexPairs : List Char → Option Bytes
  | [] => some []
  | [_] => none
  | high :: low :: rest => do
    let h ← hexValue high
    let l ← hexValue low
    let bytes ← hexPairs rest
    return UInt8.ofNat (16 * h + l) :: bytes

/-- `hex::decode`: refuses an odd number of digits and any other character. -/
def hexDecode (s : String) : Option Bytes := hexPairs s.toList

theorem hexValue_digitChar : ∀ n < 16, hexValue (Nat.digitChar n) = some n := by decide

theorem hexDecode_hexEncode (bytes : Bytes) : hexDecode (hexEncode bytes) = some bytes := by
  unfold hexDecode hexEncode
  rw [String.toList_ofList]
  induction bytes with
  | nil => rfl
  | cons b bs ih =>
    have hb := b.toNat_lt
    have hh := hexValue_digitChar (b.toNat / 16) (by omega)
    have hl := hexValue_digitChar (b.toNat % 16) (Nat.mod_lt _ (by decide))
    have he : 16 * (b.toNat / 16) + b.toNat % 16 = b.toNat := Nat.div_add_mod _ _
    simp only [List.flatMap_cons, List.cons_append, List.nil_append, hexPairs, hh, hl, ih, he,
      Option.bind_eq_bind, Option.bind_some, UInt8.ofNat_toNat]
    rfl

/-- SHA-256 digests of the texts that the concrete inputs of this development hash. -/
def digestTable : List (String × String) :=
  [("",
      "e3b0c44298fc1c149afbf4c8996fb92427ae41e4649b934ca495991b7852b855"),
    ("a",
      "ca978112ca1bbdcafac231b39a23dc4da786eff8147c4e72b9807785afee48bb"),
    ("b",
      "3e23e8160039594a33894f6564e1b1348bbd7a0088d42c4acb73eeaed59c009d"),
    ("\"a\"",
      "ac8d8342bbb2362d13f0a559a3621bb407011368895164b628a54f7fc33fc43c"),
    ("\"b\"",
      "c100f95c1913f9c72fc1f4ef0847e1e723ffe0bde0b36e5f36c13f81fe8c26ed"),
    ("seed-drill\n__deleted__",
      "f3d1cf04688f265f8f32564b1f126686a45ebcda1f532bf3f93f5d7c4c8fdbd3"),
    ("seed-drill\nchatty",
      "175f04adab448c474eede047f155ff5e35510f1d382c885e4a8471e4fcac90ff"),
    ("seed-drill\nchatty\ntaciturn",
      "1e226a6ab851b54337d33e33dcbe1f4a3ee3d11fd1c8c82983e5c5e1a2420b77"),
    ("seed-drill\ntaciturn",
      "cb3facfc542dcc8c4feb4e90c6df43f969c5c87ffcbf51386f2e32c657bfa671")]

@[reducible] def knownDigests : Sha256 where
  digest bytes := ((digestTable.find? (fun e => asBytes e.1 = bytes)).bind
    (fun e => hexDecode e.2)).getD []

@[reducible] def shortSignatures : Ed25519 where
  verify _ _ _ := false
  length_of_verify _ _ _ h := by simp at h

/-- The Ed25519 public key of one key pair, and its signature of one text. -/
def ownerPublicKey : Bytes :=
  (hexDecode "d75a980182b10ab7d54bfed3c964073a0ee172f3daa62325af021a68f707511a").getD []

def ownerSignature : Bytes :=
  (hexDecode ("a089c9a6ad028bc1c80cfeaad0d49dd86482a86b506b5546672784e361b13f32" ++
    "0249a5da3543ecdc1ed53f753cf7bfa5af5609c8dffeaeb15bfe95ca5df3fe0d")).getD []

def signedText : Bytes := asBytes "seed-drill\nchatty\n2026-02-01 00:00:00"

/-- Concrete inputs ask for no other signature. -/
def knownSignature (publicKey message : Bytes) : Bytes :=
  if publicKey = ownerPublicKey ∧ message = signedText then ownerSignature
  else List.replicate 64 0

theorem length_knownSignature (publicKey message : Bytes) :
    (knownSignature publicKey message).length = 64 := by
  unfold knownSignature
  split_ifs
  · decide +kernel
  · exact List.length_replicate

@[reducible] def knownSignatures : Ed25519 where
  verify publicKey message signature := signature == knownSignature publicKey message
  length_of_verify publicKey message signature h := by
    rw [beq_iff_eq.mp h, length_knownSignature]

theorem owner_signed : knownSignatures.verify ownerPublicKey signedText ownerSignature = true :=
  beq_iff_eq.mpr (if_pos ⟨rfl, rfl⟩).symm

theorem owner_signed_only {message : Bytes} (h : message ≠ signedText) :
    knownSignatures.verify ownerPublicKey message ownerSignature = false := by
  have hzeros : knownSignature ownerPublicKey message = List.replicate 64 0 :=
    if_neg (fun hboth => h hboth.2)
  have hother : ownerSignature ≠ List.replicate 64 0 := by decide +kernel
  exact beq_eq_false_iff_ne.mpr (hzeros ▸ hother)

def ownerIdentity : @NodeIdentity knownSignatures :=
  @NodeIdentity.mk knownSignatures ownerPublicKey (knownSignature ownerPublicKey)
    (fun message => beq_self_eq_true (knownSignature ownerPublicKey message))

end CordeliaCore.CryptoPrimitives
