import CordeliaCore.CryptoPrimitives
import CordeliaCore.StepRuns
import Mathlib.Tactic.IntervalCases

set_option autoImplicit false

/-!
# The keys of a node

A node keeps one PKCS#8 document. `ring` reads the signing key from it, and the key pair of
`libp2p` is made from the seed that a scan for the bytes `04 20` finds in it. In a document
of the layout of `ring` the scan finds the seed of the signing key. The document is written
once, and every later start of the node reads it.
-/
namespace CordeliaCore.NodeKeys
open CryptoPrimitives StepRuns

inductive CryptoError where
  | identityError (message : String)
  | ioError (message : String)
deriving DecidableEq

/-- A call without a value ends with an error, or with the panic of an index out of range. -/
inductive Failure where
  | error (e : CryptoError)
  | outOfRange
deriving DecidableEq

section Scan

def byteAt (der : Bytes) (i : ℕ) : Except Failure UInt8 :=
  match der[i]? with
  | some b => .ok b
  | none => .error .outOfRange

def slice (der : Bytes) (start stop : ℕ) : Except Failure Bytes :=
  if start ≤ stop ∧ stop ≤ der.length then .ok ((der.drop start).take (stop - start))
  else .error .outOfRange

def seedAt (der : Bytes) (i : ℕ) : Except Failure (Option Bytes) := do
  let tag ← byteAt der i
  -- `&&` reads the second byte only after a first one that matches
  if tag = 0x04 then
    let length ← byteAt der (i + 1)
    if length = 0x20 then
      let seed ← slice der (i + 2) (i + 34)
      return some seed
    else return none
  else return none

def extractEd25519Seed (der : Bytes) : Except Failure (Option Bytes) :=
  (List.range (der.length - 33)).findSomeM? (seedAt der)

def Marks (der : Bytes) (i : ℕ) (seed : Bytes) : Prop :=
  ∃ before trailer, der = before ++ 0x04 :: 0x20 :: (seed ++ trailer) ∧
    before.length = i ∧ seed.length = 32

theorem Marks.le {der seed : Bytes} {i : ℕ} (h : Marks der i seed) : i + 34 ≤ der.length := by
  obtain ⟨before, trailer, rfl, rfl, hseed⟩ := h
  simp only [List.length_append, List.length_cons]
  omega

theorem Marks.bytes {der seed : Bytes} {i : ℕ} (h : Marks der i seed) :
    der[i]? = some 0x04 ∧ der[i + 1]? = some 0x20 ∧ seed = (der.drop (i + 2)).take 32 := by
  obtain ⟨before, trailer, rfl, rfl, hseed⟩ := h
  refine ⟨by simp, by simp, ?_⟩
  rw [List.drop_append, List.drop_of_length_le (by omega), List.nil_append,
    Nat.add_sub_cancel_left]
  exact (List.take_left' hseed).symm

theorem drop_of_byte {der : Bytes} {i : ℕ} {b : UInt8} (h : der[i]? = some b) :
    der.drop i = b :: der.drop (i + 1) := by
  obtain ⟨hi, hb⟩ := List.getElem?_eq_some_iff.mp h
  rw [List.drop_eq_getElem_cons hi, hb]

theorem marks_of_bytes {der : Bytes} {i : ℕ} (hlength : i + 34 ≤ der.length)
    (htag : der[i]? = some 0x04) (hsize : der[i + 1]? = some 0x20) :
    Marks der i ((der.drop (i + 2)).take 32) := by
  refine ⟨der.take i, der.drop (i + 34), ?_, ?_, ?_⟩
  · calc
      der = der.take i ++ der.drop i := (List.take_append_drop i der).symm
      _ = der.take i ++ 0x04 :: 0x20 :: der.drop (i + 2) := by
        rw [drop_of_byte htag, drop_of_byte hsize]
      _ = _ := by
        have hrest := List.take_append_drop 32 (der.drop (i + 2))
        rw [List.drop_drop] at hrest
        rw [hrest]
  · rw [List.length_take]
    omega
  · rw [List.length_take, List.length_drop]
    omega

def markedSeed (der : Bytes) (i : ℕ) : Option Bytes :=
  if der[i]? = some 0x04 ∧ der[i + 1]? = some 0x20 then some ((der.drop (i + 2)).take 32) else none

theorem byteAt_eq {der : Bytes} {i : ℕ} {b : UInt8} (h : der[i]? = some b) :
    byteAt der i = .ok b := by
  unfold byteAt
  rw [h]

theorem seedAt_eq {der : Bytes} {i : ℕ} (h : i + 34 ≤ der.length) :
    seedAt der i = .ok (markedSeed der i) := by
  have htag := List.getElem?_eq_getElem (show i < der.length by omega)
  have hsize := List.getElem?_eq_getElem (show i + 1 < der.length by omega)
  have hslice : slice der (i + 2) (i + 34) = .ok ((der.drop (i + 2)).take 32) := by
    unfold slice
    rw [if_pos ⟨by omega, h⟩]
    congr 3
    omega
  unfold seedAt markedSeed
  rw [byteAt_eq htag, byteAt_eq hsize, hslice, htag, hsize]
  by_cases hmark : der[i] = 0x04
  · by_cases hlength : der[i + 1] = 0x20
    · simp [hmark, hlength, bind, Except.bind, pure, Except.pure]
    · simp [hmark, hlength, bind, Except.bind, pure, Except.pure]
  · simp [hmark, bind, Except.bind, pure, Except.pure]

theorem markedSeed_eq_some_iff {der seed : Bytes} {i : ℕ} (h : i + 34 ≤ der.length) :
    markedSeed der i = some seed ↔ Marks der i seed := by
  unfold markedSeed
  constructor
  · intro hsome
    split_ifs at hsome with hbytes
    rw [← Option.some.inj hsome]
    exact marks_of_bytes h hbytes.1 hbytes.2
  · intro hmarks
    obtain ⟨htag, hsize, hseed⟩ := hmarks.bytes
    rw [if_pos ⟨htag, hsize⟩, hseed]

theorem findSomeM?_ok {ε β : Type} {f : ℕ → Except ε (Option β)} {g : ℕ → Option β}
    {l : List ℕ} (h : ∀ i ∈ l, f i = .ok (g i)) : l.findSomeM? f = .ok (l.findSome? g) := by
  induction l with
  | nil => rfl
  | cons i l ih =>
    have hrest := ih (fun j hj => h j (List.mem_cons_of_mem _ hj))
    rw [List.findSomeM?_cons, h i List.mem_cons_self, List.findSome?_cons]
    cases hfound : g i with
    | none => exact hrest
    | some b => rfl

theorem findSome?_range_eq_some_iff {β : Type} {g : ℕ → Option β} {n : ℕ} {b : β} :
    (List.range n).findSome? g = some b ↔ ∃ i < n, g i = some b ∧ ∀ j < i, g j = none := by
  rw [List.findSome?_eq_some_iff, List.range_eq_range']
  constructor
  · rintro ⟨before, i, after, hsplit, hfound, hnone⟩
    obtain ⟨k, hk, rfl, hafter⟩ := List.range'_eq_append_iff.mp hsplit
    obtain ⟨m, hm⟩ : ∃ m, n - k = m + 1 := Nat.exists_eq_succ_of_ne_zero (by
      intro hzero
      simp [hzero] at hafter)
    rw [hm, List.range'_succ, Nat.mul_one, Nat.zero_add] at hafter
    obtain ⟨rfl, -⟩ := List.cons.inj hafter
    exact ⟨i, by omega, hfound, by simpa using hnone⟩
  · rintro ⟨i, hi, hfound, hnone⟩
    refine ⟨List.range' 0 i, i, List.range' (i + 1) (n - i - 1), ?_, hfound, by simpa using hnone⟩
    rw [List.range'_eq_append_iff]
    refine ⟨i, by omega, rfl, ?_⟩
    obtain ⟨m, hm⟩ : ∃ m, n - i = m + 1 := ⟨n - i - 1, by omega⟩
    rw [hm, List.range'_succ]
    simp

theorem extractEd25519Seed_first (der : Bytes) :
    ∃ found, extractEd25519Seed der = .ok found ∧ ∀ seed, found = some seed ↔
      ∃ i, Marks der i seed ∧ ∀ j < i, ∀ other, ¬ Marks der j other := by
  refine ⟨(List.range (der.length - 33)).findSome? (markedSeed der), ?_, fun seed => ?_⟩
  · apply findSomeM?_ok
    intro i hi
    have hlt := List.mem_range.mp hi
    exact seedAt_eq (by omega)
  rw [findSome?_range_eq_some_iff]
  constructor
  · rintro ⟨i, hi, hseed, hnone⟩
    refine ⟨i, (markedSeed_eq_some_iff (by omega)).mp hseed, fun j hj other hmarks => ?_⟩
    have hsome := (markedSeed_eq_some_iff hmarks.le).mpr hmarks
    rw [hnone j hj] at hsome
    cases hsome
  · rintro ⟨i, hmarks, hfirst⟩
    have hle := hmarks.le
    refine ⟨i, by omega, (markedSeed_eq_some_iff hle).mpr hmarks, fun j hj => ?_⟩
    cases hother : markedSeed der j with
    | none => rfl
    | some other => exact absurd ((markedSeed_eq_some_iff (by omega)).mp hother) (hfirst j hj other)

end Scan

section Layout

def ringHeader (length version : UInt8) : Bytes :=
  [0x30, length, 0x02, 0x01, version, 0x30, 0x05, 0x06, 0x03, 0x2b, 0x65, 0x70, 0x04, 0x22,
    0x04, 0x20]

abbrev Seed := {bytes : Bytes // bytes.length = 32}

def ringDocument (length version : UInt8) (seed : Seed) (trailer : Bytes) : Bytes :=
  ringHeader length version ++ (seed.val ++ trailer)

theorem ringDocument_marks (length version : UInt8) (seed : Seed) (trailer : Bytes) :
    Marks (ringDocument length version seed trailer) 14 seed.val :=
  ⟨[0x30, length, 0x02, 0x01, version, 0x30, 0x05, 0x06, 0x03, 0x2b, 0x65, 0x70, 0x04, 0x22],
    trailer, rfl, rfl, seed.property⟩

/-- No earlier byte is a `04` before a `20`, whatever the length and the version are. -/
theorem ringDocument_not_marks (length version : UInt8) (seed : Seed) (trailer : Bytes) {j : ℕ}
    (hj : j < 14) (other : Bytes) : ¬ Marks (ringDocument length version seed trailer) j other := by
  intro hmarks
  obtain ⟨htag, hsize, -⟩ := hmarks.bytes
  unfold ringDocument ringHeader at htag hsize
  interval_cases j <;> simp at htag hsize

theorem extractEd25519Seed_ringDocument (length version : UInt8) (seed : Seed) (trailer : Bytes) :
    extractEd25519Seed (ringDocument length version seed trailer) = .ok (some seed.val) := by
  obtain ⟨found, hfound, hfirst⟩ :=
    extractEd25519Seed_first (ringDocument length version seed trailer)
  rw [hfound, (hfirst seed.val).mpr]
  exact ⟨14, ringDocument_marks length version seed trailer,
    fun j hj => ringDocument_not_marks length version seed trailer hj⟩

end Layout

section Identity

structure Ed25519KeyPair where
  seed : Seed
deriving DecidableEq

structure Keypair where
  seed : Seed
deriving DecidableEq

/-- What the crates `ring` and `libp2p` do with keys, which are determined by their seeds.
    From a document of its layout, if it accepts it, `ring` takes the seed after the header. -/
class KeyCrates extends Ed25519 where
  fromPkcs8 : Bytes → Except String Ed25519KeyPair
  seed_of_fromPkcs8 : ∀ length version seed trailer keypair,
    fromPkcs8 (ringDocument length version seed trailer) = .ok keypair → keypair.seed = seed
  publicKey : Ed25519KeyPair → Bytes
  sign : Ed25519KeyPair → Bytes → Bytes
  genuine : ∀ keypair message, verify (publicKey keypair) message (sign keypair message) = true
  ed25519FromBytes : Bytes → Except String Keypair
  ed25519FromBytes_seed : ∀ seed : Seed, ed25519FromBytes seed.val = .ok ⟨seed⟩
  /-- The base58 text of `public().to_peer_id()`. -/
  toPeerId : Keypair → String

variable [KeyCrates]

def identityError {α : Type} (message : String) : Except Failure α :=
  .error (.error (.identityError message))

def pkcs8ToLibp2pKeypair (pkcs8Der : Bytes) : Except Failure Keypair :=
  if pkcs8Der.length < 48 then identityError "PKCS#8 DER too short for Ed25519"
  else
    match extractEd25519Seed pkcs8Der with
    | .error failure => .error failure
    | .ok none => identityError "could not extract Ed25519 seed from PKCS#8 DER"
    | .ok (some seed) =>
      match KeyCrates.ed25519FromBytes seed with
      | .error e => identityError ("failed to create libp2p keypair: " ++ e)
      | .ok libp2pKeypair => .ok libp2pKeypair

/-- An identity is only built from a document that both crates take. -/
structure NodeIdentity where
  keypair : Ed25519KeyPair
  peerId : String
  pkcs8Doc : Bytes
  signs : KeyCrates.fromPkcs8 pkcs8Doc = .ok keypair
  connects : ∃ libp2pKeypair, pkcs8ToLibp2pKeypair pkcs8Doc = .ok libp2pKeypair ∧
    peerId = KeyCrates.toPeerId libp2pKeypair

def fromPkcs8Bytes (pkcs8Bytes : Bytes) : Except Failure NodeIdentity :=
  match hkeypair : KeyCrates.fromPkcs8 pkcs8Bytes with
  | .error e => identityError e
  | .ok keypair =>
    match hlibp2p : pkcs8ToLibp2pKeypair pkcs8Bytes with
    | .error failure => .error failure
    | .ok libp2pKeypair =>
      .ok ⟨keypair, KeyCrates.toPeerId libp2pKeypair, pkcs8Bytes, hkeypair, libp2pKeypair, hlibp2p, rfl⟩

def toLibp2pKeypair (identity : NodeIdentity) : Except Failure Keypair :=
  pkcs8ToLibp2pKeypair identity.pkcs8Doc

def signer (identity : NodeIdentity) : CryptoPrimitives.NodeIdentity where
  publicKey := KeyCrates.publicKey identity.keypair
  sign := KeyCrates.sign identity.keypair
  genuine := KeyCrates.genuine identity.keypair

/-- What a start of the node is given: the result of `generate_pkcs8`, and how reading and
    writing the key file end. A failed write may leave a part of the document. -/
structure Start where
  generated : Except String Bytes
  read : Except String Unit
  written : Except (String × Option Bytes) Unit

def generate (start : Start) : Except Failure NodeIdentity :=
  match start.generated with
  | .error e => identityError e
  | .ok pkcs8 => fromPkcs8Bytes pkcs8

def fromFile (pkcs8Bytes : Bytes) (start : Start) : Except Failure NodeIdentity :=
  match start.read with
  | .error e => .error (.error (.ioError e))
  | .ok () => fromPkcs8Bytes pkcs8Bytes

def loadOrCreate (keyFile : Option Bytes) (start : Start) :
    Except Failure NodeIdentity × Option Bytes :=
  match keyFile with
  | some pkcs8Bytes => (fromFile pkcs8Bytes start, keyFile)
  | none =>
    match generate start with
    | .error failure => (.error failure, none)
    | .ok identity =>
      match start.written with
      | .error (e, left) => (.error (.error (.ioError e)), left)
      | .ok () => (.ok identity, some identity.pkcs8Doc)

theorem fromPkcs8Bytes_pkcs8Doc (identity : NodeIdentity) :
    fromPkcs8Bytes identity.pkcs8Doc = .ok identity := by
  obtain ⟨keypair, _, pkcs8Doc, hsigns, libp2pKeypair, hconnects, rfl⟩ := identity
  unfold fromPkcs8Bytes
  split
  · next e he =>
    rw [hsigns] at he
    cases he
  · next other hother =>
    rw [hsigns] at hother
    cases hother
    split
    · next failure hfailure =>
      rw [hconnects] at hfailure
      cases hfailure
    · next other hother =>
      rw [hconnects] at hother
      cases hother
      rfl

theorem pkcs8Doc_of_fromPkcs8Bytes {pkcs8Bytes : Bytes} {identity : NodeIdentity}
    (h : fromPkcs8Bytes pkcs8Bytes = .ok identity) : identity.pkcs8Doc = pkcs8Bytes := by
  unfold fromPkcs8Bytes at h
  split at h
  · cases h
  · split at h
    · cases h
    · rw [← Except.ok.inj h]

theorem loadOrCreate_stores {keyFile : Option Bytes} {start : Start} {identity : NodeIdentity}
    (h : (loadOrCreate keyFile start).1 = .ok identity) :
    (loadOrCreate keyFile start).2 = some identity.pkcs8Doc := by
  cases keyFile with
  | some pkcs8Bytes =>
    change fromFile pkcs8Bytes start = .ok identity at h
    change some pkcs8Bytes = _
    unfold fromFile at h
    split at h
    · cases h
    · rw [pkcs8Doc_of_fromPkcs8Bytes h]
  | none =>
    unfold loadOrCreate at h ⊢
    dsimp only at h ⊢
    split at h
    · cases h
    · split at h
      · cases h
      · rw [← Except.ok.inj h]

/-- A node that has started has the same identity whenever it starts again. -/
theorem identity_kept {keyFile : Option Bytes} {first : Start} {identity : NodeIdentity}
    (h : (loadOrCreate keyFile first).1 = .ok identity) (starts : List Start) :
    Along (fun keyFile start => (loadOrCreate keyFile start).2)
      (fun keyFile start => start.read = .ok () → (loadOrCreate keyFile start).1 = .ok identity)
      (loadOrCreate keyFile first).2 starts := by
  rw [loadOrCreate_stores h]
  induction starts with
  | nil => trivial
  | cons start starts ih =>
    refine ⟨fun hread => ?_, ih⟩
    change fromFile identity.pkcs8Doc start = .ok identity
    unfold fromFile
    rw [hread]
    exact fromPkcs8Bytes_pkcs8Doc identity

theorem pkcs8ToLibp2pKeypair_ringDocument (length version : UInt8) (seed : Seed) (trailer : Bytes) :
    pkcs8ToLibp2pKeypair (ringDocument length version seed trailer) = .ok ⟨seed⟩ := by
  have hlong : ¬ (ringDocument length version seed trailer).length < 48 := by
    simp [ringDocument, ringHeader, seed.property]
  unfold pkcs8ToLibp2pKeypair
  rw [if_neg hlong, extractEd25519Seed_ringDocument]
  dsimp only
  rw [KeyCrates.ed25519FromBytes_seed]

/-- The scan finds the first mark with 32 bytes after it and never reads out of range. In a
    document of the layout of `ring` it finds the seed, from which an identity has both its
    signing key and its peer id. -/
theorem seed_extraction (der : Bytes) (length version : UInt8) (seed : Seed) (trailer : Bytes) :
    (∃ found, extractEd25519Seed der = .ok found ∧ ∀ bytes, found = some bytes ↔
        ∃ i, Marks der i bytes ∧ ∀ j < i, ∀ other, ¬ Marks der j other) ∧
      let document := ringDocument length version seed trailer
      extractEd25519Seed document = .ok (some seed.val) ∧
        ∀ keypair, KeyCrates.fromPkcs8 document = .ok keypair →
          ∃ identity, fromPkcs8Bytes document = .ok identity ∧
            (signer identity).publicKey = KeyCrates.publicKey ⟨seed⟩ ∧
            (signer identity).sign = KeyCrates.sign ⟨seed⟩ ∧
            toLibp2pKeypair identity = .ok ⟨seed⟩ ∧
            identity.peerId = KeyCrates.toPeerId ⟨seed⟩ := by
  refine ⟨extractEd25519Seed_first der,
    extractEd25519Seed_ringDocument length version seed trailer, fun keypair hkeypair => ?_⟩
  have hlibp2p := pkcs8ToLibp2pKeypair_ringDocument length version seed trailer
  obtain rfl : keypair = ⟨seed⟩ := by
    rw [← KeyCrates.seed_of_fromPkcs8 length version seed trailer keypair hkeypair]
  let identity : NodeIdentity := ⟨⟨seed⟩, KeyCrates.toPeerId ⟨seed⟩,
    ringDocument length version seed trailer, hkeypair, ⟨seed⟩, hlibp2p, rfl⟩
  exact ⟨identity, fromPkcs8Bytes_pkcs8Doc identity, rfl, rfl, hlibp2p, rfl⟩

end Identity

section Example

def seedOf (bytes : Bytes) : Except String Seed :=
  if h : bytes.length = 32 then .ok ⟨bytes, h⟩ else .error "InvalidEncoding"

theorem seedOf_keypair (seed : Seed) : (seedOf seed.val).map Keypair.mk = .ok ⟨seed⟩ := by
  rw [seedOf, dif_pos seed.property]
  rfl

def ownerSeed : Seed :=
  ⟨[0x9d, 0x61, 0xb1, 0x9d, 0xef, 0xfd, 0x5a, 0x60, 0xba, 0x84, 0x4a, 0xf4, 0x92, 0xec, 0x2c, 0xc4,
    0x44, 0x49, 0xc5, 0x69, 0x7b, 0x32, 0x69, 0x19, 0x70, 0x3b, 0xac, 0x03, 0x1c, 0xae, 0x7f, 0x60],
    rfl⟩

/-- What follows the seed in a document of `ring`: the public key as a bit string. -/
def ownerTrailer : Bytes := [0x81, 0x21, 0x00] ++ ownerPublicKey

def ownerDocument : Bytes := ringDocument 0x51 0x01 ownerSeed ownerTrailer

theorem seed_of_ringDocument (length version : UInt8) (seed : Seed) (trailer : Bytes) :
    ((ringDocument length version seed trailer).drop 16).take 32 = seed.val :=
  List.take_left' seed.property

/-- The crates on the one document that the concrete run reads. -/
@[reducible] def knownCrates : KeyCrates where
  toEd25519 := knownSignatures
  fromPkcs8 pkcs8 := if pkcs8 = ownerDocument then .ok ⟨ownerSeed⟩ else .error "InvalidEncoding"
  seed_of_fromPkcs8 length version seed trailer keypair h := by
    split_ifs at h with hdocument
    have hseeds := congrArg (fun pkcs8 => (pkcs8.drop 16).take 32) hdocument
    simp only [ownerDocument, seed_of_ringDocument] at hseeds
    rw [← Except.ok.inj h]
    exact Subtype.ext hseeds.symm
  publicKey keypair := if keypair.seed = ownerSeed then ownerPublicKey else []
  sign keypair := knownSignature (if keypair.seed = ownerSeed then ownerPublicKey else [])
  genuine _ _ := beq_self_eq_true _
  ed25519FromBytes bytes := (seedOf bytes).map Keypair.mk
  ed25519FromBytes_seed := seedOf_keypair
  toPeerId keypair :=
    if keypair.seed = ownerSeed then "12D3KooWQK1wnefoLrcVHbbnf5tLzbopUd3K3bFAoJpA7YJgL5pV" else ""

theorem ownerSeed_found :
    let := knownCrates
    extractEd25519Seed ownerDocument = .ok (some ownerSeed.val) ∧
      ∃ identity, fromPkcs8Bytes ownerDocument = .ok identity ∧
        (signer identity).publicKey = ownerPublicKey ∧
        toLibp2pKeypair identity = .ok ⟨ownerSeed⟩ ∧
        identity.peerId = "12D3KooWQK1wnefoLrcVHbbnf5tLzbopUd3K3bFAoJpA7YJgL5pV" := by
  intro _
  obtain ⟨-, hfound, hidentity⟩ := seed_extraction [] 0x51 0x01 ownerSeed ownerTrailer
  obtain ⟨identity, hloaded, hpublic, -, hlibp2p, hpeer⟩ := hidentity ⟨ownerSeed⟩ (if_pos rfl)
  exact ⟨hfound, identity, hloaded, hpublic, hlibp2p, hpeer⟩

end Example
end CordeliaCore.NodeKeys
