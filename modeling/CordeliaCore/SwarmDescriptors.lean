import CordeliaCore.StorageRows

set_option autoImplicit false

/-!
# Group descriptors between peers

`build_descriptors` lists the local groups for a peer and signs the owned ones
on the way; `merge_descriptors` takes a peer's list into the store. Descriptors
are merged one after another, each at its own reading of the database clock.
-/
namespace CordeliaCore.Swarm
open CryptoPrimitives ProtocolMessages StorageRows

def verifyDescriptorSignature [Ed25519] (desc : GroupDescriptor) (pubkeyHex sigHex : String) :
    Bool :=
  match hexDecode pubkeyHex, hexDecode sigHex with
  | some pubkeyBytes, some sigBytes => Ed25519.verify pubkeyBytes desc.signingPayload sigBytes
  | _, _ => false

variable {σ : Type} [Storage σ]

section Build
variable [Sha256] [Ed25519]

def isOwner (storage : σ) (groupId entityId : String) : Bool :=
  (Storage.getMembership storage groupId entityId).toOption.join.any (·.role == "owner")

def descriptorOf (g : GroupRow) : GroupDescriptor where
  id := g.id
  culture := g.culture
  updatedAt := g.updatedAt
  checksum := GroupDescriptor.computeChecksum g.id g.culture
  ownerId := g.ownerId
  ownerPubkey := g.ownerPubkey
  signature := g.signature

def weOwnIt (storage : σ) (ourEntityId : String) (g : GroupRow) : Bool :=
  g.ownerId == some ourEntityId || (g.ownerId.isNone && isOwner storage g.id ourEntityId)

/-- The lazy signature is persisted; the descriptor carries it even when that fails. -/
def buildDescriptor (storage : σ) (identity : NodeIdentity) (ourEntityId : String) (g : GroupRow) :
    GroupDescriptor × σ :=
  let desc := descriptorOf g
  if weOwnIt storage ourEntityId g && g.signature.isNone then
    let pubkeyHex := hexEncode identity.publicKey
    let sig := hexEncode (identity.sign desc.signingPayload)
    let persisted := Storage.writeGroupSignature storage g.id ourEntityId pubkeyHex sig
    ({ desc with
        ownerId := some ourEntityId
        ownerPubkey := some pubkeyHex
        signature := some sig },
      persisted.toOption.getD storage)
  else (desc, storage)

def buildAll (identity : NodeIdentity) (ourEntityId : String) :
    σ → List GroupRow → List GroupDescriptor × σ
  | storage, [] => ([], storage)
  | storage, g :: groups =>
    let (desc, signed) := buildDescriptor storage identity ourEntityId g
    let (descs, final) := buildAll identity ourEntityId signed groups
    (desc :: descs, final)

def buildDescriptors (storage : σ) (identity : NodeIdentity) (ourEntityId : String) :
    Option (List GroupDescriptor) × σ :=
  match Storage.listGroups storage with
  | .ok [] => (none, storage)
  | .ok groups =>
    let (descs, signed) := buildAll identity ourEntityId storage groups
    (some descs, signed)
  | .error _ => (none, storage)

end Build

structure MergeResult where
  upserted : List String
  tombstoned : List String
deriving DecidableEq, Repr

def MergeResult.append (a b : MergeResult) : MergeResult :=
  ⟨a.upserted ++ b.upserted, a.tombstoned ++ b.tombstoned⟩

/-- A signature is checked only next to an owner key. -/
def signatureAccepted [Ed25519] (desc : GroupDescriptor) : Bool :=
  match desc.ownerPubkey, desc.signature with
  | some pubkeyHex, some sigHex => verifyDescriptorSignature desc pubkeyHex sigHex
  | _, _ => true

/-- A signed group refuses unsigned updates, and two owner keys must agree. -/
def ownerAccepted (localRow : GroupRow) (desc : GroupDescriptor) : Bool :=
  !(localRow.signature.isSome && desc.signature.isNone) &&
    match localRow.ownerPubkey, desc.ownerPubkey with
    | some localOwner, some incomingOwner => localOwner == incomingOwner
    | _, _ => true

/-- Signature fields are persisted when all three are on the wire. -/
def signatureFields (desc : GroupDescriptor) : Option (String × String × String) :=
  match desc.ownerId, desc.ownerPubkey, desc.signature with
  | some oid, some pk, some sig => some (oid, pk, sig)
  | _, _, _ => none

def persistSignature (storage : σ) (desc : GroupDescriptor) : σ :=
  match signatureFields desc with
  | some (oid, pk, sig) =>
    (Storage.writeGroupSignature storage desc.id oid pk sig).toOption.getD storage
  | none => storage

def writeDescriptor (storage : σ) (now localName : String) (desc : GroupDescriptor) :
    MergeResult × σ :=
  match Storage.writeGroup storage now desc.id localName desc.culture "{}" with
  | .error _ => (⟨[], []⟩, storage)
  | .ok written =>
    let signed := persistSignature written desc
    if desc.isTombstone then (⟨[], [desc.id]⟩, removeMembers signed desc.id)
    else (⟨[desc.id], []⟩, signed)

def mergeDescriptor [Sha256] [Ed25519] (storage : σ) (now : String) (desc : GroupDescriptor) :
    MergeResult × σ :=
  if !desc.verifyChecksum then (⟨[], []⟩, storage)
  else if desc.culture.utf8ByteSize > 4096 ∧ !desc.isTombstone then (⟨[], []⟩, storage)
  else if !signatureAccepted desc then (⟨[], []⟩, storage)
  else
    match Storage.readGroup storage desc.id with
    | .ok (some localRow) =>
      if !ownerAccepted localRow desc then (⟨[], []⟩, storage)
      else if localRow.updatedAt ≥ desc.updatedAt then (⟨[], []⟩, storage)
      else writeDescriptor storage now localRow.name desc
    | _ => writeDescriptor storage now desc.id desc

def mergeDescriptors [Sha256] [Ed25519] (storage : σ) (descriptors : List (String × GroupDescriptor)) :
    MergeResult × σ :=
  descriptors.foldl (fun acc d =>
    let merged := mergeDescriptor acc.2 d.1 d.2
    (acc.1.append merged.1, merged.2)) (⟨[], []⟩, storage)

end CordeliaCore.Swarm
