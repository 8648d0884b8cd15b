import CordeliaCore.StorageRows

set_option autoImplicit false

namespace CordeliaCore.StorageJournal
open ProtocolMessages StorageRows

structure SignatureWrite where
  id : String
  ownerId : String
  ownerPubkey : String
  signature : String
deriving DecidableEq

structure Journaled (σ : Type) where
  db : σ
  groupWrites : List (String × String)
  signatureWrites : List SignatureWrite

namespace Journaled
variable {σ : Type}

def withDb (s : Journaled σ) (db : σ) : Journaled σ := { s with db := db }

def lastWrite (s : Journaled σ) (g : String) : Option String := s.groupWrites.lookup g

variable [Storage σ]

instance : Storage (Journaled σ) where
  readL2Item s id := Storage.readL2Item s.db id
  writeL2Item s now item := (Storage.writeL2Item s.db now item).map s.withDb
  deleteL2Item s id := (Storage.deleteL2Item s.db id).map (fun r => (r.1, s.withDb r.2))
  readL2ItemMeta s id := Storage.readL2ItemMeta s.db id
  listGroupItems s groupId since limit := Storage.listGroupItems s.db groupId since limit
  writeGroup s now id name culture securityPolicy :=
    (Storage.writeGroup s.db now id name culture securityPolicy).map (fun db =>
      { s with db := db, groupWrites := (id, now) :: s.groupWrites })
  writeGroupSignature s id ownerId ownerPubkey signature :=
    (Storage.writeGroupSignature s.db id ownerId ownerPubkey signature).map (fun db =>
      { s with
        db := db
        signatureWrites := ⟨id, ownerId, ownerPubkey, signature⟩ :: s.signatureWrites })
  readGroup s id := Storage.readGroup s.db id
  listGroups s := Storage.listGroups s.db
  listMembers s groupId := Storage.listMembers s.db groupId
  getMembership s groupId entityId := Storage.getMembership s.db groupId entityId
  addMember s now groupId entityId role :=
    let (outcome, db) := Storage.addMember s.db now groupId entityId role
    (outcome, s.withDb db)
  updateMemberPosture s groupId entityId posture :=
    (Storage.updateMemberPosture s.db groupId entityId posture).map (fun r => (r.1, s.withDb r.2))
  removeMember s groupId entityId :=
    (Storage.removeMember s.db groupId entityId).map (fun r => (r.1, s.withDb r.2))
  purgeDeletedGroups s membersCutoff groupsCutoff tombstoneCulture :=
    let (outcome, db) := Storage.purgeDeletedGroups s.db membersCutoff groupsCutoff tombstoneCulture
    (outcome, s.withDb db)
  logAccess s now entry := (Storage.logAccess s.db now entry).map s.withDb
  listStoredGroupIds s := Storage.listStoredGroupIds s.db

section Calls
variable {s t : Journaled σ}

theorem map_eq_ok {α β : Type} {x : Except StorageError α} {f : α → β} {b : β}
    (h : x.map f = .ok b) : ∃ a, x = .ok a ∧ f a = b := by
  cases x with
  | error e => cases h
  | ok a => exact ⟨a, rfl, Except.ok.inj h⟩

theorem writeGroup_eq_ok {now id name culture policy : String}
    (h : Storage.writeGroup s now id name culture policy = .ok t) :
    ∃ db, Storage.writeGroup s.db now id name culture policy = .ok db ∧
      t = { s with db := db, groupWrites := (id, now) :: s.groupWrites } := by
  obtain ⟨db, hdb, rfl⟩ := map_eq_ok h
  exact ⟨db, hdb, rfl⟩

theorem writeGroupSignature_eq_ok {id ownerId ownerPubkey signature : String}
    (h : Storage.writeGroupSignature s id ownerId ownerPubkey signature = .ok t) :
    ∃ db, Storage.writeGroupSignature s.db id ownerId ownerPubkey signature = .ok db ∧
      t = { s with
        db := db
        signatureWrites := ⟨id, ownerId, ownerPubkey, signature⟩ :: s.signatureWrites } := by
  obtain ⟨db, hdb, rfl⟩ := map_eq_ok h
  exact ⟨db, hdb, rfl⟩

theorem updateMemberPosture_eq_ok {groupId entityId posture : String} {changed : Bool}
    (h : Storage.updateMemberPosture s groupId entityId posture = .ok (changed, t)) :
    ∃ db, Storage.updateMemberPosture s.db groupId entityId posture = .ok (changed, db) ∧
      t = s.withDb db := by
  obtain ⟨⟨changed', db⟩, hdb, heq⟩ := map_eq_ok h
  cases heq
  exact ⟨db, hdb, rfl⟩

theorem removeMember_eq_ok {groupId entityId : String} {changed : Bool}
    (h : Storage.removeMember s groupId entityId = .ok (changed, t)) :
    ∃ db, Storage.removeMember s.db groupId entityId = .ok (changed, db) ∧ t = s.withDb db := by
  obtain ⟨⟨changed', db⟩, hdb, heq⟩ := map_eq_ok h
  cases heq
  exact ⟨db, hdb, rfl⟩

theorem logAccess_eq_ok {now : String} {entry : AccessLogEntry}
    (h : Storage.logAccess s now entry = .ok t) :
    ∃ db, Storage.logAccess s.db now entry = .ok db ∧ t = s.withDb db := by
  obtain ⟨db, hdb, rfl⟩ := map_eq_ok h
  exact ⟨db, hdb, rfl⟩

end Calls
end Journaled
end CordeliaCore.StorageJournal
