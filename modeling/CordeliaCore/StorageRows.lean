import CordeliaCore.ProtocolMessages

set_option autoImplicit false

/-!
# Rows and operations of the storage trait

`Storage` is the trait the node is written against. Operations that write take
the reading of the database clock, `datetime('now')`, as the text it is stored
as. An operation of one statement leaves the store alone when it fails.
-/
namespace CordeliaCore.StorageRows
open CryptoPrimitives ProtocolMessages

inductive StorageError where
  | sqlite (message : String)
  | io (message : String)
  | schemaVersionMismatch (expected found : ℕ)
  | lockPoisoned
deriving DecidableEq, Repr

def StorageError.text : StorageError → String
  | .sqlite message => "sqlite error: " ++ message
  | .io message => "io error: " ++ message
  | .schemaVersionMismatch expected found =>
    "schema version mismatch: expected " ++ toString expected ++ ", found " ++ toString found
  | .lockPoisoned => "lock poisoned"

structure L2ItemRow where
  id : String
  itemType : String
  ownerId : Option String
  visibility : String
  data : Bytes
  checksum : Option String
  groupId : Option String
  authorId : Option String
  keyVersion : Int32
  parentId : Option String
  isCopy : Bool
  accessCount : ℤ
  lastAccessedAt : Option String
  createdAt : String
  updatedAt : String
deriving DecidableEq

structure L2ItemMeta where
  ownerId : Option String
  visibility : String
  groupId : Option String
  authorId : Option String
  keyVersion : Int32
  parentId : Option String
  isCopy : Bool
deriving DecidableEq

structure L2ItemWrite where
  id : String
  itemType : String
  data : Bytes
  ownerId : Option String
  visibility : String
  groupId : Option String
  authorId : Option String
  keyVersion : Int32
  parentId : Option String
  isCopy : Bool
  /-- Set for a replicated item; a local write leaves it to the clock. -/
  updatedAt : Option String
deriving DecidableEq

structure GroupRow where
  id : String
  name : String
  culture : String
  securityPolicy : String
  createdAt : String
  updatedAt : String
  ownerId : Option String
  ownerPubkey : Option String
  signature : Option String
deriving DecidableEq

structure GroupMemberRow where
  groupId : String
  entityId : String
  role : String
  posture : Option String
  joinedAt : String
deriving DecidableEq

structure AccessLogEntry where
  entityId : String
  action : String
  resourceType : String
  resourceId : Option String
  groupId : Option String
  detail : Option String
deriving DecidableEq

class Storage (σ : Type) where
  readL2Item (s : σ) (id : String) : Except StorageError (Option L2ItemRow)
  writeL2Item (s : σ) (now : String) (item : L2ItemWrite) : Except StorageError σ
  deleteL2Item (s : σ) (id : String) : Except StorageError (Bool × σ)
  readL2ItemMeta (s : σ) (id : String) : Except StorageError (Option L2ItemMeta)
  listGroupItems (s : σ) (groupId : String) (since : Option String) (limit : ℕ) :
    Except StorageError (List ItemHeader)
  writeGroup (s : σ) (now id name culture securityPolicy : String) : Except StorageError σ
  writeGroupSignature (s : σ) (id ownerId ownerPubkey signature : String) : Except StorageError σ
  readGroup (s : σ) (id : String) : Except StorageError (Option GroupRow)
  listGroups (s : σ) : Except StorageError (List GroupRow)
  listMembers (s : σ) (groupId : String) : Except StorageError (List GroupMemberRow)
  getMembership (s : σ) (groupId entityId : String) : Except StorageError (Option GroupMemberRow)
  /-- Two statements: the first one stands when the second fails. -/
  addMember (s : σ) (now groupId entityId role : String) : Except StorageError Unit × σ
  updateMemberPosture (s : σ) (groupId entityId posture : String) : Except StorageError (Bool × σ)
  removeMember (s : σ) (groupId entityId : String) : Except StorageError (Bool × σ)
  /-- Two statements, each with its own reading of the clock `retention_days` back. -/
  purgeDeletedGroups (s : σ) (membersCutoff groupsCutoff tombstoneCulture : String) :
    Except StorageError ℕ × σ
  logAccess (s : σ) (now : String) (entry : AccessLogEntry) : Except StorageError σ
  listStoredGroupIds (s : σ) : Except StorageError (List String)

/-- The soft removal of every visible member; a failed update is ignored. -/
def removeMembers {σ : Type} [Storage σ] (storage : σ) (groupId : String) : σ :=
  match Storage.listMembers storage groupId with
  | .ok members => members.foldl (fun s m =>
      match Storage.updateMemberPosture s groupId m.entityId "removed" with
      | .ok (_, updated) => updated
      | .error _ => s) storage
  | .error _ => storage

end CordeliaCore.StorageRows
