import CordeliaCore.StorageRows

set_option autoImplicit false

/-!
# Handlers of the local API

The handlers that change items, groups and members. A handler takes the
`authorization` header of its request and the reading of the database clock.
Channels are the lists of what was sent on them, oldest first.
-/
namespace CordeliaCore.Api
open CryptoPrimitives ProtocolMessages StorageRows

structure WriteNotification where
  itemId : String
  itemType : String
  groupId : Option String
  data : Bytes
  keyVersion : UInt32
  parentId : Option String
  isCopy : Bool
deriving DecidableEq, Repr

structure AppState (σ : Type) where
  storage : σ
  entityId : String
  bearerToken : String
  writeNotify : Option (List WriteNotification)
  sharedGroups : Option (List String)
  bootstrapSync : Option (List String)

inductive ApiResponse where
  | ok
  | groupCreated (groupId : String)
  | error (status : ℕ) (message : String)
deriving DecidableEq, Repr

structure L2WriteMeta where
  ownerId : Option String
  visibility : Option String
  groupId : Option String
  authorId : Option String
  keyVersion : Option Int32
  parentId : Option String
  isCopy : Option Bool
deriving DecidableEq

def L2WriteMeta.default : L2WriteMeta := ⟨none, none, none, none, none, none, none⟩

/-- `data` is the JSON value as `serde_json::to_vec` writes it. -/
structure L2WriteRequest where
  itemId : String
  itemType : String
  data : Bytes
  writeMeta : Option L2WriteMeta
deriving DecidableEq

structure GroupCreateRequest where
  groupId : String
  name : String
  culture : String
  securityPolicy : String
deriving DecidableEq

structure GroupAddMemberRequest where
  groupId : String
  entityId : String
  role : String
deriving DecidableEq

structure GroupRemoveMemberRequest where
  groupId : String
  entityId : String
deriving DecidableEq

structure GroupUpdatePostureRequest where
  groupId : String
  entityId : String
  posture : String
deriving DecidableEq

variable {σ : Type} [Storage σ]

def checkAuth (state : AppState σ) (authorization : Option String) : Option ApiResponse :=
  if authorization.getD "" ≠ "Bearer " ++ state.bearerToken then
    some (.error 401 "invalid bearer token")
  else none

def notifyWrite (state : AppState σ) (notification : WriteNotification) : AppState σ :=
  { state with writeNotify := state.writeNotify.map (· ++ [notification]) }

def l2WriteOf (state : AppState σ) (req : L2WriteRequest) : L2ItemWrite :=
  let given := req.writeMeta.getD .default
  { id := req.itemId
    itemType := req.itemType
    data := req.data
    ownerId := given.ownerId
    visibility := given.visibility.getD "private"
    groupId := given.groupId
    authorId := given.authorId.or (some state.entityId)
    keyVersion := given.keyVersion.getD 1
    parentId := given.parentId
    isCopy := given.isCopy.getD false
    updatedAt := none }

def writeNotification (write : L2ItemWrite) : WriteNotification where
  itemId := write.id
  itemType := write.itemType
  groupId := write.groupId
  data := write.data
  keyVersion := write.keyVersion.toUInt32
  parentId := write.parentId
  isCopy := write.isCopy

def l2Write (state : AppState σ) (authorization : Option String) (now : String)
    (req : L2WriteRequest) : ApiResponse × AppState σ :=
  match checkAuth state authorization with
  | some refused => (refused, state)
  | none =>
    if req.data.length > maxItemBytes then
      (.error 413 ("Conditions Not Met: item is " ++ toString req.data.length ++
        " bytes but era limit is " ++ toString maxItemBytes ++
        " bytes -- memories should be dense, not large"), state)
    else
      let write := l2WriteOf state req
      match Storage.writeL2Item state.storage now write with
      | .ok written => (.ok, notifyWrite { state with storage := written } (writeNotification write))
      | .error e => (.error 500 e.text, state)

def tombstoneNotification (itemId groupId : String) (keyVersion : Int32) : WriteNotification where
  itemId := itemId
  itemType := tombstoneType
  groupId := some groupId
  data := []
  keyVersion := keyVersion.toUInt32
  parentId := none
  isCopy := false

def l2Delete (state : AppState σ) (authorization : Option String) (itemId : String) :
    ApiResponse × AppState σ :=
  match checkAuth state authorization with
  | some refused => (refused, state)
  | none =>
    -- metadata is read before the delete, for the group of the tombstone
    let found := (Storage.readL2ItemMeta state.storage itemId).toOption.join
    match Storage.deleteL2Item state.storage itemId with
    | .ok (true, deleted) =>
      let state := { state with storage := deleted }
      match found, found.bind L2ItemMeta.groupId with
      | some row, some groupId =>
        (.ok, notifyWrite state (tombstoneNotification itemId groupId row.keyVersion))
      | _, _ => (.ok, state)
    | .ok (false, deleted) => (.error 404 "not found", { state with storage := deleted })
    | .error e => (.error 500 e.text, state)

def groupsCreate (state : AppState σ) (authorization : Option String) (now : String)
    (req : GroupCreateRequest) : ApiResponse × AppState σ :=
  match checkAuth state authorization with
  | some refused => (refused, state)
  | none =>
    match Storage.writeGroup state.storage now req.groupId req.name req.culture
        req.securityPolicy with
    | .ok written =>
      (.groupCreated req.groupId,
        { state with
          storage := written
          sharedGroups := state.sharedGroups.map (fun groups =>
            if groups.contains req.groupId then groups else groups ++ [req.groupId])
          bootstrapSync := state.bootstrapSync.map (· ++ [req.groupId]) })
    | .error e => (.error 500 e.text, state)

def deleteGroupLog (entityId groupId : String) : AccessLogEntry where
  entityId := entityId
  action := "delete_group"
  resourceType := "group"
  resourceId := some groupId
  groupId := some groupId
  detail := some "tombstone"

/-- Deletion writes a tombstone culture under the group's id as its name. -/
def groupsDelete (state : AppState σ) (authorization : Option String) (now groupId : String) :
    ApiResponse × AppState σ :=
  match checkAuth state authorization with
  | some refused => (refused, state)
  | none =>
    match Storage.readGroup state.storage groupId with
    | .ok none => (.error 404 "group not found", state)
    | .error e => (.error 500 e.text, state)
    | .ok (some _) =>
      match Storage.writeGroup state.storage now groupId groupId groupTombstoneCulture "{}" with
      | .error e => (.error 500 e.text, state)
      | .ok written =>
        let removed := removeMembers written groupId
        let logged := (Storage.logAccess removed now (deleteGroupLog state.entityId groupId)).toOption
        (.ok, { state with
          storage := logged.getD removed
          sharedGroups := state.sharedGroups.map (fun groups => groups.filter (· ≠ groupId)) })

def addMemberLog (entityId : String) (req : GroupAddMemberRequest) : AccessLogEntry where
  entityId := entityId
  action := "add_member"
  resourceType := "group"
  resourceId := some req.groupId
  groupId := some req.groupId
  detail := some ("entity=" ++ req.entityId ++ " role=" ++ req.role)

def groupsAddMember (state : AppState σ) (authorization : Option String) (now : String)
    (req : GroupAddMemberRequest) : ApiResponse × AppState σ :=
  match checkAuth state authorization with
  | some refused => (refused, state)
  | none =>
    if req.role ∉ ["owner", "admin", "member", "viewer"] then
      (.error 400 "invalid role: must be owner, admin, member, or viewer", state)
    else
      match Storage.addMember state.storage now req.groupId req.entityId req.role with
      | (.ok (), added) =>
        let logged := (Storage.logAccess added now (addMemberLog state.entityId req)).toOption
        (.ok, { state with storage := logged.getD added })
      | (.error e, left) => (.error 500 e.text, { state with storage := left })

def removeMemberLog (entityId : String) (req : GroupRemoveMemberRequest) : AccessLogEntry where
  entityId := entityId
  action := "remove_member"
  resourceType := "group"
  resourceId := some req.groupId
  groupId := some req.groupId
  detail := some ("entity=" ++ req.entityId)

def memberChanged (state : AppState σ) (now : String) (entry : AccessLogEntry)
    (result : Except StorageError (Bool × σ)) : ApiResponse × AppState σ :=
  match result with
  | .ok (true, changed) =>
    let logged := (Storage.logAccess changed now entry).toOption
    (.ok, { state with storage := logged.getD changed })
  | .ok (false, same) => (.error 404 "member not found", { state with storage := same })
  | .error e => (.error 500 e.text, state)

def groupsRemoveMember (state : AppState σ) (authorization : Option String) (now : String)
    (req : GroupRemoveMemberRequest) : ApiResponse × AppState σ :=
  match checkAuth state authorization with
  | some refused => (refused, state)
  | none => memberChanged state now (removeMemberLog state.entityId req)
      (Storage.removeMember state.storage req.groupId req.entityId)

def updatePostureLog (entityId : String) (req : GroupUpdatePostureRequest) : AccessLogEntry where
  entityId := entityId
  action := "update_posture"
  resourceType := "group"
  resourceId := some req.groupId
  groupId := some req.groupId
  detail := some ("entity=" ++ req.entityId ++ " posture=" ++ req.posture)

/-- `removed` is no posture a request can set. -/
def groupsUpdatePosture (state : AppState σ) (authorization : Option String) (now : String)
    (req : GroupUpdatePostureRequest) : ApiResponse × AppState σ :=
  match checkAuth state authorization with
  | some refused => (refused, state)
  | none =>
    if req.posture ∉ ["active", "silent", "emcon"] then
      (.error 400 "invalid posture: must be active, silent, or emcon", state)
    else memberChanged state now (updatePostureLog state.entityId req)
      (Storage.updateMemberPosture state.storage req.groupId req.entityId req.posture)

end CordeliaCore.Api
