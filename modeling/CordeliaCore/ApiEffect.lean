import CordeliaCore.ApiHandlers
import CordeliaCore.StorageSqlite

set_option autoImplicit false

namespace CordeliaCore.Api
open CryptoPrimitives ProtocolMessages StorageRows StorageSqlite SqliteStorage

variable [Sha256]

def writtenRow (state : AppState SqliteStorage) (now : String) (req : L2WriteRequest) : L2ItemRow :=
  l2Upserted (state.storage.l2Items.lookup req.itemId) now (l2WriteOf state req)

structure WriteAccepted (state : AppState SqliteStorage) (authorization : Option String)
    (now : String) (req : L2WriteRequest) : Prop where
  auth : checkAuth state authorization = none
  size : req.data.length ≤ maxItemBytes
  checks : L2Checks (writtenRow state now req)

def withWritten (state : AppState SqliteStorage) (now : String) (req : L2WriteRequest)
    (h : L2Checks (writtenRow state now req)) : AppState SqliteStorage :=
  notifyWrite
    { state with storage := { state.storage with
        l2Items := state.storage.l2Items.put (writtenRow state now req) h } }
    (writeNotification (l2WriteOf state req))

theorem withWritten_lookup (state : AppState SqliteStorage) (now : String) (req : L2WriteRequest)
    (h : L2Checks (writtenRow state now req)) (id : String) :
    (withWritten state now req h).storage.l2Items.lookup id =
      if req.itemId = id then some (writtenRow state now req)
      else state.storage.l2Items.lookup id :=
  state.storage.l2Items.lookup_put _ h id

theorem l2Write_of_accepted {state : AppState SqliteStorage} {authorization : Option String}
    {now : String} {req : L2WriteRequest} (h : WriteAccepted state authorization now req) :
    l2Write state authorization now req = (.ok, withWritten state now req h.checks) := by
  unfold l2Write
  rw [h.auth]
  dsimp only
  rw [if_neg (not_lt.mpr h.size), writeL2Item_ok state.storage now (l2WriteOf state req) h.checks]
  rfl

theorem l2Write_of_refused {state : AppState SqliteStorage} {authorization : Option String}
    {now : String} {req : L2WriteRequest} (h : ¬ WriteAccepted state authorization now req) :
    (l2Write state authorization now req).2 = state := by
  unfold l2Write
  cases hauth : checkAuth state authorization with
  | some refused => rfl
  | none =>
    dsimp only
    by_cases hsize : req.data.length > maxItemBytes
    · rw [if_pos hsize]
    have hchecks : ¬ L2Checks (writtenRow state now req) := fun hc =>
      h ⟨hauth, not_lt.mp hsize, hc⟩
    rw [if_neg hsize, writeL2Item_error state.storage now (l2WriteOf state req) hchecks]

theorem l2Delete_lookup {state : AppState SqliteStorage} {authorization : Option String}
    (h : checkAuth state authorization = none) (id j : String) :
    (l2Delete state authorization id).2.storage.l2Items.lookup j =
      if j = id then none else state.storage.l2Items.lookup j := by
  have hstorage : (l2Delete state authorization id).2.storage =
      (state.storage.deleteL2Item id).2 := by
    unfold l2Delete
    rw [h, deleteL2Item_ok]
    dsimp only
    cases hfound : (state.storage.deleteL2Item id).1 with
    | false => rw [← Prod.mk.eta (p := state.storage.deleteL2Item id), hfound]
    | true =>
      rw [← Prod.mk.eta (p := state.storage.deleteL2Item id), hfound]
      dsimp only
      split <;> rfl
  rw [hstorage]
  exact state.storage.l2Items.lookup_erase id j

section Groups
variable (state : AppState SqliteStorage) (authorization : Option String) (now : String)

theorem groupsCreate_groups (req : GroupCreateRequest) :
    (groupsCreate state authorization now req).2.storage.groups =
      if checkAuth state authorization = none then
        (state.storage.writeGroup now req.groupId req.name req.culture req.securityPolicy).groups
      else state.storage.groups := by
  unfold groupsCreate
  cases checkAuth state authorization with
  | none => rfl
  | some refused => rfl

/-- A deletion is a write of the tombstone culture over a group that exists. -/
theorem groupsDelete_groups (groupId : String) :
    (groupsDelete state authorization now groupId).2.storage.groups =
      if checkAuth state authorization = none ∧ (state.storage.groups.lookup groupId).isSome then
        (state.storage.writeGroup now groupId groupId groupTombstoneCulture "{}").groups
      else state.storage.groups := by
  unfold groupsDelete
  cases checkAuth state authorization with
  | some refused => simp
  | none =>
    rw [readGroup_ok]
    cases state.storage.groups.lookup groupId with
    | none => simp
    | some row =>
      rw [writeGroup_ok]
      simp only [logAccess_ok, Except.toOption, Option.getD_some, removeMembers_groups,
        Option.isSome_some, and_self, if_true]

omit [Sha256] in
theorem ensureL1Stub_groups (db : SqliteStorage) (entityId : String) :
    (db.ensureL1Stub now entityId).groups = db.groups := by
  unfold ensureL1Stub
  split <;> rfl

omit [Sha256] in
theorem addMember_groups (db : SqliteStorage) (groupId entityId role : String) :
    (db.addMember now groupId entityId role).2.groups = db.groups := by
  unfold SqliteStorage.addMember
  dsimp only
  split_ifs <;> exact ensureL1Stub_groups now db entityId

theorem groupsAddMember_groups (req : GroupAddMemberRequest) :
    (groupsAddMember state authorization now req).2.storage.groups = state.storage.groups := by
  have hadd := addMember_groups now state.storage req.groupId req.entityId req.role
  unfold groupsAddMember
  cases checkAuth state authorization with
  | some refused => rfl
  | none =>
    dsimp only
    split_ifs
    swap
    · rfl
    · rw [show Storage.addMember state.storage now req.groupId req.entityId req.role =
        state.storage.addMember now req.groupId req.entityId req.role from rfl]
      generalize state.storage.addMember now req.groupId req.entityId req.role = added at hadd
      obtain ⟨outcome, left⟩ := added
      cases outcome with
      | error e => exact hadd
      | ok _ => exact hadd

end Groups

section Example

def apiState (storage : SqliteStorage) : AppState SqliteStorage :=
  ⟨storage, "russell", "token", some [], none, none⟩

/-- The JSON string of a letter, as `serde_json` writes it. -/
def noteRequest : L2WriteRequest where
  itemId := "note-1"
  itemType := "learning"
  data := asBytes "\"a\""
  writeMeta := some { L2WriteMeta.default with groupId := some "seed-drill" }

omit [Sha256] in
theorem apiState_auth (storage : SqliteStorage) :
    checkAuth (apiState storage) (some "Bearer token") = none :=
  if_neg (not_not.mpr (by decide : "Bearer token" = "Bearer " ++ "token"))

end Example
end CordeliaCore.Api
