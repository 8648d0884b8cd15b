import CordeliaCore.CursorPaging
import CordeliaCore.KeyedTable
import CordeliaCore.StorageRows
import Mathlib.Data.List.Dedup
import Mathlib.Data.Prod.Lex

set_option autoImplicit false

/-!
# The SQLite store

The tables of schema v7 that the node uses, each with its primary key and its
CHECK constraints, and the SQL statements of `SqliteStorage` over them. They are
rowid tables: an upsert leaves a row where it is and appends a new one, and rows
with equal sort keys come in that order.
-/
namespace CordeliaCore.StorageSqlite
open CryptoPrimitives ProtocolMessages StorageRows KeyedTable

def l2ItemTypes : List String := ["entity", "session", "learning"]

def l2Visibilities : List String := ["private", "group", "public"]

def memberRoles : List String := ["owner", "admin", "member", "viewer"]

def memberPostures : List String := ["active", "silent", "emcon", "removed"]

def L2Checks (r : L2ItemRow) : Prop := r.itemType ∈ l2ItemTypes ∧ r.visibility ∈ l2Visibilities

instance (r : L2ItemRow) : Decidable (L2Checks r) := inferInstanceAs (Decidable (_ ∧ _))

/-- SQLite names a constraint without a name by its expression. -/
def checkFailed (constraint : String) : StorageError :=
  .sqlite ("CHECK constraint failed: " ++ constraint)

def l2CheckFailed (r : L2ItemRow) : StorageError :=
  checkFailed (if r.itemType ∈ l2ItemTypes then "visibility IN ('private', 'group', 'public')"
    else "type IN ('entity', 'session', 'learning')")

/-- A NULL posture passes its CHECK. -/
def MemberChecks (r : GroupMemberRow) : Prop :=
  r.role ∈ memberRoles ∧ ∀ p ∈ r.posture, p ∈ memberPostures

instance (r : GroupMemberRow) : Decidable (MemberChecks r) := inferInstanceAs (Decidable (_ ∧ _))

def memberCheckFailed (r : GroupMemberRow) : StorageError :=
  checkFailed (if r.role ∈ memberRoles then "posture IN ('active', 'silent', 'emcon', 'removed')"
    else "role IN ('owner', 'admin', 'member', 'viewer')")

def memberKey (r : GroupMemberRow) : String ×ₗ String := toLex (r.groupId, r.entityId)

structure L1HotRow where
  userId : String
  data : Bytes
  updatedAt : String
  createdAt : String
deriving DecidableEq

structure SqliteStorage where
  l1Hot : Table L1HotRow.userId (fun _ => True)
  l2Items : Table L2ItemRow.id L2Checks
  groups : Table GroupRow.id (fun _ => True)
  groupMembers : Table memberKey MemberChecks
  accessLog : List (String × AccessLogEntry)

def checksum [Sha256] (data : Bytes) : String := hexEncode (Sha256.digest data)

namespace SqliteStorage

def createNew : SqliteStorage := ⟨.empty, .empty, .empty, .empty, []⟩

/-- The row an upsert leaves: the columns it does not name keep their values,
    or take their defaults on insert. -/
def l2Upserted [Sha256] (existing : Option L2ItemRow) (now : String) (item : L2ItemWrite) :
    L2ItemRow where
  id := item.id
  itemType := item.itemType
  ownerId := item.ownerId
  visibility := item.visibility
  data := item.data
  checksum := some (checksum item.data)
  groupId := item.groupId
  authorId := item.authorId
  keyVersion := item.keyVersion
  parentId := item.parentId
  isCopy := item.isCopy
  accessCount := existing.elim 0 (·.accessCount)
  lastAccessedAt := existing.bind (·.lastAccessedAt)
  createdAt := existing.elim now (·.createdAt)
  updatedAt := item.updatedAt.getD now

def writeL2Item [Sha256] (s : SqliteStorage) (now : String) (item : L2ItemWrite) :
    Except StorageError SqliteStorage :=
  let row := l2Upserted (s.l2Items.lookup item.id) now item
  if h : L2Checks row then .ok { s with l2Items := s.l2Items.put row h }
  else .error (l2CheckFailed row)

def deleteL2Item (s : SqliteStorage) (id : String) : Bool × SqliteStorage :=
  ((s.l2Items.lookup id).isSome, { s with l2Items := s.l2Items.erase id })

def itemMeta (r : L2ItemRow) : L2ItemMeta :=
  ⟨r.ownerId, r.visibility, r.groupId, r.authorId, r.keyVersion, r.parentId, r.isCopy⟩

def itemHeader (r : L2ItemRow) : ItemHeader where
  itemId := r.id
  itemType := r.itemType
  checksum := r.checksum.getD ""
  updatedAt := r.updatedAt
  authorId := r.authorId.getD ""
  isDeletion := false

def groupItems (s : SqliteStorage) (groupId : String) : List L2ItemRow :=
  s.l2Items.rows.filter (fun r => r.groupId = some groupId)

/-- `ORDER BY updated_at ASC LIMIT ?`, after `since` where it is given. -/
def listGroupItems (s : SqliteStorage) (groupId : String) (since : Option String) (limit : ℕ) :
    List ItemHeader :=
  (CursorPaging.page L2ItemRow.updatedAt since limit (s.groupItems groupId)).map itemHeader

def groupUpserted (existing : Option GroupRow) (now id name culture securityPolicy : String) :
    GroupRow where
  id := id
  name := name
  culture := culture
  securityPolicy := securityPolicy
  createdAt := existing.elim now (·.createdAt)
  updatedAt := now
  ownerId := existing.bind (·.ownerId)
  ownerPubkey := existing.bind (·.ownerPubkey)
  signature := existing.bind (·.signature)

def writeGroup (s : SqliteStorage) (now id name culture securityPolicy : String) : SqliteStorage :=
  let row := groupUpserted (s.groups.lookup id) now id name culture securityPolicy
  { s with groups := s.groups.put row trivial }

def groupSigned (row : GroupRow) (ownerId ownerPubkey signature : String) : GroupRow :=
  { row with ownerId := some ownerId, ownerPubkey := some ownerPubkey, signature := some signature }

def writeGroupSignature (s : SqliteStorage) (id ownerId ownerPubkey signature : String) :
    SqliteStorage :=
  match s.groups.lookup id with
  | none => s
  | some row =>
    { s with groups := s.groups.put (groupSigned row ownerId ownerPubkey signature) trivial }

def listGroups (s : SqliteStorage) : List GroupRow :=
  s.groups.rows.insertionSort (fun a b => a.name ≤ b.name)

def memberVisible (m : GroupMemberRow) : Bool := m.posture.any (· ≠ "removed")

def listMembers (s : SqliteStorage) (groupId : String) : List GroupMemberRow :=
  (s.groupMembers.rows.filter (fun m => m.groupId = groupId ∧ memberVisible m)).insertionSort
    (fun a b => a.entityId ≤ b.entityId)

def getMembership (s : SqliteStorage) (groupId entityId : String) : Option GroupMemberRow :=
  (s.groupMembers.lookup (toLex (groupId, entityId))).filter memberVisible

/-- The first statement of `add_member`, the stub row its foreign key needs. -/
def ensureL1Stub (s : SqliteStorage) (now entityId : String) : SqliteStorage :=
  match s.l1Hot.lookup entityId with
  | some _ => s
  | none => { s with l1Hot := s.l1Hot.put ⟨entityId, asBytes "{}", now, now⟩ trivial }

def memberUpserted (existing : Option GroupMemberRow) (now groupId entityId role : String) :
    GroupMemberRow :=
  ⟨groupId, entityId, role, some "active", existing.elim now (·.joinedAt)⟩

def addMember (s : SqliteStorage) (now groupId entityId role : String) :
    Except StorageError Unit × SqliteStorage :=
  let s := s.ensureL1Stub now entityId
  let row := memberUpserted (s.groupMembers.lookup (toLex (groupId, entityId))) now groupId
    entityId role
  if h : MemberChecks row then
    if (s.groups.lookup groupId).isSome then
      (.ok (), { s with groupMembers := s.groupMembers.put row h })
    else (.error (.sqlite "FOREIGN KEY constraint failed"), s)
  else (.error (memberCheckFailed row), s)

def updateMemberPosture (s : SqliteStorage) (groupId entityId posture : String) :
    Except StorageError (Bool × SqliteStorage) :=
  match s.groupMembers.lookup (toLex (groupId, entityId)) with
  | none => .ok (false, s)
  | some m =>
    let row := { m with posture := some posture }
    if h : MemberChecks row then
      .ok (true, { s with groupMembers := s.groupMembers.put row h })
    else .error (memberCheckFailed row)

/-- A soft removal: `posture = 'removed'` on a visible member. -/
def removeMember (s : SqliteStorage) (groupId entityId : String) :
    Except StorageError (Bool × SqliteStorage) :=
  match s.getMembership groupId entityId with
  | none => .ok (false, s)
  | some _ => s.updateMemberPosture groupId entityId "removed"

/-- The members go first, so that the second statement finds none that refer to the group. -/
def deleteGroup (s : SqliteStorage) (id : String) : Except StorageError Bool × SqliteStorage :=
  let s := { s with groupMembers := s.groupMembers.keep (fun m => m.groupId ≠ id) }
  if (s.groups.lookup id).isSome ∧ s.groupMembers.rows.any (fun m => m.groupId = id) then
    (.error (.sqlite "FOREIGN KEY constraint failed"), s)
  else (.ok (s.groups.lookup id).isSome, { s with groups := s.groups.erase id })

def purgeable (tombstoneCulture cutoff : String) (row : GroupRow) : Bool :=
  row.culture = tombstoneCulture ∧ row.updatedAt < cutoff

def purgeDeletedGroups (s : SqliteStorage)
    (membersCutoff groupsCutoff tombstoneCulture : String) : Except StorageError ℕ × SqliteStorage :=
  let s := { s with groupMembers := s.groupMembers.keep (fun m =>
    !(s.groups.lookup m.groupId).any (purgeable tombstoneCulture membersCutoff)) }
  -- the clock may have moved on to groups whose members are still there
  if s.groupMembers.rows.any (fun m =>
      (s.groups.lookup m.groupId).any (purgeable tombstoneCulture groupsCutoff)) then
    (.error (.sqlite "FOREIGN KEY constraint failed"), s)
  else
    (.ok (s.groups.rows.countP (purgeable tombstoneCulture groupsCutoff)),
      { s with groups := s.groups.keep (fun row => !purgeable tombstoneCulture groupsCutoff row) })

/-- `SELECT DISTINCT`, which promises no order. -/
def listStoredGroupIds (s : SqliteStorage) : List String :=
  (s.l2Items.rows.filterMap L2ItemRow.groupId).dedup

instance [Sha256] : Storage SqliteStorage where
  readL2Item s id := .ok (s.l2Items.lookup id)
  writeL2Item := writeL2Item
  deleteL2Item s id := .ok (s.deleteL2Item id)
  readL2ItemMeta s id := .ok ((s.l2Items.lookup id).map itemMeta)
  listGroupItems s groupId since limit := .ok (s.listGroupItems groupId since limit)
  writeGroup s now id name culture securityPolicy :=
    .ok (s.writeGroup now id name culture securityPolicy)
  writeGroupSignature s id ownerId ownerPubkey signature :=
    .ok (s.writeGroupSignature id ownerId ownerPubkey signature)
  readGroup s id := .ok (s.groups.lookup id)
  listGroups s := .ok s.listGroups
  listMembers s groupId := .ok (s.listMembers groupId)
  getMembership s groupId entityId := .ok (s.getMembership groupId entityId)
  addMember := addMember
  updateMemberPosture := updateMemberPosture
  removeMember := removeMember
  purgeDeletedGroups := purgeDeletedGroups
  logAccess s now entry := .ok { s with accessLog := s.accessLog ++ [(now, entry)] }
  listStoredGroupIds s := .ok s.listStoredGroupIds

theorem mem_listMembers {s : SqliteStorage} {groupId : String} {m : GroupMemberRow} :
    m ∈ s.listMembers groupId ↔
      m ∈ s.groupMembers.rows ∧ m.groupId = groupId ∧ memberVisible m := by
  unfold listMembers
  rw [List.mem_insertionSort, List.mem_filter, decide_eq_true_iff]

section Methods
variable [Sha256] (s : SqliteStorage)

@[simp] theorem readL2Item_ok (id : String) :
    Storage.readL2Item s id = .ok (s.l2Items.lookup id) := rfl

@[simp] theorem deleteL2Item_ok (id : String) :
    Storage.deleteL2Item s id = .ok (s.deleteL2Item id) := rfl

@[simp] theorem listGroupItems_ok (groupId : String) (since : Option String) (limit : ℕ) :
    Storage.listGroupItems s groupId since limit = .ok (s.listGroupItems groupId since limit) := rfl

@[simp] theorem logAccess_ok (now : String) (entry : AccessLogEntry) :
    Storage.logAccess s now entry = .ok { s with accessLog := s.accessLog ++ [(now, entry)] } := rfl

theorem writeL2Item_ok (now : String) (item : L2ItemWrite)
    (h : L2Checks (l2Upserted (s.l2Items.lookup item.id) now item)) :
    Storage.writeL2Item s now item = .ok { s with l2Items := s.l2Items.put _ h } :=
  dif_pos h

theorem writeL2Item_error (now : String) (item : L2ItemWrite)
    (h : ¬ L2Checks (l2Upserted (s.l2Items.lookup item.id) now item)) :
    Storage.writeL2Item s now item =
      .error (l2CheckFailed (l2Upserted (s.l2Items.lookup item.id) now item)) :=
  dif_neg h

@[simp] theorem readGroup_ok (id : String) :
    Storage.readGroup s id = .ok (s.groups.lookup id) := rfl

@[simp] theorem writeGroup_ok (now id name culture securityPolicy : String) :
    Storage.writeGroup s now id name culture securityPolicy =
      .ok (s.writeGroup now id name culture securityPolicy) := rfl

@[simp] theorem writeGroupSignature_ok (id ownerId ownerPubkey signature : String) :
    Storage.writeGroupSignature s id ownerId ownerPubkey signature =
      .ok (s.writeGroupSignature id ownerId ownerPubkey signature) := rfl

omit [Sha256] in
theorem writeGroup_lookup (now id name culture securityPolicy g : String) :
    (s.writeGroup now id name culture securityPolicy).groups.lookup g =
      if id = g then
        some (groupUpserted (s.groups.lookup id) now id name culture securityPolicy)
      else s.groups.lookup g :=
  s.groups.lookup_put _ trivial g

omit [Sha256] in
theorem writeGroupSignature_lookup (id ownerId ownerPubkey signature g : String) :
    (s.writeGroupSignature id ownerId ownerPubkey signature).groups.lookup g =
      if id = g then
        (s.groups.lookup id).map (fun row => groupSigned row ownerId ownerPubkey signature)
      else s.groups.lookup g := by
  unfold SqliteStorage.writeGroupSignature
  cases hrow : s.groups.lookup id with
  | none =>
    split_ifs with hid
    · rw [← hid, hrow]
      rfl
    · rfl
  | some row =>
    have hkey : row.id = id := Table.key_of_lookup hrow
    have hput := s.groups.lookup_put (groupSigned row ownerId ownerPubkey signature) trivial g
    exact hput.trans (by rw [show (groupSigned row ownerId ownerPubkey signature).id = id from hkey,
      Option.map_some])

omit [Sha256] in
theorem updateMemberPosture_groups {groupId entityId posture : String} {changed : Bool}
    {updated : SqliteStorage}
    (h : s.updateMemberPosture groupId entityId posture = .ok (changed, updated)) :
    updated.groups = s.groups := by
  unfold SqliteStorage.updateMemberPosture at h
  split at h
  · cases h
    rfl
  · dsimp only at h
    split_ifs at h
    cases h
    rfl

@[simp] theorem removeMembers_groups (groupId : String) :
    (removeMembers s groupId).groups = s.groups := by
  change ((s.listMembers groupId).foldl _ s).groups = s.groups
  generalize s.listMembers groupId = members
  induction members generalizing s with
  | nil => rfl
  | cons m members ih =>
    rw [List.foldl_cons, ih]
    rw [show Storage.updateMemberPosture s groupId m.entityId "removed" =
      s.updateMemberPosture groupId m.entityId "removed" from rfl]
    cases h : s.updateMemberPosture groupId m.entityId "removed" with
    | error e => rfl
    | ok result => exact updateMemberPosture_groups s h

end Methods
end SqliteStorage
end CordeliaCore.StorageSqlite
