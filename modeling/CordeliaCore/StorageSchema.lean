import CordeliaCore.SqlScripts
import CordeliaCore.StorageRows

set_option autoImplicit false

namespace CordeliaCore.StorageSchema
open SqlScripts StorageRows

inductive TableName where
  | l1Hot
  | l2Items
  | l2Index
  | audit
  | schemaVersion
  | l2Fts
  | embeddingCache
  | integrityCanary
  | groups
  | groupMembers
  | accessLog
  | devices
  | groupMembersNew
deriving DecidableEq, Repr

inductive IndexName where
  | idxL2ItemsGroup
  | idxL2ItemsParent
  | idxL2ItemsAuthor
  | idxAccessLogEntity
  | idxAccessLogGroup
  | idxDevicesEntity
deriving DecidableEq, Repr

abbrev Db := Database TableName IndexName

def sqlName : TableName → String
  | .l1Hot => "l1_hot"
  | .l2Items => "l2_items"
  | .l2Index => "l2_index"
  | .audit => "audit"
  | .schemaVersion => "schema_version"
  | .l2Fts => "l2_fts"
  | .embeddingCache => "embedding_cache"
  | .integrityCanary => "integrity_canary"
  | .groups => "groups"
  | .groupMembers => "group_members"
  | .accessLog => "access_log"
  | .devices => "devices"
  | .groupMembersNew => "group_members_new"

section Tables

def optional (name : String) : Column := { name := name }

def required (name : String) : Column := { name := name, notNull := true }

def stamped (name : String) : Column := { name := name, notNull := true, default := .datetimeNow }

def oneOf (words : List String) : List Value := words.map Value.text

def l1Hot : Schema TableName where
  columns := [optional "user_id", required "data", stamped "updated_at", stamped "created_at"]
  primaryKey := ["user_id"]

def l2Items : Schema TableName where
  columns := [optional "id",
    { name := "type", notNull := true, allowed := oneOf ["entity", "session", "learning"] },
    optional "owner_id",
    { name := "visibility", notNull := true, default := .literal (.text "private"),
      allowed := oneOf ["private", "group", "public"] },
    required "data", optional "last_accessed_at",
    { name := "access_count", notNull := true, default := .literal (.integer 0) },
    optional "checksum", optional "group_id", optional "author_id",
    { name := "key_version", default := .literal (.integer 1) },
    optional "parent_id",
    { name := "is_copy", default := .literal (.integer 0) },
    stamped "created_at", stamped "updated_at"]
  primaryKey := ["id"]

def l2Index : Schema TableName where
  columns := [{ name := "id", allowed := [.integer 1] }, required "data", stamped "updated_at"]
  primaryKey := ["id"]

def audit : Schema TableName where
  columns := [optional "id", stamped "ts", required "entry"]
  primaryKey := ["id"]

def schemaVersion : Schema TableName where
  columns := [required "version", stamped "migrated_at"]

def l2Fts : Schema TableName where
  columns := [optional "item_id", optional "name", optional "content", optional "tags"]

def embeddingCache : Schema TableName where
  columns := [required "content_hash", required "provider", required "model",
    required "dimensions", required "vector", stamped "created_at"]
  primaryKey := ["content_hash", "provider", "model"]

def integrityCanary : Schema TableName where
  columns := [{ name := "id", allowed := [.integer 1] }, required "value", stamped "written_at"]
  primaryKey := ["id"]

/-- The columns that `schema_v6.sql` adds to the groups. -/
def signingColumns : List Column :=
  [optional "owner_id", optional "owner_pubkey", optional "signature"]

/-- The groups with the first `n` of the signing columns. -/
def groupsTable (n : ℕ) : Schema TableName where
  columns := [optional "id", required "name",
    { name := "culture", notNull := true, default := .literal (.text "\x7b\x7d") },
    { name := "security_policy", notNull := true, default := .literal (.text "\x7b\x7d") },
    stamped "created_at", stamped "updated_at"] ++ signingColumns.take n
  primaryKey := ["id"]

/-- The postures before and after `schema_v7.sql`. -/
def postures (removable : Bool) : List String :=
  ["active", "silent", "emcon"] ++ if removable then ["removed"] else []

def membersTable (removable : Bool) : Schema TableName where
  columns := [required "group_id", required "entity_id",
    { name := "role", notNull := true, default := .literal (.text "member"),
      allowed := oneOf ["owner", "admin", "member", "viewer"] },
    { name := "posture", default := .literal (.text "active"),
      allowed := oneOf (postures removable) },
    stamped "joined_at"]
  primaryKey := ["group_id", "entity_id"]
  foreignKeys := [⟨"group_id", .groups, "id"⟩, ⟨"entity_id", .l1Hot, "user_id"⟩]

def accessLog : Schema TableName where
  columns := [optional "id", stamped "ts", required "entity_id", required "action",
    required "resource_type", optional "resource_id", optional "group_id", optional "detail"]
  primaryKey := ["id"]

def devices : Schema TableName where
  columns := [optional "device_id", required "entity_id", optional "device_name",
    { name := "device_type", notNull := true, default := .literal (.text "node"),
      allowed := oneOf ["node", "browser", "mobile"] },
    required "auth_token_hash", stamped "created_at", optional "last_seen_at",
    optional "revoked_at"]
  primaryKey := ["device_id"]

def indexOf : IndexName → Index TableName
  | .idxL2ItemsGroup => ⟨.l2Items, "group_id", true⟩
  | .idxL2ItemsParent => ⟨.l2Items, "parent_id", true⟩
  | .idxL2ItemsAuthor => ⟨.l2Items, "author_id", true⟩
  | .idxAccessLogEntity => ⟨.accessLog, "entity_id", false⟩
  | .idxAccessLogGroup => ⟨.accessLog, "group_id", true⟩
  | .idxDevicesEntity => ⟨.devices, "entity_id", false⟩

end Tables

section Scripts

abbrev Script := List (Statement TableName IndexName)

def schemaV4 : Script :=
  [.createTable .l1Hot l1Hot,
    .createTable .l2Items l2Items,
    .createTable .l2Index l2Index,
    .createTable .audit audit,
    .createTable .schemaVersion schemaVersion,
    .insert .schemaVersion [("version", .integer 6)],
    .createTable .l2Fts l2Fts,
    .createTable .embeddingCache embeddingCache,
    .createTable .integrityCanary integrityCanary,
    .createTable .groups (groupsTable 3),
    .createTable .groupMembers (membersTable true),
    .createTable .accessLog accessLog,
    .createIndex .idxL2ItemsGroup (indexOf .idxL2ItemsGroup),
    .createIndex .idxL2ItemsParent (indexOf .idxL2ItemsParent),
    .createIndex .idxL2ItemsAuthor (indexOf .idxL2ItemsAuthor),
    .createIndex .idxAccessLogEntity (indexOf .idxAccessLogEntity),
    .createIndex .idxAccessLogGroup (indexOf .idxAccessLogGroup)]

def bumpVersion (before after : ℕ) : Statement TableName IndexName :=
  .update .schemaVersion [("version", .literal (.integer after)), ("migrated_at", .datetimeNow)]
    "version" (.integer before)

def schemaV5 : Script :=
  [.createTable .devices devices,
    .createIndex .idxDevicesEntity (indexOf .idxDevicesEntity),
    bumpVersion 4 5]

def schemaV6 : Script :=
  [.addColumn .groups (optional "owner_id"),
    .addColumn .groups (optional "owner_pubkey"),
    .addColumn .groups (optional "signature"),
    bumpVersion 5 6]

def schemaV7 : Script :=
  [.createTable .groupMembersNew (membersTable true),
    .insertOrIgnoreSelect .groupMembersNew
      ["group_id", "entity_id", "role", "posture", "joined_at"] .groupMembers,
    .dropTable .groupMembers,
    .renameTable .groupMembersNew .groupMembers,
    bumpVersion 6 7]

end Scripts

section EnsureSchema

def sqliteError : SqlError TableName → StorageError
  | .noSuchTable name => .sqlite ("no such table: " ++ sqlName name)
  | .tableExists name => .sqlite ("there is already another table or index with this name: " ++
      sqlName name)
  | .duplicateColumn name => .sqlite ("duplicate column name: " ++ name)
  | .constraintFailed name => .sqlite ("constraint failed: " ++ sqlName name)

def readVersion (db : Db) : Except StorageError (Option ℕ) :=
  match db.tables .schemaVersion with
  | none => .error (sqliteError (.noSuchTable .schemaVersion))
  | some t =>
    match t.rows.head? with
    | none => .ok none
    | some r =>
      match r "version" with
      | .integer n =>
        if 0 ≤ n ∧ n < 4294967296 then .ok (some n.toNat)
        else .error (.sqlite "Integer out of range")
      | _ => .error (.sqlite "Invalid column type")

/-- The same query where no row is an error. -/
def rereadVersion (db : Db) : Except StorageError ℕ :=
  (readVersion db).bind (fun version =>
    match version with
    | some v => .ok v
    | none => .error (.sqlite "Query returned no rows"))

def hasOwnerId (db : Db) : Bool :=
  (db.tables .groups).any (fun t => t.schema.names.contains "owner_id")

/-- An empty database gets the base schema. -/
def createSchema : Stage TableName IndexName StorageError := fun db =>
  .ok (if (db.tables .schemaVersion).isSome then [] else schemaV4)

def migrateToV5 : Stage TableName IndexName StorageError := fun db =>
  (readVersion db).bind (fun found =>
    let version := found.getD 0
    if version < 4 then .error (.schemaVersionMismatch 4 version)
    else .ok (if version = 4 then schemaV5 else []))

/-- The base schema has the owner columns already; then only the version is bumped. -/
def migrateToV6 : Stage TableName IndexName StorageError := fun db =>
  (rereadVersion db).bind (fun version =>
    .ok (if version = 5 then if hasOwnerId db then [bumpVersion 5 6] else schemaV6 else []))

def migrateToV7 : Stage TableName IndexName StorageError := fun db =>
  (rereadVersion db).bind (fun version => .ok (if version = 6 then schemaV7 else []))

def ensureStages : List (Stage TableName IndexName StorageError) :=
  [createSchema, migrateToV5, migrateToV6, migrateToV7]

def ensureSchema (now : String) (db : Db) : Except StorageError Db :=
  migrate sqliteError now ensureStages db

end EnsureSchema
end CordeliaCore.StorageSchema
