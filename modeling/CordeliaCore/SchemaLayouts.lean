import CordeliaCore.StorageSchema

set_option autoImplicit false

namespace CordeliaCore.StorageSchema
open SqlScripts StorageRows

/-- `rows` are those of the tables no migration changes, `signing` is the number of
    signing columns, and `rebuiltRows` are those of `group_members_new`. -/
structure Layout where
  versionRow : Row
  rows : TableName → List Row
  signing : ℕ
  groupRows : List Row
  removable : Bool
  memberRows : Option (List Row)
  rebuiltRows : Option (List Row)
  deviceRows : Option (List Row)
  devicesIndex : Bool

namespace Layout

def tables (l : Layout) : TableName → Option (Table TableName)
  | .l1Hot => some ⟨l1Hot, l.rows .l1Hot⟩
  | .l2Items => some ⟨l2Items, l.rows .l2Items⟩
  | .l2Index => some ⟨l2Index, l.rows .l2Index⟩
  | .audit => some ⟨audit, l.rows .audit⟩
  | .schemaVersion => some ⟨schemaVersion, [l.versionRow]⟩
  | .l2Fts => some ⟨l2Fts, l.rows .l2Fts⟩
  | .embeddingCache => some ⟨embeddingCache, l.rows .embeddingCache⟩
  | .integrityCanary => some ⟨integrityCanary, l.rows .integrityCanary⟩
  | .groups => some ⟨groupsTable l.signing, l.groupRows⟩
  | .groupMembers => l.memberRows.map (fun rows => ⟨membersTable l.removable, rows⟩)
  | .accessLog => some ⟨accessLog, l.rows .accessLog⟩
  | .devices => l.deviceRows.map (fun rows => ⟨devices, rows⟩)
  | .groupMembersNew => l.rebuiltRows.map (fun rows => ⟨membersTable true, rows⟩)

def indexes (l : Layout) : IndexName → Option (Index TableName)
  | .idxL2ItemsGroup => some (indexOf .idxL2ItemsGroup)
  | .idxL2ItemsParent => some (indexOf .idxL2ItemsParent)
  | .idxL2ItemsAuthor => some (indexOf .idxL2ItemsAuthor)
  | .idxAccessLogEntity => some (indexOf .idxAccessLogEntity)
  | .idxAccessLogGroup => some (indexOf .idxAccessLogGroup)
  | .idxDevicesEntity => if l.devicesIndex then some (indexOf .idxDevicesEntity) else none

def database (l : Layout) : Db := ⟨l.tables, l.indexes⟩

end Layout

theorem database_ext {db db' : Db} (htables : ∀ name, db.tables name = db'.tables name)
    (hindexes : ∀ name, db.indexes name = db'.indexes name) : db = db' := by
  cases db
  cases db'
  congr
  · funext name
    exact htables name
  · funext name
    exact hindexes name

theorem setTable_database {l l' : Layout} {name : TableName} {t : Option (Table TableName)}
    (htables : ∀ other, l'.tables other = if other = name then t else l.tables other)
    (hindexes : l'.devicesIndex = l.devicesIndex) :
    l.database.setTable name t = l'.database := by
  refine database_ext (fun other => ?_) (fun i => ?_)
  · simp [Layout.database, Database.setTable, htables, Function.update_apply]
  · cases i <;> simp [Layout.database, Layout.indexes, Database.setTable, hindexes]

section Statements
variable (now : String) (l : Layout)
open Database

theorem execute_createTable {l' : Layout} {name : TableName} {schema : Schema TableName}
    (rows : Option (List Row)) (htable : l.tables name = rows.map (fun rows => ⟨schema, rows⟩))
    (htables : ∀ other, l'.tables other =
      if other = name then some ⟨schema, rows.getD []⟩ else l.tables other)
    (hindexes : l'.devicesIndex = l.devicesIndex) :
    execute now l.database (.createTable name schema) = .ok l'.database := by
  have hdatabase : l.database.tables name = _ := htable
  cases rows with
  | some rows =>
    -- the table is there, and is left alone
    rw [execute, hdatabase, ← setTable_database htables hindexes]
    refine congrArg Except.ok (database_ext (fun other => ?_) (fun _ => rfl))
    by_cases hother : other = name
    · simp [Database.setTable, hother, hdatabase]
    · simp [Database.setTable, hother]
  | none =>
    rw [execute, hdatabase]
    exact congrArg Except.ok (setTable_database htables hindexes)

theorem execute_createDevices :
    execute now l.database (.createTable .devices devices) =
      .ok { l with deviceRows := some (l.deviceRows.getD []) : Layout }.database := by
  refine execute_createTable now l l.deviceRows rfl (fun other => ?_) rfl
  cases other <;> rfl

theorem execute_createDevicesIndex {rows : List Row} (h : l.deviceRows = some rows) :
    execute now l.database (.createIndex .idxDevicesEntity (indexOf .idxDevicesEntity)) =
      .ok { l with devicesIndex := true : Layout }.database := by
  have hdevices : l.database.tables (indexOf .idxDevicesEntity).table = some ⟨devices, rows⟩ := by
    simp [Layout.database, Layout.tables, indexOf, h]
  cases hindex : l.devicesIndex with
  | true =>
    have hsome : l.database.indexes .idxDevicesEntity = some (indexOf .idxDevicesEntity) := by
      simp [Layout.database, Layout.indexes, hindex]
    rw [execute, hsome]
    refine congrArg Except.ok (database_ext (fun _ => rfl) (fun name => ?_))
    cases name <;> simp [Layout.database, Layout.indexes, hindex]
  | false =>
    have hnone : l.database.indexes .idxDevicesEntity = none := by
      simp [Layout.database, Layout.indexes, hindex]
    rw [execute, hnone, hdevices]
    refine congrArg Except.ok (database_ext (fun _ => rfl) (fun name => ?_))
    cases name <;> simp [Layout.database, Layout.indexes]

def bumped (version : ℕ) (r : Row) : Row :=
  assign now [("version", .literal (.integer version)), ("migrated_at", .datetimeNow)] r

@[simp] theorem bumped_version (version : ℕ) (r : Row) :
    bumped now version r "version" = .integer version := rfl

theorem execute_bumpVersion {before : ℕ} (h : l.versionRow "version" = .integer before) (after : ℕ) :
    execute now l.database (bumpVersion before after) =
      .ok { l with versionRow := bumped now after l.versionRow : Layout }.database := by
  have htable : l.database.tables .schemaVersion = some ⟨schemaVersion, [l.versionRow]⟩ := rfl
  have haccepts : schemaVersion.accepts (bumped now after l.versionRow) = true := by
    simp [Schema.accepts, schemaVersion, bumped, assign, Column.accepts, required, stamped,
      Expr.eval, List.lookup_cons, List.lookup_nil]
  rw [bumpVersion, execute, htable]
  simp only [List.map_cons, List.map_nil, if_pos h]
  rw [writeRows, if_pos]
  · refine congrArg Except.ok (setTable_database (fun other => ?_) rfl)
    cases other <;> rfl
  · change List.all [bumped now after l.versionRow] _ = true
    rw [List.all_cons, haccepts]
    rfl

theorem groupsTable_succ {n : ℕ} {c : Column} (hc : signingColumns[n]? = some c) :
    (groupsTable n).names.contains c.name = false ∧ c.default.eval now = .null ∧
      { groupsTable n with columns := (groupsTable n).columns ++ [c] : Schema TableName } =
        groupsTable (n + 1) := by
  match n with
  | 0 | 1 | 2 =>
    cases hc
    exact ⟨rfl, rfl, rfl⟩
  | n + 3 => simp [signingColumns] at hc

theorem execute_addColumn {c : Column} (hc : signingColumns[l.signing]? = some c)
    (hnull : ∀ r ∈ l.groupRows, r c.name = .null) :
    execute now l.database (.addColumn .groups c) =
      .ok { l with signing := l.signing + 1 : Layout }.database := by
  have htable : l.database.tables .groups = some ⟨groupsTable l.signing, l.groupRows⟩ := rfl
  have ⟨hfresh, hdefault, hcolumns⟩ := groupsTable_succ now hc
  have hrows : l.groupRows.map (fun r => Function.update r c.name (c.default.eval now)) =
      l.groupRows := by
    rw [hdefault]
    refine (List.map_congr_left (fun r hr => ?_)).trans (List.map_id _)
    rw [← hnull r hr, Function.update_eq_self]
    rfl
  rw [execute, htable]
  simp only [hfresh, Bool.false_eq_true, if_false, hrows, hcolumns]
  refine congrArg Except.ok (setTable_database (fun other => ?_) rfl)
  cases other <;> rfl

theorem execute_createRebuilt :
    execute now l.database (.createTable .groupMembersNew (membersTable true)) =
      .ok { l with rebuiltRows := some (l.rebuiltRows.getD []) : Layout }.database := by
  refine execute_createTable now l l.rebuiltRows rfl (fun other => ?_) rfl
  cases other <;> rfl

theorem execute_dropMembers {rows : List Row} (h : l.memberRows = some rows) :
    execute now l.database (.dropTable .groupMembers) =
      .ok { l with memberRows := none : Layout }.database := by
  have hsome : l.database.tables .groupMembers = some ⟨membersTable l.removable, rows⟩ := by
    simp [Layout.database, Layout.tables, h]
  rw [execute, hsome]
  refine congrArg Except.ok (database_ext (fun name => ?_) (fun name => ?_))
  · cases name <;> simp [Layout.database, Layout.tables]
  · cases name <;> first | rfl | skip
    cases hindex : l.devicesIndex <;>
      simp [Layout.database, Layout.indexes, indexOf, hindex]

theorem execute_renameRebuilt {rows : List Row} (hgone : l.memberRows = none)
    (h : l.rebuiltRows = some rows) :
    execute now l.database (.renameTable .groupMembersNew .groupMembers) =
      .ok { l with removable := true, memberRows := some rows, rebuiltRows := none :
        Layout }.database := by
  have hnew : l.database.tables .groupMembersNew = some ⟨membersTable true, rows⟩ := by
    simp [Layout.database, Layout.tables, h]
  have hold : l.database.tables .groupMembers = none := by
    simp [Layout.database, Layout.tables, hgone]
  rw [execute, hnew, hold]
  refine congrArg Except.ok (database_ext (fun name => ?_) (fun _ => rfl))
  cases name <;> simp [Layout.database, Layout.tables, setTable]

end Statements

section Members

structure MemberRows (l : Layout) (rows : List Row) : Prop where
  accepts : ∀ r ∈ rows, (membersTable l.removable).accepts r = true
  within : ∀ r ∈ rows, ∀ name ∉ (membersTable l.removable).names, r name = .null
  distinct : rows.Pairwise (fun r r' => (membersTable l.removable).conflicts r' r = false)
  refers : ∀ r ∈ rows, l.database.refers (membersTable l.removable) r = true

theorem membersTable_accepts {removable : Bool} {r : Row}
    (h : (membersTable removable).accepts r = true) : (membersTable true).accepts r = true := by
  cases removable with
  | true => exact h
  | false =>
    simp only [Schema.accepts, membersTable, List.all_cons, List.all_nil, Bool.and_true,
      Bool.and_eq_true] at h ⊢
    refine ⟨h.1, h.2.1, h.2.2.1, ?_, h.2.2.2.2⟩
    have hposture := h.2.2.2.1
    by_cases hnull : r "posture" = .null
    · simp [Column.accepts, hnull]
    · simp [Column.accepts, postures, oneOf, hnull] at hposture ⊢
      tauto

theorem membersTable_conflicts_self {r : Row} (h : (membersTable true).accepts r = true) :
    (membersTable true).conflicts r r = true := by
  simp only [Schema.accepts, membersTable, List.all_cons, Bool.and_eq_true] at h
  have hgroup : r "group_id" ≠ .null := by
    intro hnull
    simp [required, Column.accepts, hnull] at h
  have hentity : r "entity_id" ≠ .null := by
    intro hnull
    simp [required, Column.accepts, hnull] at h
  simp [Schema.conflicts, membersTable, hgroup, hentity]

variable {l : Layout} {rows : List Row}

theorem MemberRows.copied (h : MemberRows l rows) {done : List Row} (hdone : done = [] ∨ done = rows) :
    (rows.map (project ["group_id", "entity_id", "role", "posture", "joined_at"])).foldl
      (membersTable true).insertOrIgnore done = rows := by
  have haccepts : ∀ r ∈ rows, (membersTable true).accepts r = true :=
    fun r hr => membersTable_accepts (h.accepts r hr)
  have hproject : rows.map (project ["group_id", "entity_id", "role", "posture", "joined_at"]) =
      rows :=
    (List.map_congr_left (fun r hr => project_eq_self (h.within r hr))).trans (List.map_id rows)
  rw [hproject]
  rcases hdone with rfl | rfl
  · exact Schema.foldl_insertOrIgnore_fresh _ haccepts (show ([] ++ rows).Pairwise _ from h.distinct)
  · refine Schema.foldl_insertOrIgnore_present _ (fun r hr => List.any_eq_true.mpr ?_)
    exact ⟨r, hr, membersTable_conflicts_self (haccepts r hr)⟩

theorem execute_copyMembers (now : String) (l : Layout) (hmembers : l.memberRows = some rows)
    (h : MemberRows l rows) (hnew : l.rebuiltRows = some [] ∨ l.rebuiltRows = some rows) :
    Database.execute now l.database (.insertOrIgnoreSelect .groupMembersNew
        ["group_id", "entity_id", "role", "posture", "joined_at"] .groupMembers) =
      .ok { l with rebuiltRows := some rows : Layout }.database := by
  have hsource : l.database.tables .groupMembers = some ⟨membersTable l.removable, rows⟩ := by
    simp [Layout.database, Layout.tables, hmembers]
  have htarget : ∃ done, (done = [] ∨ done = rows) ∧
      l.database.tables .groupMembersNew = some ⟨membersTable true, done⟩ := by
    rcases hnew with hnew | hnew
    · exact ⟨[], .inl rfl, by simp [Layout.database, Layout.tables, hnew]⟩
    · exact ⟨rows, .inr rfl, by simp [Layout.database, Layout.tables, hnew]⟩
  obtain ⟨done, hdone, htarget⟩ := htarget
  rw [Database.execute, htarget, hsource]
  simp only [h.copied hdone]
  rw [Database.writeRows, if_pos]
  · refine congrArg Except.ok (setTable_database (fun other => ?_) rfl)
    cases other <;> rfl
  · refine List.all_eq_true.mpr (fun r hr => ?_)
    rw [Bool.and_eq_true]
    exact ⟨membersTable_accepts (h.accepts r hr), h.refers r hr⟩

end Members
end CordeliaCore.StorageSchema
