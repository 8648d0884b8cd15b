import CordeliaCore.SchemaMigration

set_option autoImplicit false

/-!
# Opening a half-migrated database

Statements of a script commit one by one, so a process that stops leaves a database
between two of them. Opening it again ends where the uninterrupted migration ends
exactly when no script was left half done.
-/
namespace CordeliaCore.StorageSchema
open SqlScripts StorageRows

section Whole

def baseTables : List TableName :=
  [.l1Hot, .l2Items, .l2Index, .audit, .schemaVersion, .l2Fts, .embeddingCache, .integrityCanary,
    .groups, .groupMembers, .accessLog]

def baseIndexes : List IndexName :=
  [.idxL2ItemsGroup, .idxL2ItemsParent, .idxL2ItemsAuthor, .idxAccessLogEntity, .idxAccessLogGroup]

def based (db : Db) : Bool :=
  baseTables.all (fun name => (db.tables name).isSome) &&
    baseIndexes.all (fun name => (db.indexes name).isSome)

def fullySigned (db : Db) : Bool :=
  (db.tables .groups).any (fun t => signingColumns.all (fun c => t.schema.names.contains c.name))

/-- There is no version table yet, or everything of the base schema is there with a
    version, and the groups have all signing columns if they have the first. -/
def whole (db : Db) : Bool :=
  (db.tables .schemaVersion).isNone ||
    (db.tables .schemaVersion).any (fun t => !t.rows.isEmpty) && based db &&
      (!hasOwnerId db || fullySigned db)

structure SameOutcome (db db' : Db) : Prop where
  schema : ∀ name, (db.tables name).map Table.schema = (db'.tables name).map Table.schema
  indexes : db.indexes = db'.indexes
  groups : (db.tables .groups).map Table.rows = (db'.tables .groups).map Table.rows
  members : (db.tables .groupMembers).map Table.rows = (db'.tables .groupMembers).map Table.rows

theorem SameOutcome.based {db db' : Db} (h : SameOutcome db db') : based db = based db' := by
  have htable (name : TableName) : (db.tables name).isSome = (db'.tables name).isSome := by
    rw [← Option.isSome_map, h.schema, Option.isSome_map]
  simp only [StorageSchema.based, htable, h.indexes]

theorem sameOutcome_of_goal {l l' : Layout} (h : Valid 7 l) (h' : Valid 7 l')
    (hgoal : l.destination 7 = l'.destination 7) : SameOutcome l.database l'.database := by
  rw [h.arrived, h'.arrived] at hgoal
  have htables (name : TableName) (hname : name ≠ .schemaVersion) :
      l.database.tables name = l'.database.tables name := by
    have := congrArg (fun g : Layout => g.database.tables name) hgoal
    cases name <;> first | exact this | exact absurd rfl hname
  refine ⟨fun name => ?_, ?_, ?_, ?_⟩
  · by_cases hname : name = .schemaVersion
    · subst hname
      rfl
    · rw [htables name hname]
  · have hindex := congrArg Layout.devicesIndex hgoal
    funext name
    cases name <;> simp_all [Layout.database, Layout.indexes]
  · rw [htables .groups (by decide)]
  · rw [htables .groupMembers (by decide)]

theorem Valid.based {version : ℕ} {l : Layout} (h : Valid version l) :
    based l.database = true := by
  obtain ⟨rows, hrows, -⟩ := h.members
  simp [StorageSchema.based, baseTables, baseIndexes, Layout.database, Layout.tables,
    Layout.indexes, hrows]

theorem whole_of_resumes {goal : Layout} {db : Db} (h : Resumes goal db) : whole db = true := by
  obtain ⟨version, l, rfl, hvalid, -⟩ := h
  have hsigned : (!hasOwnerId l.database || fullySigned l.database) = true := by
    rw [hasOwnerId_database]
    rcases hvalid.signing with h | ⟨-, h⟩
    · have : fullySigned l.database = true := by
        change signingColumns.all (fun c => (groupsTable l.signing).names.contains c.name) = true
        rw [h]
        decide
      simp [this]
    · simp [h]
  change (false || true && based l.database && _) = true
  rw [hvalid.based, hsigned]
  rfl

theorem not_whole_of_broken {db : Db} (h : Broken db) : whole db = false := by
  cases h with
  | halfSigned l _ hsigning =>
    have hunsigned : fullySigned l.database = false := by
      change signingColumns.all (fun c => (groupsTable l.signing).names.contains c.name) = false
      rcases hsigning with h | h <;> rw [h] <;> decide
    change (false || true && based l.database && _) = false
    rw [hasOwnerId_database, hunsigned]
    rcases hsigning with h | h <;> simp [h]
  | dropped l _ hgone =>
    have hbased : based l.database = false := by
      simp [based, baseTables, Layout.database, Layout.tables, hgone]
    change (false || true && based l.database && _) = false
    rw [hbased]
    rfl

end Whole

section Broken
variable {l : Layout} {later : String}
open Database

theorem ensureSchema_late {v : ℕ} (h : l.versionRow "version" = .integer v) (hge : 5 ≤ v)
    (hlt : v < 2 ^ 32) :
    ensureSchema later l.database =
      migrate sqliteError later [migrateToV6, migrateToV7] l.database := by
  have hread := readVersion_database h hlt
  have hpick : migrateToV5 l.database = .ok [] := by
    rw [migrateToV5, hread]
    change (if v < 4 then _ else Except.ok (if v = 4 then schemaV5 else [])) = _
    rw [if_neg (by omega), if_neg (by omega)]
  rw [ensureSchema, ensureStages, migrate_cons (show createSchema l.database = .ok [] from rfl) rfl,
    migrate_cons hpick rfl]

/-- The shortcut for groups that have an owner column bumps the version only. -/
theorem halfSigned_groups (hversion : l.versionRow "version" = .integer 5)
    (hsigning : l.signing = 1 ∨ l.signing = 2) {db : Db}
    (h : ensureSchema later l.database = .ok db) :
    db.tables .groups = some ⟨groupsTable l.signing, l.groupRows⟩ := by
  let l' : Layout := { l with versionRow := bumped later 6 l.versionRow }
  have howner : hasOwnerId l.database = true := by
    rw [hasOwnerId_database]
    rcases hsigning with h | h <;> simp [h]
  have hpick₆ : migrateToV6 l.database = .ok [bumpVersion 5 6] := by
    rw [migrateToV6, rereadVersion, readVersion_database (v := 5) hversion (by decide)]
    change Except.ok (if hasOwnerId l.database then _ else _) = _
    rw [howner]
    rfl
  have hpick₇ : migrateToV7 l'.database = .ok schemaV7 := by
    rw [migrateToV7, rereadVersion, readVersion_database (v := 6) rfl (by decide)]
    rfl
  have hbump : execute later l.database (bumpVersion 5 6) = .ok l'.database :=
    execute_bumpVersion later l hversion 6
  rw [ensureSchema_late (v := 5) hversion (by omega) (by decide),
    migrate_cons hpick₆ ((runScript_cons hbump).trans rfl)] at h
  cases hrun : runScript later schemaV7 l'.database with
  | error e =>
    rw [migrate_of_failed hpick₇ hrun] at h
    cases h
  | ok next =>
    rw [migrate_cons hpick₇ hrun] at h
    cases h
    rw [runScript_tables (by decide) hrun]
    rfl

theorem dropped_fails (hversion : l.versionRow "version" = .integer 6)
    (hgone : l.memberRows = none) :
    ensureSchema later l.database = .error (sqliteError (.noSuchTable .groupMembers)) := by
  let l' : Layout := { l with rebuiltRows := some (l.rebuiltRows.getD []) }
  have hread := readVersion_database (v := 6) hversion (by decide)
  have hpick₆ : migrateToV6 l.database = .ok [] := by
    rw [migrateToV6, rereadVersion, hread]
    rfl
  have hpick₇ : migrateToV7 l.database = .ok schemaV7 := by
    rw [migrateToV7, rereadVersion, hread]
    rfl
  have hsource : l'.database.tables .groupMembers = none := by
    simp [Layout.database, Layout.tables, l', hgone]
  have hrun : runScript later schemaV7 l.database = .error (.noSuchTable .groupMembers) := by
    rw [schemaV7, runScript_cons (execute_createRebuilt later l)]
    exact runScript_of_failed (execute_select_missing (show l'.database.tables _ = some _ from rfl) hsource)
  rw [ensureSchema_late (v := 6) hversion (by omega) (by decide), migrate_cons hpick₆ rfl,
    migrate_of_failed hpick₇ hrun]

theorem not_restarted_of_broken {stop : Db} (h : Broken stop) {l : Layout} (hvalid : Valid 7 l)
    {db : Db} (hdb : ensureSchema later stop = .ok db) : ¬ SameOutcome l.database db := by
  intro hsame
  cases h with
  | halfSigned l' hversion hsigning =>
    have hgroups := hsame.schema .groups
    rw [halfSigned_groups hversion hsigning hdb] at hgroups
    have hthree : l.signing = 3 := hvalid.signing.resolve_right (by omega)
    change some (groupsTable l.signing) = some (groupsTable l'.signing) at hgroups
    rw [hthree] at hgroups
    rcases hsigning with h | h <;> rw [h] at hgroups <;> revert hgroups <;> decide
  | dropped l' hversion hgone =>
    rw [dropped_fails hversion hgone] at hdb
    cases hdb

end Broken

section EmptyFile
variable (now later : String)
open Database

def made : Except StorageError Db → Bool
  | .ok db => based db
  | .error _ => false

/-- Before there is a version table the base script runs again. -/
theorem early_stops :
    ((passed now schemaV4 (.empty : Db)).take 5).map (fun db => (whole db, ensureSchema later db)) =
      List.replicate 5 (true, ensureSchema later .empty) := by
  rfl

/-- From then on until its end it does not, and what it still had to make is missing. -/
theorem torn_stops :
    (((passed now schemaV4 (.empty : Db)).drop 5).take 12).map
      (fun db => (whole db, made (ensureSchema later db))) = List.replicate 12 (false, false) := by
  rfl

theorem last_stop :
    ((passed now schemaV4 (.empty : Db)).drop 5).drop 12 = [(baseLayout now).database] := by
  change [_] = [_]
  refine congrArg (fun db => [db]) (database_ext (fun name => ?_) (fun name => ?_))
  · cases name <;> rfl
  · cases name <;> rfl

inductive Stopped (goal : Layout) (stop : Db) : Prop where
  | resumes (h : Resumes goal stop)
  | broken (h : Broken stop)
  | early (hgoal : goalOf none = goal) (hwhole : whole stop = true)
      (h : ensureSchema later stop = ensureSchema later .empty)
  | torn (hwhole : whole stop = false) (h : made (ensureSchema later stop) = false)

theorem stopped_schemaV4 {stop : Db} (h : stop ∈ passed now schemaV4 .empty) :
    Stopped later (goalOf none) stop := by
  rw [← List.take_append_drop 5 (passed now schemaV4 .empty),
    ← List.take_append_drop 12 ((passed now schemaV4 .empty).drop 5), last_stop] at h
  rcases List.mem_append.mp h with hearly | h
  · have hview := List.mem_map_of_mem (f := fun db => (whole db, ensureSchema later db)) hearly
    rw [early_stops] at hview
    have heq := List.eq_of_mem_replicate hview
    exact .early rfl (congrArg Prod.fst heq) (congrArg Prod.snd heq)
  rcases List.mem_append.mp h with htorn | hlast
  · have hview := List.mem_map_of_mem (f := fun db => (whole db, made (ensureSchema later db))) htorn
    rw [torn_stops] at hview
    have heq := List.eq_of_mem_replicate hview
    exact .torn (congrArg Prod.fst heq) (congrArg Prod.snd heq)
  · rw [List.mem_singleton] at hlast
    exact .resumes ⟨6, baseLayout now, hlast, baseLayout_valid now, rfl⟩

theorem stopped_of_mem {start : Option Contents} {stop : Db}
    (h : stop ∈ stops now ensureStages (startOf start)) : Stopped later (goalOf start) stop := by
  cases start with
  | none =>
    rw [startOf, ensureStages, stops_cons rfl (runScript_schemaV4 now)] at h
    rcases List.mem_append.mp h with hbase | hlate
    · exact stopped_schemaV4 now later hbase
    · exact ((migrateToV5_settles (baseLayout_valid now) rfl).2 stop hlate).elim .resumes .broken
  | some c => exact ((ensureStages_settles c.valid rfl).2 stop h).elim .resumes .broken

end EmptyFile

/-- A database left between two statements is opened again, with the same end, exactly
    when no script was left half done. -/
theorem restart_iff_whole (now later : String) (start : Option Contents) (stop : Db)
    (hstop : stop ∈ stops now ensureStages (startOf start)) :
    (∃ db db', ensureSchema now (startOf start) = .ok db ∧ ensureSchema later stop = .ok db' ∧
      SameOutcome db db') ↔ whole stop = true := by
  obtain ⟨l, hok, hvalid, hgoal⟩ := ensureSchema_settles now start
  simp only [hok, Except.ok.injEq, exists_and_left, exists_eq_left']
  cases stopped_of_mem now later hstop with
  | resumes h =>
    refine iff_of_true ?_ (whole_of_resumes h)
    obtain ⟨version, l', rfl, hvalid', hgoal'⟩ := h
    have hsettles : Settles later ensureStages _ l'.database := ensureStages_settles hvalid' hgoal'
    obtain ⟨l'', hok', hvalid'', hgoal''⟩ := hsettles.1
    exact ⟨l''.database, hok', sameOutcome_of_goal hvalid hvalid'' (hgoal.trans hgoal''.symm)⟩
  | broken h =>
    refine iff_of_false ?_ (by simp [not_whole_of_broken h])
    rintro ⟨db, hdb, hsame⟩
    exact not_restarted_of_broken h hvalid hdb hsame
  | early hempty hwhole h =>
    refine iff_of_true ?_ hwhole
    obtain ⟨l', hok', hvalid', hgoal'⟩ := ensureSchema_settles later none
    refine ⟨l'.database, h.trans hok', sameOutcome_of_goal hvalid hvalid' ?_⟩
    rw [hgoal, hgoal', hempty]
  | torn hwhole h =>
    refine iff_of_false ?_ (by simp [hwhole])
    rintro ⟨db, hdb, hsame⟩
    rw [hdb, made, ← hsame.based, hvalid.based] at h
    cases h

section Example

/-- Two tables of the base script, and no version yet. -/
theorem early_stop_restarts :
    ∃ stop ∈ stops "2026-02-01 00:00:00" ensureStages (startOf none),
      ∃ db db', ensureSchema "2026-02-01 00:00:00" (startOf none) = .ok db ∧
        ensureSchema "2026-02-02 00:00:00" stop = .ok db' ∧ SameOutcome db db' := by
  let stop : Db := (Database.empty.setTable .l1Hot (some ⟨l1Hot, []⟩)).setTable .l2Items
    (some ⟨l2Items, []⟩)
  have hstop : stop ∈ stops "2026-02-01 00:00:00" ensureStages (startOf none) := by
    exact List.mem_cons_of_mem _ (List.mem_cons_of_mem _ (List.mem_cons_self ..))
  exact ⟨stop, hstop, (restart_iff_whole _ _ none stop hstop).mpr rfl⟩

def unsignedLayout : Layout :=
  { baseLayout "2026-01-01 00:00:00" with
    versionRow := schemaVersion.row "2026-01-01 00:00:00" [("version", .integer 5)]
    signing := 0
    removable := false
    deviceRows := some []
    devicesIndex := true }

theorem unsignedLayout_valid : Valid 5 unsignedLayout where
  version_ge := by omega
  version_le := by omega
  versionRow := rfl
  signing := .inr ⟨by omega, rfl⟩
  groups := by simp [unsignedLayout, baseLayout]
  removable := .inr (by omega)
  members := ⟨[], rfl, ⟨by simp, by simp, by simp, by simp⟩, .inl rfl⟩

def unsigned : Contents := ⟨5, unsignedLayout, unsignedLayout_valid⟩

/-- The version table without its row and the members dropped cannot be opened again;
    the first signing column alone is taken to version 7 without the others. -/
theorem half_done_scripts_stay_broken :
    let stopsOf := fun start => stops "2026-02-01 00:00:00" ensureStages (startOf start)
    let reopened := fun start n =>
      (stopsOf start)[n]?.map (ensureSchema "2026-02-02 00:00:00")
    reopened none 5 = some (.error (.schemaVersionMismatch 4 0)) ∧
      reopened none 23 = some (.error (.sqlite "no such table: group_members")) ∧
      (reopened (some unsigned) 3).map (fun r => r.toOption.map
        (fun db => (readVersion db, fullySigned db))) = some (some (.ok (some 7), false)) := by
  exact ⟨rfl, rfl, rfl⟩

end Example
end CordeliaCore.StorageSchema
