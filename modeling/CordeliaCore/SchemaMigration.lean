import CordeliaCore.SchemaLayouts

set_option autoImplicit false

namespace CordeliaCore.StorageSchema
open SqlScripts StorageRows

section Valid

/-- A database of a schema version whose rows meet the constraints. The groups of the
    base schema have the signing columns at version 4 already, and before version 7 an
    interrupted rebuild may have left its table behind. -/
structure Valid (version : ℕ) (l : Layout) : Prop where
  version_ge : 4 ≤ version
  version_le : version ≤ 7
  versionRow : l.versionRow "version" = .integer version
  signing : l.signing = 3 ∨ version ≤ 5 ∧ l.signing = 0
  groups : ∀ r ∈ l.groupRows, ∀ name ∉ (groupsTable l.signing).names, r name = .null
  removable : l.removable = true ∨ version ≤ 6
  members : ∃ rows, l.memberRows = some rows ∧ MemberRows l rows ∧
    (l.rebuiltRows = none ∨ version ≤ 6 ∧ (l.rebuiltRows = some [] ∨ l.rebuiltRows = some rows))

/-- Where the migration of a layout ends, but for the version row. -/
def Layout.destination (version : ℕ) (l : Layout) : Layout :=
  { l with
    versionRow := fun _ => .null
    signing := 3
    removable := true
    rebuiltRows := none
    deviceRows := if version = 4 then some (l.deviceRows.getD []) else l.deviceRows
    devicesIndex := version = 4 || l.devicesIndex }

/-- A stop from which the migration still ends at `goal`. -/
def Resumes (goal : Layout) (db : Db) : Prop :=
  ∃ version l, db = l.database ∧ Valid version l ∧ l.destination version = goal

/-- The stops at which a script was left half done. -/
inductive Broken : Db → Prop where
  | halfSigned (l : Layout) (hversion : l.versionRow "version" = .integer 5)
      (hsigning : l.signing = 1 ∨ l.signing = 2) : Broken l.database
  | dropped (l : Layout) (hversion : l.versionRow "version" = .integer 6)
      (hgone : l.memberRows = none) : Broken l.database

variable {version : ℕ} {l : Layout}

theorem Valid.resumes (h : Valid version l) : Resumes (l.destination version) l.database :=
  ⟨version, l, rfl, h, rfl⟩

theorem Valid.arrived (h : Valid 7 l) :
    l.destination 7 = { l with versionRow := fun _ => .null : Layout } := by
  have hsigning : l.signing = 3 := h.signing.resolve_right (by omega)
  have hremovable : l.removable = true := h.removable.resolve_right (by omega)
  have hrebuilt : l.rebuiltRows = none := by
    obtain ⟨rows, -, -, hrebuilt⟩ := h.members
    exact hrebuilt.resolve_right (by omega)
  cases l
  simp_all [Layout.destination]

theorem readVersion_database {v : ℕ} (h : l.versionRow "version" = .integer v) (hv : v < 4294967296) :
    readVersion l.database = .ok (some v) := by
  have htable : l.database.tables .schemaVersion = some ⟨schemaVersion, [l.versionRow]⟩ := rfl
  have hrange : (0 : Int) ≤ v ∧ (v : Int) < 4294967296 := by omega
  rw [readVersion, htable]
  simp only [List.head?_cons, h, if_pos hrange, Int.toNat_natCast]

theorem Valid.readVersion (h : Valid version l) :
    readVersion l.database = .ok (some version) := by
  have hle := h.version_le
  exact readVersion_database h.versionRow (by omega)

theorem hasOwnerId_database : hasOwnerId l.database = decide (1 ≤ l.signing) := by
  change (groupsTable l.signing).names.contains "owner_id" = _
  match l.signing with
  | 0 => rfl
  | n + 1 => simp [Schema.names, groupsTable, signingColumns, optional]

end Valid

section Scripts
variable (now : String)
open Database

/-- A script that takes a layout to version `after` on the way to `goal`. -/
def Advances (script : Script) (after : ℕ) (goal : Layout) (db : Db) : Prop :=
  (∃ l, runScript now script db = .ok l.database ∧ Valid after l ∧ l.destination after = goal) ∧
    ∀ stop ∈ passed now script db, Resumes goal stop ∨ Broken stop

variable {version : ℕ} {l : Layout} {goal : Layout}

theorem MemberRows.transfer {l l' : Layout} {rows : List Row} (h : MemberRows l rows)
    (hgroups : l'.groupRows = l.groupRows) (hrows : l'.rows = l.rows)
    (hremovable : l'.removable = l.removable ∨ l'.removable = true) : MemberRows l' rows := by
  refine ⟨fun r hr => ?_, h.within, h.distinct, fun r hr => ?_⟩
  · rcases hremovable with hremovable | hremovable
    · rw [hremovable]
      exact h.accepts r hr
    · rw [hremovable]
      exact membersTable_accepts (h.accepts r hr)
  · have hrefers := h.refers r hr
    simpa [Database.refers, membersTable, Layout.database, Layout.tables, hgroups, hrows]
      using hrefers

theorem Valid.bump (h : Valid version l) {after : ℕ} (hversion : after = version + 1)
    (hle : after ≤ 7) (hsigning : after = 6 → l.signing = 3)
    (harrived : after = 7 → l.removable = true ∧ l.rebuiltRows = none) :
    Valid after { l with versionRow := bumped now after l.versionRow : Layout } := by
  have hge := h.version_ge
  obtain ⟨rows, hrows, hvalid, hrebuilt⟩ := h.members
  refine ⟨by omega, hle, rfl, ?_, h.groups, ?_,
    rows, hrows, hvalid.transfer rfl rfl (.inl rfl), ?_⟩
  · by_cases h6 : after = 6
    · exact .inl (hsigning h6)
    · exact h.signing.imp_right (fun hs => ⟨by omega, hs.2⟩)
  · by_cases h7 : after = 7
    · exact .inl (harrived h7).1
    · exact .inr (by omega)
  · by_cases h7 : after = 7
    · exact .inl (harrived h7).2
    · exact hrebuilt.imp_right (fun hr => ⟨by omega, hr.2⟩)

theorem advances_nil (h : Valid version l) (hgoal : l.destination version = goal) :
    Advances now [] version goal l.database := by
  refine ⟨⟨l, rfl, h, hgoal⟩, fun stop hstop => .inl ?_⟩
  rw [passed, List.mem_singleton] at hstop
  exact ⟨version, l, hstop, h, hgoal⟩

theorem Advances.cons {now : String} {db next : Db} {s : Statement TableName IndexName}
    {script : Script} {after : ℕ} (hs : execute now db s = .ok next)
    (hstop : Resumes goal db ∨ Broken db) (hrest : Advances now script after goal next) :
    Advances now (s :: script) after goal db := by
  refine ⟨?_, fun stop h => ?_⟩
  · rw [runScript_cons hs]
    exact hrest.1
  · rw [passed_cons hs, List.mem_cons] at h
    rcases h with rfl | h
    · exact hstop
    · exact hrest.2 stop h

theorem schemaV5_advances (h : Valid 4 l) :
    Advances now schemaV5 5 (l.destination 4) l.database := by
  let l₁ : Layout := { l with deviceRows := some (l.deviceRows.getD []) }
  let l₂ : Layout := { l₁ with devicesIndex := true }
  obtain ⟨rows, hrows, hmembers, hrebuilt⟩ := h.members
  have hvalid₁ : Valid 4 l₁ :=
    { h with members := ⟨rows, hrows, hmembers.transfer rfl rfl (.inl rfl), hrebuilt⟩ }
  have hvalid₂ : Valid 4 l₂ :=
    { h with members := ⟨rows, hrows, hmembers.transfer rfl rfl (.inl rfl), hrebuilt⟩ }
  have hgoal₁ : l₁.destination 4 = l.destination 4 := by simp [Layout.destination, l₁]
  have hgoal₂ : l₂.destination 4 = l.destination 4 := by simp [Layout.destination, l₁, l₂]
  apply Advances.cons (execute_createDevices now l) (.inl h.resumes)
  apply Advances.cons (execute_createDevicesIndex now l₁ rfl) (.inl ⟨4, l₁, rfl, hvalid₁, hgoal₁⟩)
  apply Advances.cons (execute_bumpVersion now l₂ h.versionRow 5)
    (.inl ⟨4, l₂, rfl, hvalid₂, hgoal₂⟩)
  apply advances_nil now (hvalid₂.bump now rfl (by omega) (by omega) (by omega))
  simp [Layout.destination, l₁, l₂]

/-- With the signing columns there the version alone is bumped. -/
theorem bumpVersion_advances (h : Valid 5 l) (hsigning : l.signing = 3) :
    Advances now [bumpVersion 5 6] 6 (l.destination 5) l.database := by
  apply Advances.cons (execute_bumpVersion now l h.versionRow 6) (.inl h.resumes)
  apply advances_nil now (h.bump now rfl (by omega) (fun _ => hsigning) (by omega))
  simp [Layout.destination]

theorem schemaV6_advances (h : Valid 5 l) (hsigning : l.signing = 0) :
    Advances now schemaV6 6 (l.destination 5) l.database := by
  let l₁ : Layout := { l with signing := 1 }
  let l₂ : Layout := { l with signing := 2 }
  let l₃ : Layout := { l with signing := 3 }
  obtain ⟨rows, hrows, hmembers, hrebuilt⟩ := h.members
  have hnull : ∀ name, name ∉ (groupsTable 0).names → ∀ r ∈ l.groupRows, r name = .null := by
    intro name hname r hr
    exact h.groups r hr name (by rwa [hsigning])
  have hvalid₃ : Valid 5 l₃ := by
    refine ⟨h.version_ge, h.version_le, h.versionRow, .inl rfl, fun r hr name hname => ?_,
      h.removable, rows, hrows, hmembers.transfer rfl rfl (.inl rfl), hrebuilt⟩
    refine hnull name (fun hmem => hname ?_) r hr
    exact List.mem_of_mem_take (i := 6) hmem
  have hgoal₃ : l₃.destination 5 = l.destination 5 := by simp [Layout.destination, l₃]
  have hadd (n : ℕ) (c : Column) (hc : signingColumns[n]? = some c)
      (hfresh : c.name ∉ (groupsTable 0).names) :
      execute now { l with signing := n : Layout }.database (.addColumn .groups c) =
        .ok { l with signing := n + 1 : Layout }.database :=
    execute_addColumn now { l with signing := n } hc (hnull c.name hfresh)
  have hzero : l = { l with signing := 0 : Layout } := by rw [← hsigning]
  have hfirst : execute now l.database (.addColumn .groups (optional "owner_id")) =
      .ok l₁.database := by
    rw [hzero]
    exact hadd 0 _ rfl (by decide)
  apply Advances.cons hfirst (.inl h.resumes)
  apply Advances.cons (hadd 1 _ rfl (by decide)) (.inr (.halfSigned l₁ h.versionRow (.inl rfl)))
  apply Advances.cons (hadd 2 _ rfl (by decide)) (.inr (.halfSigned l₂ h.versionRow (.inr rfl)))
  apply Advances.cons (execute_bumpVersion now l₃ h.versionRow 6)
    (.inl ⟨5, l₃, rfl, hvalid₃, hgoal₃⟩)
  apply advances_nil now (hvalid₃.bump now rfl (by omega) (fun _ => rfl) (by omega))
  simp [Layout.destination, l₃]

theorem schemaV7_advances (h : Valid 6 l) :
    Advances now schemaV7 7 (l.destination 6) l.database := by
  obtain ⟨rows, hrows, hmembers, hrebuilt⟩ := h.members
  let l₁ : Layout := { l with rebuiltRows := some (l.rebuiltRows.getD []) }
  let l₂ : Layout := { l with rebuiltRows := some rows }
  let l₃ : Layout := { l₂ with memberRows := none }
  let l₄ : Layout := { l with removable := true, memberRows := some rows, rebuiltRows := none }
  have hnew : l₁.rebuiltRows = some [] ∨ l₁.rebuiltRows = some rows := by
    rcases hrebuilt with hnone | ⟨-, hsome | hsome⟩
    · simp [l₁, hnone]
    · simp [l₁, hsome]
    · simp [l₁, hsome]
  have hmembers₁ : MemberRows l₁ rows := hmembers.transfer rfl rfl (.inl rfl)
  have hvalid₁ : Valid 6 l₁ :=
    { h with members := ⟨rows, hrows, hmembers₁, .inr ⟨by omega, hnew⟩⟩ }
  have hvalid₂ : Valid 6 l₂ :=
    { h with members := ⟨rows, hrows, hmembers.transfer rfl rfl (.inl rfl),
        .inr ⟨by omega, .inr rfl⟩⟩ }
  have hvalid₄ : Valid 6 l₄ :=
    { h with
      removable := .inl rfl
      members := ⟨rows, rfl, hmembers.transfer rfl rfl (.inr rfl), .inl rfl⟩ }
  have hgoal₁ : l₁.destination 6 = l.destination 6 := by simp [Layout.destination, l₁]
  have hgoal₂ : l₂.destination 6 = l.destination 6 := by simp [Layout.destination, l₂]
  have hgoal₄ : l₄.destination 6 = l.destination 6 := by simp [Layout.destination, l₄, hrows]
  apply Advances.cons (execute_createRebuilt now l) (.inl h.resumes)
  apply Advances.cons (execute_copyMembers now l₁ hrows hmembers₁ hnew)
    (.inl ⟨6, l₁, rfl, hvalid₁, hgoal₁⟩)
  apply Advances.cons (execute_dropMembers now l₂ hrows) (.inl ⟨6, l₂, rfl, hvalid₂, hgoal₂⟩)
  apply Advances.cons (execute_renameRebuilt now l₃ rfl rfl)
    (.inr (.dropped l₃ h.versionRow rfl))
  apply Advances.cons (execute_bumpVersion now l₄ h.versionRow 7)
    (.inl ⟨6, l₄, rfl, hvalid₄, hgoal₄⟩)
  apply advances_nil now (hvalid₄.bump now rfl (by omega) (by omega) (fun _ => ⟨rfl, rfl⟩))
  simp [Layout.destination, l₄, hrows]

end Scripts

section Stages
variable {now : String} {version : ℕ} {l goal : Layout}
  {stages : List (Stage TableName IndexName StorageError)}
open Database

/-- Stages that end at `goal` and on their way only pass stops of the two kinds. -/
def Settles (now : String) (stages : List (Stage TableName IndexName StorageError))
    (goal : Layout) (db : Db) : Prop :=
  (∃ l, migrate sqliteError now stages db = .ok l.database ∧ Valid 7 l ∧ l.destination 7 = goal) ∧
    ∀ stop ∈ stops now stages db, Resumes goal stop ∨ Broken stop

theorem settles_cons {stage : Stage TableName IndexName StorageError} {script : Script} {db : Db}
    {after : ℕ} (hpick : stage db = .ok script) (hscript : Advances now script after goal db)
    (hrest : ∀ l, Valid after l → l.destination after = goal → Settles now stages goal l.database) :
    Settles now (stage :: stages) goal db := by
  obtain ⟨⟨l, hrun, hvalid, hgoal⟩, hpassed⟩ := hscript
  obtain ⟨hend, hstops⟩ := hrest l hvalid hgoal
  refine ⟨?_, fun stop hstop => ?_⟩
  · rw [migrate_cons hpick hrun]
    exact hend
  · rw [stops_cons hpick hrun, List.mem_append] at hstop
    exact hstop.elim (hpassed stop) (hstops stop)

theorem migrateToV7_settles (h : Valid version l) (hge : 6 ≤ version)
    (hgoal : l.destination version = goal) : Settles now [migrateToV7] goal l.database := by
  have hle := h.version_le
  have hdone : ∀ l, Valid 7 l → l.destination 7 = goal → Settles now [] goal l.database := by
    intro l hl hlgoal
    refine ⟨⟨l, rfl, hl, hlgoal⟩, fun stop hstop => .inl ?_⟩
    rw [stops, List.mem_singleton] at hstop
    exact ⟨7, l, hstop, hl, hlgoal⟩
  have hpick : migrateToV7 l.database = .ok (if version = 6 then schemaV7 else []) := by
    rw [migrateToV7, rereadVersion, h.readVersion]
    rfl
  obtain rfl | rfl : version = 6 ∨ version = 7 := by omega
  · exact settles_cons hpick (hgoal ▸ schemaV7_advances now h) hdone
  · exact settles_cons hpick (advances_nil now h hgoal) hdone

theorem migrateToV6_settles (h : Valid version l) (hge : 5 ≤ version)
    (hgoal : l.destination version = goal) :
    Settles now [migrateToV6, migrateToV7] goal l.database := by
  have hrest (v : ℕ) (hv : 6 ≤ v) (l : Layout) (hl : Valid v l) (hlgoal : l.destination v = goal) :
      Settles now [migrateToV7] goal l.database := migrateToV7_settles hl hv hlgoal
  have hpick : migrateToV6 l.database = .ok (if version = 5 then
      if hasOwnerId l.database then [bumpVersion 5 6] else schemaV6 else []) := by
    rw [migrateToV6, rereadVersion, h.readVersion]
    rfl
  rw [hasOwnerId_database] at hpick
  by_cases hfive : version = 5
  · subst hfive
    rcases h.signing with hsigning | ⟨-, hsigning⟩
    · rw [hsigning] at hpick
      exact settles_cons hpick (hgoal ▸ bumpVersion_advances now h hsigning) (hrest 6 (by omega))
    · rw [hsigning] at hpick
      exact settles_cons hpick (hgoal ▸ schemaV6_advances now h hsigning) (hrest 6 (by omega))
  · rw [if_neg hfive] at hpick
    exact settles_cons hpick (advances_nil now h hgoal) (hrest version (by omega))

theorem migrateToV5_settles (h : Valid version l) (hgoal : l.destination version = goal) :
    Settles now [migrateToV5, migrateToV6, migrateToV7] goal l.database := by
  have hge := h.version_ge
  have hpick : migrateToV5 l.database = .ok (if version = 4 then schemaV5 else []) := by
    rw [migrateToV5, h.readVersion]
    change (if version < 4 then _ else _) = _
    rw [if_neg (by omega)]
    rfl
  have hrest (v : ℕ) (hv : 5 ≤ v) (l : Layout) (hl : Valid v l) (hlgoal : l.destination v = goal) :
      Settles now [migrateToV6, migrateToV7] goal l.database := migrateToV6_settles hl hv hlgoal
  by_cases hfour : version = 4
  · subst hfour
    exact settles_cons hpick (hgoal ▸ schemaV5_advances now h) (hrest 5 (by omega))
  · rw [if_neg hfour] at hpick
    exact settles_cons hpick (advances_nil now h hgoal) (hrest version (by omega))

theorem ensureStages_settles (h : Valid version l) (hgoal : l.destination version = goal) :
    Settles now ensureStages goal l.database :=
  settles_cons rfl (advances_nil now h hgoal) (fun _ hl hlgoal => migrateToV5_settles hl hlgoal)

end Stages

section EmptyFile
variable (now : String)
open Database

def baseLayout : Layout where
  versionRow := schemaVersion.row now [("version", .integer 6)]
  rows := fun _ => []
  signing := 3
  groupRows := []
  removable := true
  memberRows := some []
  rebuiltRows := none
  deviceRows := none
  devicesIndex := false

theorem baseLayout_valid : Valid 6 (baseLayout now) where
  version_ge := by omega
  version_le := by omega
  versionRow := rfl
  signing := .inl rfl
  groups := by simp [baseLayout]
  removable := .inl rfl
  members := ⟨[], rfl, ⟨by simp, by simp, by simp, by simp⟩, .inl rfl⟩

theorem runScript_schemaV4 :
    runScript now schemaV4 (.empty : Db) = .ok (baseLayout now).database := by
  change Except.ok _ = _
  refine congrArg Except.ok (database_ext (fun name => ?_) (fun name => ?_))
  · cases name <;> rfl
  · cases name <;> rfl

theorem ensureSchema_empty : ensureSchema now .empty =
    migrate sqliteError now [migrateToV5, migrateToV6, migrateToV7] (baseLayout now).database :=
  migrate_cons rfl (runScript_schemaV4 now)

end EmptyFile

section Opening

/-- The contents of a database of schema version 4 to 7. -/
structure Contents where
  version : ℕ
  layout : Layout
  valid : Valid version layout

def startOf : Option Contents → Db
  | none => .empty
  | some c => c.layout.database

def goalOf : Option Contents → Layout
  | none => (baseLayout "").destination 6
  | some c => c.layout.destination c.version

/-- Every database that `open` accepts is migrated to its destination. -/
theorem ensureSchema_settles (now : String) (start : Option Contents) :
    ∃ l, ensureSchema now (startOf start) = .ok l.database ∧ Valid 7 l ∧
      l.destination 7 = goalOf start := by
  cases start with
  | none =>
    change ∃ l, ensureSchema now .empty = _ ∧ _
    rw [ensureSchema_empty]
    exact (migrateToV5_settles (baseLayout_valid now) rfl).1
  | some c => exact (ensureStages_settles c.valid rfl).1

def usedTables : List TableName :=
  [.l1Hot, .l2Items, .l2Index, .l2Fts, .groups, .groupMembers, .accessLog, .devices]

def currentSchema : TableName → Schema TableName
  | .l1Hot => l1Hot
  | .l2Items => l2Items
  | .l2Index => l2Index
  | .audit => audit
  | .schemaVersion => schemaVersion
  | .l2Fts => l2Fts
  | .embeddingCache => embeddingCache
  | .integrityCanary => integrityCanary
  | .groups => groupsTable 3
  | .groupMembers | .groupMembersNew => membersTable true
  | .accessLog => accessLog
  | .devices => devices

def Complete (db : Db) : Prop :=
  readVersion db = .ok (some 7) ∧
    ∀ name ∈ usedTables, (db.tables name).map Table.schema = some (currentSchema name)

def Keeps (db db' : Db) : Prop :=
  ∀ name ∈ [TableName.l1Hot, .l2Items, .groups, .groupMembers, .devices],
    ∀ t, db.tables name = some t → ∃ t', db'.tables name = some t' ∧ t'.rows = t.rows

/-- The start has a devices table or goes through the script that makes one. -/
def getsDevices : Option Contents → Bool
  | none => false
  | some c => c.version = 4 || c.layout.deviceRows.isSome

theorem goalOf_deviceRows (start : Option Contents) :
    (goalOf start).deviceRows.isSome = getsDevices start := by
  cases start with
  | none => rfl
  | some c =>
    change (if c.version = 4 then some _ else _).isSome = (decide (c.version = 4) || _)
    by_cases hfour : c.version = 4 <;> simp [hfour]

theorem keeps_goal (start : Option Contents) : Keeps (startOf start) (goalOf start).database := by
  cases start with
  | none =>
    intro name _ t ht
    cases ht
  | some c =>
    intro name hname t ht
    simp only [List.mem_cons, List.not_mem_nil, or_false] at hname
    rcases hname with rfl | rfl | rfl | rfl | rfl
    · exact ⟨t, ht, rfl⟩
    · exact ⟨t, ht, rfl⟩
    · refine ⟨⟨groupsTable 3, c.layout.groupRows⟩, rfl, ?_⟩
      cases ht
      rfl
    · obtain ⟨rows, hrows, rfl⟩ := Option.map_eq_some_iff.mp ht
      refine ⟨⟨membersTable true, rows⟩, ?_, rfl⟩
      change c.layout.memberRows.map _ = _
      rw [hrows]
      rfl
    · obtain ⟨rows, hrows, rfl⟩ := Option.map_eq_some_iff.mp ht
      refine ⟨⟨devices, rows⟩, ?_, rfl⟩
      change (if c.version = 4 then some (c.layout.deviceRows.getD []) else
        c.layout.deviceRows).map _ = _
      rw [hrows]
      split <;> rfl

theorem Valid.tables_eq {l goal : Layout} (h : Valid 7 l) (hgoal : l.destination 7 = goal)
    {name : TableName} (hname : name ≠ .schemaVersion) :
    l.database.tables name = goal.database.tables name := by
  rw [← hgoal, h.arrived]
  cases name <;> first | rfl | exact absurd rfl hname

/-- Opening migrates a database completely exactly when it has a devices table or is
    of version 4. -/
theorem opened_completely_iff (now : String) (start : Option Contents) :
    (∃ db, ensureSchema now (startOf start) = .ok db ∧ Complete db ∧ Keeps (startOf start) db) ↔
      getsDevices start = true := by
  obtain ⟨l, hok, hvalid, hgoal⟩ := ensureSchema_settles now start
  have hdevices : l.deviceRows.isSome = getsDevices start := by
    rw [← goalOf_deviceRows, ← hgoal]
    rfl
  rw [← hdevices]
  constructor
  · rintro ⟨db, hdb, hcomplete, -⟩
    cases hok.symm.trans hdb
    have hschema := hcomplete.2 .devices (by decide)
    change (l.deviceRows.map _).map _ = _ at hschema
    cases hrows : l.deviceRows with
    | some rows => rfl
    | none =>
      rw [hrows] at hschema
      cases hschema
  · intro hsome
    refine ⟨l.database, hok, ⟨hvalid.readVersion, fun name hname => ?_⟩, ?_⟩
    · obtain ⟨rows, hrows⟩ := Option.isSome_iff_exists.mp hsome
      obtain ⟨members, hmembers, -⟩ := hvalid.members
      have hsigning : l.signing = 3 := hvalid.signing.resolve_right (by omega)
      have hremovable : l.removable = true := hvalid.removable.resolve_right (by omega)
      simp only [usedTables, List.mem_cons, List.not_mem_nil, or_false] at hname
      rcases hname with rfl | rfl | rfl | rfl | rfl | rfl | rfl | rfl <;>
        simp [Layout.database, Layout.tables, currentSchema, hrows, hmembers, hsigning, hremovable]
    · intro name hname t ht
      obtain ⟨t', ht', hrows⟩ := keeps_goal start name hname t ht
      refine ⟨t', ?_, hrows⟩
      rw [hvalid.tables_eq hgoal]
      · exact ht'
      · rintro rfl
        simp at hname

/-- An empty file ends at version 7 without a devices table. -/
theorem empty_file_lacks_devices :
    ∃ db, ensureSchema "2026-02-01 00:00:00" (startOf none) = .ok db ∧
      readVersion db = .ok (some 7) ∧ db.tables .devices = none ∧ ¬ Complete db := by
  refine ⟨_, rfl, rfl, rfl, fun hcomplete => ?_⟩
  have hschema := hcomplete.2 .devices (by decide)
  cases hschema

end Opening
end CordeliaCore.StorageSchema
