import Mathlib.Data.List.Basic
import Mathlib.Logic.Function.Basic

set_option autoImplicit false

/-!
# SQL scripts

Tables with declared columns, the statements that create, fill and alter them, and
scripts whose statements commit one by one. A migration runs a list of stages; each
stage looks at the database and picks its script. Tables are named by `ν`, indexes
by `ι`.
-/
namespace SqlScripts

inductive Value where
  | null
  | integer (n : Int)
  | text (s : String)
  | blob (bytes : List UInt8)
deriving DecidableEq, Repr

/-- The values of a row by column; `null` at names that are no column. -/
abbrev Row := String → Value

inductive Expr where
  | literal (v : Value)
  | datetimeNow
deriving DecidableEq, Repr

def Expr.eval (now : String) : Expr → Value
  | .literal v => v
  | .datetimeNow => .text now

/-- `allowed` is the list of a `CHECK (name IN ..)`, empty when there is none. -/
structure Column where
  name : String
  notNull : Bool := false
  default : Expr := .literal .null
  allowed : List Value := []
deriving DecidableEq, Repr

/-- A `CHECK` that evaluates to `NULL` passes. -/
def Column.accepts (c : Column) (v : Value) : Bool :=
  if v = .null then !c.notNull else c.allowed.isEmpty || c.allowed.contains v

structure ForeignKey (ν : Type) where
  column : String
  table : ν
  key : String
deriving DecidableEq, Repr

structure Schema (ν : Type) where
  columns : List Column
  primaryKey : List String := []
  foreignKeys : List (ForeignKey ν) := []
deriving DecidableEq, Repr

structure Table (ν : Type) where
  schema : Schema ν
  rows : List Row

structure Index (ν : Type) where
  table : ν
  column : String
  whereNotNull : Bool := false
deriving DecidableEq, Repr

structure Database (ν ι : Type) where
  tables : ν → Option (Table ν)
  indexes : ι → Option (Index ν)

section Rows
variable {ν : Type}

def Schema.names (s : Schema ν) : List String := s.columns.map Column.name

def Schema.accepts (s : Schema ν) (r : Row) : Bool := s.columns.all (fun c => c.accepts (r c.name))

/-- Two rows of one primary key; `NULL` equals nothing. -/
def Schema.conflicts (s : Schema ν) (r r' : Row) : Bool :=
  !s.primaryKey.isEmpty && s.primaryKey.all (fun k => r k ≠ .null && r k = r' k)

/-- The row of an insert that gives these values; the other columns take their defaults. -/
def Schema.row (s : Schema ν) (now : String) (values : List (String × Value)) : Row :=
  fun name => (values.lookup name).getD
    (((s.columns.find? (fun c => c.name = name)).map (fun c => c.default.eval now)).getD .null)

def Schema.insertOrIgnore (s : Schema ν) (rows : List Row) (r : Row) : List Row :=
  if s.accepts r && !rows.any (s.conflicts r) then rows ++ [r] else rows

def project (names : List String) (r : Row) : Row :=
  fun name => if names.contains name then r name else .null

def assign (now : String) (values : List (String × Expr)) (r : Row) : Row :=
  fun name => ((values.lookup name).map (Expr.eval now)).getD (r name)

theorem project_eq_self {names : List String} {r : Row} (h : ∀ name ∉ names, r name = .null) :
    project names r = r := by
  funext name
  by_cases hname : name ∈ names
  · simp [project, hname]
  · simp [project, hname, h name hname]

theorem Schema.foldl_insertOrIgnore_fresh (s : Schema ν) {rows done : List Row}
    (haccepts : ∀ r ∈ rows, s.accepts r = true)
    (hdistinct : (done ++ rows).Pairwise (fun r r' => s.conflicts r' r = false)) :
    rows.foldl s.insertOrIgnore done = done ++ rows := by
  induction rows generalizing done with
  | nil => simp
  | cons r rows ih =>
    have hfree : done.any (s.conflicts r) = false := by
      rw [List.pairwise_append] at hdistinct
      simpa using fun r' hr' => hdistinct.2.2 r' hr' r (by simp)
    have hstep : s.insertOrIgnore done r = done ++ [r] := by
      simp [Schema.insertOrIgnore, haccepts r, hfree]
    rw [List.append_cons] at hdistinct
    rw [List.foldl_cons, hstep, ih (fun r' hr' => haccepts r' (by simp [hr'])) hdistinct]
    simp

theorem Schema.foldl_insertOrIgnore_present (s : Schema ν) {rows done : List Row}
    (hpresent : ∀ r ∈ rows, done.any (s.conflicts r) = true) :
    rows.foldl s.insertOrIgnore done = done := by
  induction rows with
  | nil => rfl
  | cons r rows ih =>
    have hstep : s.insertOrIgnore done r = done := by
      simp [Schema.insertOrIgnore, hpresent r]
    rw [List.foldl_cons, hstep, ih (fun r' hr' => hpresent r' (by simp [hr']))]

end Rows

/-- `createTable` and `createIndex` are the forms with `IF NOT EXISTS`. The columns of
    `insertOrIgnoreSelect` have the same names in both tables, in the target's order. -/
inductive Statement (ν ι : Type) where
  | createTable (name : ν) (schema : Schema ν)
  | createIndex (name : ι) (index : Index ν)
  | insert (table : ν) (values : List (String × Value))
  | insertOrIgnoreSelect (target : ν) (columns : List String) (source : ν)
  | update (table : ν) (values : List (String × Expr)) (column : String) (equals : Value)
  | addColumn (table : ν) (column : Column)
  | dropTable (name : ν)
  | renameTable (old new : ν)

def Statement.writes {ν ι : Type} : Statement ν ι → List ν
  | .createTable name _ | .insert name _ | .update name _ _ _ | .addColumn name _
  | .dropTable name => [name]
  | .createIndex _ _ => []
  | .insertOrIgnoreSelect target _ _ => [target]
  | .renameTable old new => [old, new]

inductive SqlError (ν : Type) where
  | noSuchTable (name : ν)
  | tableExists (name : ν)
  | duplicateColumn (name : String)
  | constraintFailed (name : ν)
deriving DecidableEq, Repr

section Execute
variable {ν ι : Type} [DecidableEq ν] [DecidableEq ι]

namespace Database

def empty : Database ν ι := ⟨fun _ => none, fun _ => none⟩

def setTable (db : Database ν ι) (name : ν) (t : Option (Table ν)) : Database ν ι :=
  { db with tables := Function.update db.tables name t }

/-- Every foreign key of the row is `NULL` or the key of a row of its parent. -/
def refers (db : Database ν ι) (s : Schema ν) (r : Row) : Bool :=
  s.foreignKeys.all (fun fk => r fk.column = .null ||
    (db.tables fk.table).any (fun parent => parent.rows.any (fun p => p fk.key = r fk.column)))

def writeRows (db : Database ν ι) (name : ν) (t : Table ν) (rows : List Row) :
    Except (SqlError ν) (Database ν ι) :=
  if rows.all (fun r => t.schema.accepts r && db.refers t.schema r) then
    .ok (db.setTable name (some ⟨t.schema, rows⟩))
  else .error (.constraintFailed name)

/-- One statement, with the clock at `now`. No script drops a table that another
    refers to, or renames an indexed one. -/
def execute (now : String) (db : Database ν ι) :
    Statement ν ι → Except (SqlError ν) (Database ν ι)
  | .createTable name schema =>
    match db.tables name with
    | some _ => .ok db
    | none => .ok (db.setTable name (some ⟨schema, []⟩))
  | .createIndex name index =>
    match db.indexes name, db.tables index.table with
    | some _, _ => .ok db
    | none, some _ => .ok { db with indexes := Function.update db.indexes name (some index) }
    | none, none => .error (.noSuchTable index.table)
  | .insert name values =>
    match db.tables name with
    | some t =>
      let r := t.schema.row now values
      if t.rows.any (t.schema.conflicts r) then .error (.constraintFailed name)
      else db.writeRows name t (t.rows ++ [r])
    | none => .error (.noSuchTable name)
  | .insertOrIgnoreSelect target columns source =>
    match db.tables target, db.tables source with
    | some t, some s =>
      db.writeRows target t ((s.rows.map (project columns)).foldl t.schema.insertOrIgnore t.rows)
    | none, _ => .error (.noSuchTable target)
    | some _, none => .error (.noSuchTable source)
  | .update name values column equals =>
    match db.tables name with
    | some t =>
      db.writeRows name t (t.rows.map (fun r => if r column = equals then assign now values r else r))
    | none => .error (.noSuchTable name)
  | .addColumn name column =>
    match db.tables name with
    | some t =>
      if t.schema.names.contains column.name then .error (.duplicateColumn column.name)
      else .ok (db.setTable name (some
        ⟨{ t.schema with columns := t.schema.columns ++ [column] },
          t.rows.map (fun r => Function.update r column.name (column.default.eval now))⟩))
    | none => .error (.noSuchTable name)
  | .dropTable name =>
    match db.tables name with
    | some _ => .ok ⟨Function.update db.tables name none,
        fun i => (db.indexes i).filter (fun index => index.table ≠ name)⟩
    | none => .error (.noSuchTable name)
  | .renameTable old new =>
    match db.tables old, db.tables new with
    | some t, none => .ok ((db.setTable old none).setTable new (some t))
    | some _, some _ => .error (.tableExists new)
    | none, _ => .error (.noSuchTable old)

def runScript (now : String) :
    List (Statement ν ι) → Database ν ι → Except (SqlError ν) (Database ν ι)
  | [], db => .ok db
  | s :: script, db => (execute now db s).bind (runScript now script)

/-- The databases a script leaves on disk: before it, and after each statement. -/
def passed (now : String) : List (Statement ν ι) → Database ν ι → List (Database ν ι)
  | [], db => [db]
  | s :: script, db => db ::
    match execute now db s with
    | .ok next => passed now script next
    | .error _ => []

section Scripts
variable {now : String} {db next : Database ν ι} {s : Statement ν ι} {script : List (Statement ν ι)}

theorem runScript_cons (h : execute now db s = .ok next) :
    runScript now (s :: script) db = runScript now script next := by
  rw [runScript, h]
  rfl

theorem runScript_of_failed {e : SqlError ν} (h : execute now db s = .error e) :
    runScript now (s :: script) db = .error e := by
  rw [runScript, h]
  rfl

theorem execute_select_missing {target source : ν} {columns : List String} {t : Table ν}
    (htarget : db.tables target = some t) (hsource : db.tables source = none) :
    execute now db (.insertOrIgnoreSelect target columns source) = .error (.noSuchTable source) := by
  rw [execute, htarget, hsource]

theorem passed_cons (h : execute now db s = .ok next) :
    passed now (s :: script) db = db :: passed now script next := by
  rw [passed, h]

omit [DecidableEq ι] in
theorem setTable_tables_of_ne {name other : ν} {t : Option (Table ν)} (h : other ≠ name) :
    (db.setTable name t).tables other = db.tables other := by
  simp [setTable, h]

omit [DecidableEq ι] in
theorem writeRows_tables {name other : ν} {t : Table ν} {rows : List Row} (hne : other ≠ name)
    (h : db.writeRows name t rows = .ok next) : next.tables other = db.tables other := by
  rw [writeRows] at h
  split_ifs at h
  cases h
  exact setTable_tables_of_ne hne

theorem execute_tables {name : ν} (hname : name ∉ s.writes) (h : execute now db s = .ok next) :
    next.tables name = db.tables name := by
  cases s with
  | createTable other schema =>
    simp only [Statement.writes, List.mem_singleton] at hname
    rw [execute] at h
    split at h <;> cases h
    · rfl
    · exact setTable_tables_of_ne hname
  | createIndex i index =>
    rw [execute] at h
    split at h <;> cases h <;> rfl
  | insert other values =>
    simp only [Statement.writes, List.mem_singleton] at hname
    rw [execute] at h
    split at h
    · dsimp only at h
      split_ifs at h
      exact writeRows_tables hname h
    · cases h
  | insertOrIgnoreSelect target columns source =>
    simp only [Statement.writes, List.mem_singleton] at hname
    rw [execute] at h
    split at h
    · exact writeRows_tables hname h
    · cases h
    · cases h
  | update other values column equals =>
    simp only [Statement.writes, List.mem_singleton] at hname
    rw [execute] at h
    split at h
    · exact writeRows_tables hname h
    · cases h
  | addColumn other column =>
    simp only [Statement.writes, List.mem_singleton] at hname
    rw [execute] at h
    split at h
    · split_ifs at h
      cases h
      exact setTable_tables_of_ne hname
    · cases h
  | dropTable other =>
    simp only [Statement.writes, List.mem_singleton] at hname
    rw [execute] at h
    split at h
    · cases h
      simp [hname]
    · cases h
  | renameTable old new =>
    simp only [Statement.writes, List.mem_cons, List.not_mem_nil, or_false, not_or] at hname
    rw [execute] at h
    split at h
    · cases h
      rw [setTable_tables_of_ne hname.2, setTable_tables_of_ne hname.1]
    · cases h
    · cases h

theorem runScript_tables {name : ν} (hname : ∀ s ∈ script, name ∉ s.writes)
    (h : runScript now script db = .ok next) : next.tables name = db.tables name := by
  induction script generalizing db with
  | nil =>
    cases h
    rfl
  | cons s script ih =>
    rw [runScript] at h
    cases hs : execute now db s with
    | error e =>
      rw [hs] at h
      cases h
    | ok middle =>
      rw [hs] at h
      rw [ih (fun t ht => hname t (by simp [ht])) h, execute_tables (hname s (by simp)) hs]

end Scripts
end Database

/-- A script picked by looking at the database, or a refusal to go on. -/
abbrev Stage (ν ι ε : Type) := Database ν ι → Except ε (List (Statement ν ι))

variable {ε : Type} (wrap : SqlError ν → ε)

def migrate (now : String) : List (Stage ν ι ε) → Database ν ι → Except ε (Database ν ι)
  | [], db => .ok db
  | stage :: stages, db =>
    (stage db).bind (fun script =>
      ((db.runScript now script).mapError wrap).bind (migrate now stages))

def stops (now : String) : List (Stage ν ι ε) → Database ν ι → List (Database ν ι)
  | [], db => [db]
  | stage :: stages, db =>
    match stage db with
    | .error _ => [db]
    | .ok script => db.passed now script ++
      match db.runScript now script with
      | .ok next => stops now stages next
      | .error _ => []

section Stages
variable {wrap} {now : String} {db next : Database ν ι} {stage : Stage ν ι ε}
  {stages : List (Stage ν ι ε)} {script : List (Statement ν ι)}

theorem migrate_cons (hpick : stage db = .ok script) (hrun : db.runScript now script = .ok next) :
    migrate wrap now (stage :: stages) db = migrate wrap now stages next := by
  rw [migrate, hpick]
  change ((db.runScript now script).mapError wrap).bind _ = _
  rw [hrun]
  rfl

theorem migrate_of_failed {e : SqlError ν} (hpick : stage db = .ok script)
    (hrun : db.runScript now script = .error e) :
    migrate wrap now (stage :: stages) db = .error (wrap e) := by
  rw [migrate, hpick]
  change ((db.runScript now script).mapError wrap).bind _ = _
  rw [hrun]
  rfl

theorem stops_cons (hpick : stage db = .ok script) (hrun : db.runScript now script = .ok next) :
    stops now (stage :: stages) db = db.passed now script ++ stops now stages next := by
  rw [stops, hpick]
  simp only [hrun]

end Stages

end Execute
end SqlScripts
