import CordeliaCore.ApiEffect
import CordeliaCore.DescriptorEffect

set_option autoImplicit false

/-!
# The list of shared groups

The groups table and the list of groups that replicate are written by the API,
by the swarm task and at start-up. A handler writes the table first and the list
later, so its second half is kept as a task that anything can run before.
-/
namespace CordeliaCore.GroupRegistry
open CryptoPrimitives ProtocolMessages StorageRows StorageSqlite KeyedTable StepRuns
open SqliteStorage Swarm Api

section Startup
variable {σ : Type} [Storage σ]

def seededCulture : String := "\x7b\"broadcast_eagerness\":\"chatty\"\x7d"

/-- A failed write is logged and the next group seeded. -/
def seedGroup (now : String) (storage : σ) (groupId : String) : σ :=
  if (Storage.readGroup storage groupId).toOption.join.isSome then storage
  else (Storage.writeGroup storage now groupId groupId seededCulture "{}").toOption.getD storage

def seedGroups (now : String) (storage : σ) (groups : List String) : σ :=
  groups.foldl (seedGroup now) storage

def initialGroups (storage : σ) : List String :=
  ((Storage.listGroups storage).toOption.getD []).map GroupRow.id

end Startup

inductive Task where
  | add (groupId : String)
  | tombstone (groupId : String)
  | remove (groupId : String)
deriving DecidableEq

/-- `merging` collects the tombstoned groups of the exchange in progress, and
    `created` the groups ever created by the API. -/
structure Registry where
  storage : SqliteStorage
  sharedGroups : List String
  tasks : List Task
  merging : List String
  created : List String

inductive Event where
  | createWrites (now : String) (req : GroupCreateRequest)
  | deleteReads (groupId : String)
  | runs (now : String) (task : Task)
  | mergeOne (now : String) (desc : GroupDescriptor)
  | mergeEnds
  | restart (now : String)

section Step
variable [Sha256]

def addShared (groups : List String) (groupId : String) : List String :=
  if groups.contains groupId then groups else groups ++ [groupId]

def runTask (s : Registry) (now : String) : Task → Registry
  | .add groupId =>
    { s with
      sharedGroups := addShared s.sharedGroups groupId
      tasks := s.tasks.erase (.add groupId) }
  | .tombstone groupId =>
    { s with
      storage := removeMembers (s.storage.writeGroup now groupId groupId groupTombstoneCulture "{}")
        groupId
      tasks := s.tasks.erase (.tombstone groupId) ++ [.remove groupId] }
  | .remove groupId =>
    { s with
      sharedGroups := s.sharedGroups.filter (· ≠ groupId)
      tasks := s.tasks.erase (.remove groupId) }

/-- A restart drops every task and reads the list from the table. -/
def restart (configGroups : List String) (s : Registry) (now : String) : Registry :=
  let seeded := seedGroups now s.storage configGroups
  ⟨seeded, initialGroups seeded, [], [], s.created⟩

variable [Ed25519] (configGroups : List String)

def step (s : Registry) : Event → Registry
  | .createWrites now req =>
    { s with
      storage := s.storage.writeGroup now req.groupId req.name req.culture req.securityPolicy
      tasks := s.tasks ++ [.add req.groupId]
      created := s.created ++ [req.groupId] }
  | .deleteReads groupId =>
    if (s.storage.groups.lookup groupId).isSome then
      { s with tasks := s.tasks ++ [.tombstone groupId] }
    else s
  | .runs now task => if task ∈ s.tasks then runTask s now task else s
  | .mergeOne now desc =>
    let (result, storage) := mergeDescriptor s.storage now desc
    { s with storage := storage, merging := s.merging ++ result.tombstoned }
  | .mergeEnds =>
    { s with sharedGroups := s.sharedGroups.filter (· ∉ s.merging), merging := [] }
  | .restart now => restart configGroups s now

theorem step_runs_of_mem {s : Registry} {task : Task} (h : task ∈ s.tasks) (now : String) :
    step configGroups s (.runs now task) = runTask s now task :=
  if_pos h

theorem step_runs_of_not_mem {s : Registry} {task : Task} (h : task ∉ s.tasks) (now : String) :
    step configGroups s (.runs now task) = s :=
  if_neg h

theorem step_deleteReads_of_absent {s : Registry} {groupId : String}
    (h : ¬ (s.storage.groups.lookup groupId).isSome) :
    step configGroups s (.deleteReads groupId) = s :=
  if_neg h

theorem step_deleteReads_of_exists {s : Registry} {groupId : String}
    (h : (s.storage.groups.lookup groupId).isSome) :
    step configGroups s (.deleteReads groupId) =
      { s with tasks := s.tasks ++ [.tombstone groupId] } :=
  if_pos h

def start (now : String) : Registry := restart configGroups ⟨createNew, [], [], [], []⟩ now

end Step

section Handlers
variable [Sha256] [Ed25519] (configGroups : List String) (s : Registry)

def appState (app : AppState SqliteStorage) : AppState SqliteStorage :=
  { app with storage := s.storage, sharedGroups := some s.sharedGroups }

/-- Both halves of a create back to back are a call of `groups_create`. -/
theorem groupsCreate_is_run (app : AppState SqliteStorage) (authorization : Option String)
    (now : String) (req : GroupCreateRequest)
    (hauth : checkAuth (appState s app) authorization = none) :
    let final := run (step configGroups) s
      [.createWrites now req, .runs now (.add req.groupId)]
    let called := (groupsCreate (appState s app) authorization now req).2
    called.storage = final.storage ∧ called.sharedGroups = some final.sharedGroups := by
  have hmem : Task.add req.groupId ∈ (step configGroups s (.createWrites now req)).tasks :=
    List.mem_append_right _ (List.mem_singleton.mpr rfl)
  unfold groupsCreate
  rw [hauth, run_cons, run_cons, run_nil, step_runs_of_mem configGroups hmem]
  exact ⟨rfl, rfl⟩

/-- The three parts of a delete back to back are a call of `groups_delete`. -/
theorem groupsDelete_is_run (app : AppState SqliteStorage) (authorization : Option String)
    (now groupId : String) (hauth : checkAuth (appState s app) authorization = none)
    (hexists : (s.storage.groups.lookup groupId).isSome) :
    let final := run (step configGroups) s
      [.deleteReads groupId, .runs now (.tombstone groupId), .runs now (.remove groupId)]
    let called := (groupsDelete (appState s app) authorization now groupId).2
    called.storage.groups = final.storage.groups ∧
      called.sharedGroups = some final.sharedGroups := by
  let reading : Registry := { s with tasks := s.tasks ++ [.tombstone groupId] }
  have hmem : Task.tombstone groupId ∈ reading.tasks :=
    List.mem_append_right _ (List.mem_singleton.mpr rfl)
  have hnext : Task.remove groupId ∈ (runTask reading now (.tombstone groupId)).tasks :=
    List.mem_append_right _ (List.mem_singleton.mpr rfl)
  have hfinal : run (step configGroups) s
      [.deleteReads groupId, .runs now (.tombstone groupId), .runs now (.remove groupId)] =
      runTask (runTask reading now (.tombstone groupId)) now (.remove groupId) := by
    rw [run_cons, run_cons, run_cons, run_nil, step_deleteReads_of_exists configGroups hexists,
      step_runs_of_mem configGroups hmem, step_runs_of_mem configGroups hnext]
  obtain ⟨row, hrow⟩ := Option.isSome_iff_exists.mp hexists
  have hread : (appState s app).storage.groups.lookup groupId = some row := hrow
  rw [hfinal]
  constructor
  · rw [groupsDelete_groups, hauth, hread, if_pos ⟨rfl, rfl⟩]
    exact (removeMembers_groups _ _).symm
  · unfold groupsDelete
    rw [hauth]
    dsimp only
    rw [readGroup_ok, hread, writeGroup_ok]
    rfl

/-- The descriptors of an exchange merged one by one are a call of `merge_descriptors`. -/
theorem mergeDescriptors_is_run (descriptors : List (String × GroupDescriptor)) :
    run (step configGroups) s (descriptors.map (fun d => .mergeOne d.1 d.2)) =
      { s with
        storage := (mergeDescriptors s.storage descriptors).2
        merging := s.merging ++ (mergeDescriptors s.storage descriptors).1.tombstoned } := by
  have hfold : ∀ (descs : List (String × GroupDescriptor)) (acc : MergeResult × SqliteStorage),
      run (step configGroups)
          { s with storage := acc.2, merging := s.merging ++ acc.1.tombstoned }
          (descs.map (fun d => .mergeOne d.1 d.2)) =
        { s with
          storage := (descs.foldl (fun acc d =>
            let merged := mergeDescriptor acc.2 d.1 d.2
            (acc.1.append merged.1, merged.2)) acc).2
          merging := s.merging ++ (descs.foldl (fun acc d =>
            let merged := mergeDescriptor acc.2 d.1 d.2
            (acc.1.append merged.1, merged.2)) acc).1.tombstoned } := by
    intro descs
    induction descs with
    | nil => exact fun _ => rfl
    | cons d descs ih =>
      intro acc
      rw [List.map_cons, run_cons, List.foldl_cons, ← ih]
      unfold step MergeResult.append
      simp only [List.append_assoc]
  have hstart := hfold descriptors (⟨[], []⟩, s.storage)
  rw [List.append_nil] at hstart
  exact hstart

end Handlers
end CordeliaCore.GroupRegistry
