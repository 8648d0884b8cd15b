import CordeliaCore.LoopEffect
import CordeliaCore.PushEffect

set_option autoImplicit false

/-!
# Inbound items, one at a time

Pushes are handled by the swarm task and sync rounds by the replication task,
while the API and the governor change the store and the group lists. Every task
keeps the group lists it read when it began. A step receives one item, so that
anything can happen between two items of a push or of a round, and what peers
answer to a round is open.
-/
namespace CordeliaCore.InboundTasks
open CryptoPrimitives ProtocolMessages StorageRows StorageSqlite StepRuns
open Replication ReplicationEngine ReplicationLoop SqliteStorage Swarm Api

/-- The relay section of the configuration. A node without a posture is no relay. -/
structure Settings where
  engine : ReplicationEngine
  relayPosture : Option RelayPosture
  relayAllowedGroups : List String
  relayBlockedGroups : List String

namespace Settings

def loopConfig (settings : Settings) : LoopConfig :=
  ⟨settings.engine, settings.relayPosture.isSome, settings.relayBlockedGroups⟩

/-- A dynamic relay accepts what it learned, an explicit one what its configuration lists. -/
def relayAcceptedGroups (settings : Settings) (learned : List String) : Option (List String) :=
  match settings.relayPosture with
  | some .dynamic => some learned
  | some .explicit => some settings.relayAllowedGroups
  | _ => none

def relayLearnedGroups (settings : Settings) (learned : List String) : Option (List String) :=
  if settings.relayPosture = some .dynamic then some learned else none

end Settings

structure PushTask where
  snapshot : List String
  relayAccepts : Option (String → Bool)
  remaining : List FetchedItem

inductive SyncPath where
  | periodic
  | bootstrap
deriving DecidableEq

structure SyncTask where
  path : SyncPath
  snapshot : List String
  ourGroups : List String
  relayAcceptSet : Option (List String)
  fetched : List FetchedItem

structure Node where
  app : AppState SqliteStorage
  learned : List String
  push : Option PushTask
  sync : Option SyncTask

namespace Node

def sharedGroups (s : Node) : List String := s.app.sharedGroups.getD []

def start (app : AppState SqliteStorage) (learned : List String) : Node := ⟨app, learned, none, none⟩

def withStorage (s : Node) (storage : SqliteStorage) : Node :=
  { s with app := { s.app with storage := storage } }

def pushContext (settings : Settings) (s : Node) (lockHeld : Bool) (activePeers : List String) :
    PushContext where
  sharedGroups := s.sharedGroups
  relayPosture := settings.relayPosture
  relayAcceptedGroups := settings.relayAcceptedGroups s.learned
  lockHeld := lockHeld
  relayBlockedGroups := settings.relayBlockedGroups
  activePeers := activePeers

def surroundings (settings : Settings) (s : Node) (env : Surroundings) : Surroundings :=
  { env with
    sharedGroups := s.sharedGroups
    relayLearnedGroups := settings.relayLearnedGroups s.learned }

end Node

inductive Event where
  | pushArrives (request : MemoryPushRequest) (lockHeld : Bool)
  | pushItem (now : String)
  | syncTick (env : Surroundings)
  | bootstrap
  | fetched (items : List FetchedItem)
  | syncItem (now : String)
  | syncEnds
  | elsewhere (app : AppState SqliteStorage) (learned : List String)

section Step
variable [Sha256] (settings : Settings)

def beginPush (s : Node) (request : MemoryPushRequest) (lockHeld : Bool) : PushTask :=
  ⟨s.sharedGroups, (s.pushContext settings lockHeld []).relayAccepts, request.items⟩

def beginTick (s : Node) (env : Surroundings) : SyncTask :=
  let groups := currentGroups settings.loopConfig (s.surroundings settings env) s.app.storage
  ⟨.periodic, s.sharedGroups, groups, relayAcceptSet settings.loopConfig groups, []⟩

def beginBootstrap (s : Node) : SyncTask :=
  ⟨.bootstrap, s.sharedGroups, s.sharedGroups,
    relayAcceptSet settings.loopConfig s.sharedGroups, []⟩

def step (s : Node) : Event → Node
  | .pushArrives request lockHeld =>
    match s.push with
    | some _ => s
    | none => { s with push := some (beginPush settings s request lockHeld) }
  | .pushItem now =>
    match s.push with
    | none => s
    | some ⟨_, _, []⟩ => { s with push := none }
    | some ⟨snapshot, relayAccepts, item :: remaining⟩ =>
      { s.withStorage (onReceive s.app.storage now item snapshot relayAccepts).2 with
        push := some ⟨snapshot, relayAccepts, remaining⟩ }
  | .syncTick env =>
    match s.sync with
    | some _ => s
    | none => { s with sync := some (beginTick settings s env) }
  | .bootstrap =>
    match s.sync, s.app.bootstrapSync with
    | none, some (_ :: queue) =>
      { s with
        app := { s.app with bootstrapSync := some queue }
        sync := some (beginBootstrap settings s) }
    | _, _ => s
  | .fetched items =>
    { s with sync := s.sync.map (fun task => { task with fetched := task.fetched ++ items }) }
  | .syncItem now =>
    match s.sync with
    | some ⟨path, snapshot, ourGroups, acceptSet, item :: fetched⟩ =>
      { s.withStorage (onReceive s.app.storage now item ourGroups (relayFn acceptSet)).2 with
        sync := some ⟨path, snapshot, ourGroups, acceptSet, fetched⟩ }
    | _ => s
  | .syncEnds => { s with sync := s.sync.filter (fun task => !task.fetched.isEmpty) }
  | .elsewhere app learned => { s with app := app, learned := learned }

end Step

structure Inbound where
  item : FetchedItem
  snapshot : List String
  ourGroups : List String
  relayAccepts : Option (String → Bool)

def received (s : Node) : Event → Option Inbound
  | .pushItem _ => s.push.bind (fun task =>
    task.remaining.head?.map (fun item => ⟨item, task.snapshot, task.snapshot, task.relayAccepts⟩))
  | .syncItem _ => s.sync.bind (fun task =>
    task.fetched.head?.map (fun item =>
      ⟨item, task.snapshot, task.ourGroups, relayFn task.relayAcceptSet⟩))
  | _ => none

def Event.clock : Event → String
  | .pushItem now => now
  | .syncItem now => now
  | _ => ""

section Effect
variable [Sha256] (settings : Settings)

theorem step_storage (s : Node) (e : Event) (h : ∀ app learned, e ≠ .elsewhere app learned) :
    (step settings s e).app.storage =
      match received s e with
      | none => s.app.storage
      | some x => (onReceive s.app.storage e.clock x.item x.ourGroups x.relayAccepts).2 := by
  cases e with
  | elsewhere app learned => exact absurd rfl (h app learned)
  | pushArrives request lockHeld =>
    unfold step
    cases s.push <;> rfl
  | pushItem now =>
    unfold step received
    cases s.push with
    | none => rfl
    | some task =>
      obtain ⟨snapshot, relayAccepts, remaining⟩ := task
      cases remaining <;> rfl
  | syncTick env =>
    unfold step
    cases s.sync <;> rfl
  | bootstrap =>
    unfold step
    dsimp only
    split <;> rfl
  | fetched items => rfl
  | syncItem now =>
    unfold step received
    cases s.sync with
    | none => rfl
    | some task =>
      obtain ⟨path, snapshot, ourGroups, acceptSet, fetched⟩ := task
      cases fetched <;> rfl
  | syncEnds => rfl

end Effect

section Whole
variable [Sha256] (settings : Settings)

/-- Items of a push received back to back are a call of `handle_push_request`. -/
theorem run_pushItems (s : Node) (now : String) (snapshot : List String)
    (relayAccepts : Option (String → Bool)) (items : List FetchedItem)
    (hpush : s.push = some ⟨snapshot, relayAccepts, items⟩) :
    (run (step settings) s (items.map (fun _ => .pushItem now))).app.storage =
      receiveAll s.app.storage now items snapshot relayAccepts := by
  induction items generalizing s with
  | nil => rfl
  | cons item items ih =>
    have hnext : step settings s (.pushItem now) =
        { s.withStorage (onReceive s.app.storage now item snapshot relayAccepts).2 with
          push := some ⟨snapshot, relayAccepts, items⟩ } := by
      unfold step
      rw [hpush]
    rw [List.map_cons, run_cons, hnext, ih _ rfl]
    rfl

theorem run_push (s : Node) (now peer : String) (request : MemoryPushRequest) (lockHeld : Bool)
    (activePeers : List String) (hidle : s.push = none) :
    (run (step settings) s (.pushArrives request lockHeld ::
      request.items.map (fun _ => .pushItem now))).app.storage =
      (receivePush (s.pushContext settings lockHeld activePeers) s.app.storage now peer
        request).storage := by
  have hbegin : step settings s (.pushArrives request lockHeld) =
      { s with push := some (beginPush settings s request lockHeld) } := by
    unfold step
    rw [hidle]
  rw [run_cons, hbegin, run_pushItems settings _ now _ _ request.items rfl]
  exact (handlePush_storage now _ _ _ request).symm

theorem run_syncItems (s : Node) (now : String) (task : SyncTask) (hsync : s.sync = some task) :
    (run (step settings) s (task.fetched.map (fun _ => .syncItem now))).app.storage =
      receiveAll s.app.storage now task.fetched task.ourGroups (relayFn task.relayAcceptSet) := by
  obtain ⟨path, snapshot, ourGroups, acceptSet, fetched⟩ := task
  dsimp only
  induction fetched generalizing s with
  | nil => rfl
  | cons item fetched ih =>
    have hnext : step settings s (.syncItem now) =
        { s.withStorage (onReceive s.app.storage now item ourGroups (relayFn acceptSet)).2 with
          sync := some ⟨path, snapshot, ourGroups, acceptSet, fetched⟩ } := by
      unfold step
      rw [hsync]
    rw [List.map_cons, run_cons, hnext, ih _ rfl]
    rfl

theorem run_fetched (s : Node) (now : String) (task : SyncTask) (hsync : s.sync = some task)
    (hnone : task.fetched = []) (items : List FetchedItem) :
    (run (step settings) s (.fetched items :: items.map (fun _ => .syncItem now))).app.storage =
      receiveAll s.app.storage now items task.ourGroups (relayFn task.relayAcceptSet) := by
  have hbegin : step settings s (.fetched items) =
      { s with sync := some { task with fetched := items } } := by
    change { s with sync := s.sync.map _ } = _
    rw [hsync, Option.map_some, hnone, List.nil_append]
  rw [run_cons, hbegin]
  exact run_syncItems settings _ now { task with fetched := items } rfl

end Whole

section Loop
variable [Sha256] (config : LoopConfig) (env : Surroundings)

theorem syncFrom_receives (s : LoopState SqliteStorage) (groups : List String) (groupId : String)
    (since : Option String) :
    ∃ items, (syncFrom config env s groups groupId since).storage =
      receiveAll s.storage env.dbNow items groups (relayFn (relayAcceptSet config groups)) := by
  obtain ⟨items, hitems⟩ := runAntiEntropy_receives config.engine (env.randomHotPeer groupId)
    s.storage env.dbNow groupId groups since (relayAcceptSet config groups)
  refine ⟨items, ?_⟩
  rw [← hitems]
  unfold syncFrom
  split <;> simp_all

theorem syncGroup_receives [CultureJson] (s : LoopState SqliteStorage) (groups : List String)
    (groupId : String) :
    ∃ items, (syncGroup config env groups s groupId).storage =
      receiveAll s.storage env.dbNow items groups (relayFn (relayAcceptSet config groups)) := by
  unfold syncGroup
  split_ifs
  · exact ⟨[], rfl⟩
  · unfold cycleGroup
    exact syncFrom_receives config env _ groups groupId _

theorem syncAll_receives [CultureJson] (s : LoopState SqliteStorage) :
    ∃ items, (syncAll config env s).storage =
      receiveAll s.storage env.dbNow items (currentGroups config env s.storage)
        (relayFn (relayAcceptSet config (currentGroups config env s.storage))) := by
  unfold syncAll
  dsimp only
  generalize currentGroups config env s.storage = groups
  suffices h : ∀ due : List String, ∃ items,
      (due.foldl (syncGroup config env groups) s).storage =
        receiveAll s.storage env.dbNow items groups (relayFn (relayAcceptSet config groups)) from
    h groups
  intro due
  induction due generalizing s with
  | nil => exact ⟨[], rfl⟩
  | cons groupId due ih =>
    obtain ⟨first, hfirst⟩ := syncGroup_receives config env s groups groupId
    obtain ⟨rest, hrest⟩ := ih (syncGroup config env groups s groupId)
    refine ⟨first ++ rest, ?_⟩
    rw [List.foldl_cons, hrest, hfirst, receiveAll_append]

theorem bootstrapGroup_receives (s : LoopState SqliteStorage) (groupId : String) :
    ∃ items, (bootstrapGroup config env s groupId).storage =
      receiveAll s.storage env.dbNow items env.sharedGroups
        (relayFn (relayAcceptSet config env.sharedGroups)) := by
  unfold bootstrapGroup
  exact syncFrom_receives config env _ env.sharedGroups groupId none

end Loop

section Refinement
variable [Sha256] (settings : Settings)

/-- What a tick of the replication task does to the store, some run of item steps does. -/
theorem syncAll_is_run [CultureJson] (s : Node) (env : Surroundings) (loop : LoopState SqliteStorage)
    (hstorage : loop.storage = s.app.storage) (hidle : s.sync = none) :
    ∃ items, (run (step settings) s (.syncTick env :: .fetched items ::
      items.map (fun _ => .syncItem env.dbNow))).app.storage =
        (syncAll settings.loopConfig (s.surroundings settings env) loop).storage := by
  obtain ⟨items, hitems⟩ := syncAll_receives settings.loopConfig (s.surroundings settings env) loop
  have hbegin : step settings s (.syncTick env) =
      { s with sync := some (beginTick settings s env) } := by
    unfold step
    rw [hidle]
  refine ⟨items, ?_⟩
  rw [run_cons, hbegin, run_fetched settings _ env.dbNow (beginTick settings s env) rfl rfl, hitems,
    hstorage]
  rfl

theorem bootstrapGroup_is_run (s : Node) (env : Surroundings) (loop : LoopState SqliteStorage)
    (hstorage : loop.storage = s.app.storage) (hidle : s.sync = none) {groupId : String}
    {queue : List String} (hqueue : s.app.bootstrapSync = some (groupId :: queue)) :
    ∃ items, (run (step settings) s (.bootstrap :: .fetched items ::
      items.map (fun _ => .syncItem env.dbNow))).app.storage =
        (bootstrapGroup settings.loopConfig (s.surroundings settings env) loop groupId).storage := by
  obtain ⟨items, hitems⟩ := bootstrapGroup_receives settings.loopConfig
    (s.surroundings settings env) loop groupId
  have hbegin : step settings s .bootstrap =
      { s with
        app := { s.app with bootstrapSync := some queue }
        sync := some (beginBootstrap settings s) } := by
    unfold step
    rw [hidle, hqueue]
  refine ⟨items, ?_⟩
  rw [run_cons, hbegin, run_fetched settings _ env.dbNow (beginBootstrap settings s) rfl rfl, hitems,
    hstorage]
  rfl

end Refinement
end CordeliaCore.InboundTasks
