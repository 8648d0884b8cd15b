import CordeliaCore.ApiEffect
import CordeliaCore.LoopEffect
import CordeliaCore.SwarmDescriptors

set_option autoImplicit false

namespace CordeliaCore.DeletedGroups
open CryptoPrimitives ProtocolMessages StorageRows StorageSqlite SqliteStorage StepRuns
open Replication Swarm Api ReplicationLoop

/-- The node around one group: `gone` from its deletion to its next creation. -/
structure Node where
  app : AppState SqliteStorage
  loop : LoopState SqliteStorage
  gone : Bool

/-- `stores` is whatever else writes to the store. -/
inductive Action where
  | l2Write (authorization : Option String) (now : String) (req : L2WriteRequest)
  | l2Delete (authorization : Option String) (itemId : String)
  | groupsCreate (authorization : Option String) (now : String) (req : GroupCreateRequest)
  | groupsDelete (authorization : Option String) (now groupId : String)
  | merge (now : String) (desc : GroupDescriptor)
  | stores (storage : SqliteStorage)
  | iteration (env : Surroundings) (event : LoopEvent)
  | restart

section Steps

def Node.state (s : Node) : AppState SqliteStorage := { s.app with storage := s.loop.storage }

def Node.called (s : Node) (app : AppState SqliteStorage) : Node :=
  { s with app := app, loop := { s.loop with storage := app.storage } }

/-- The channel after the task has taken the event from it; a notification is
    received only when it is the oldest one. -/
def Node.take (s : Node) : LoopEvent → Option (List WriteNotification)
  | .write notif =>
    match s.app.writeNotify.getD [] with
    | [] => none
    | first :: rest => if first = notif then some rest else none
  | .lagged missed => some ((s.app.writeNotify.getD []).drop missed)
  | _ => some (s.app.writeNotify.getD [])

variable [Sha256] [Ed25519] (groupId : String)

def deletes (s : Node) : Action → Bool
  | .groupsDelete authorization now id =>
    id = groupId ∧ (Api.groupsDelete s.state authorization now id).1 = .ok
  | .merge now desc => groupId ∈ (mergeDescriptor s.loop.storage now desc).1.tombstoned
  | _ => false

def creates (s : Node) : Action → Bool
  | .groupsCreate authorization now req =>
    (Api.groupsCreate s.state authorization now req).1 = .groupCreated groupId
  | _ => false

variable [CultureJson] (config : LoopConfig)

def perform (s : Node) : Action → Node
  | .l2Write authorization now req => s.called (Api.l2Write s.state authorization now req).2
  | .l2Delete authorization itemId => s.called (Api.l2Delete s.state authorization itemId).2
  | .groupsCreate authorization now req => s.called (Api.groupsCreate s.state authorization now req).2
  | .groupsDelete authorization now id => s.called (Api.groupsDelete s.state authorization now id).2
  | .merge now desc =>
    { s with loop := { s.loop with storage := (mergeDescriptor s.loop.storage now desc).2 } }
  | .stores storage => { s with loop := { s.loop with storage := storage } }
  | .iteration env event =>
    match s.take event with
    | none => s
    | some channel =>
      { s with
        app := { s.app with writeNotify := s.app.writeNotify.map (fun _ => channel) }
        loop := next config s.loop (env, event) }
  | .restart =>
    { s with
      app := { s.app with writeNotify := s.app.writeNotify.map (fun _ => []) }
      loop := .start s.loop.storage }

def act (s : Node) (a : Action) : Node :=
  { perform config s a with
    gone := deletes groupId s a || (s.gone && !creates groupId s a) }

def sent (s : Node) : Action → List SendMemoryPush
  | .iteration env event => if (s.take event).isSome then (step config env s.loop event).1 else []
  | _ => []

def received (s : Node) : Action → Option WriteNotification
  | .iteration _ (.write notif) => if (s.take (.write notif)).isSome then some notif else none
  | _ => none

end Steps

section Queues
variable [Sha256] [CultureJson] (config : LoopConfig) (groupId : String)

def Clean (s : LoopState SqliteStorage) : Prop := ∀ item ∈ queued s, item.groupId ≠ groupId

def Quiet (s : LoopState SqliteStorage) : Prop :=
  ∀ ticks : List Tick,
    (∀ tick ∈ ticks, ∀ notif, tick.2 = .write notif → notif.groupId ≠ some groupId) →
      Along (next config) (fun s tick => ∀ push ∈ (step config tick.1 s tick.2).1,
        ∀ item ∈ push.request.items, item.groupId ≠ groupId) s ticks

variable {config groupId} {s : LoopState SqliteStorage}

theorem quiet_of_clean (h : Clean groupId s) : Quiet config groupId s := by
  intro ticks hticks
  refine along_withholds
    (G := fun _ tick => ∀ notif, tick.2 = .write notif → notif.groupId ≠ some groupId)
    ?_ h (along_of_mem (fun tick htick _ => hticks tick htick) s)
  intro s tick hother notif written hwrite heager hsame
  apply hother notif hwrite
  rw [heager.1]
  exact congrArg some hsame

theorem not_quiet_of_sends {env : Surroundings} (event : LoopEvent)
    (hevent : ∀ notif, event ≠ .write notif) {push : SendMemoryPush}
    (hpush : push ∈ (step config env s event).1) {item : FetchedItem}
    (hitem : item ∈ push.request.items) : ¬ Quiet config item.groupId s := by
  intro hquiet
  have halong := hquiet [(env, event)] (by
    intro tick htick notif hwrite
    rw [List.mem_singleton.mp htick] at hwrite
    exact absurd hwrite (hevent notif))
  exact halong.1 push hpush item hitem rfl

theorem quiet_iff_clean : Quiet config groupId s ↔ Clean groupId s := by
  refine ⟨?_, quiet_of_clean⟩
  rintro hquiet item hitem rfl
  rcases List.mem_append.mp hitem with hbuffered | hpending
  · let reached : Surroundings :=
      { quietSurroundings with activePeersForGroupOrRelays := fun _ => ["peer"] }
    obtain ⟨push, hpush, hin⟩ :=
      flush_sends reached (fun _ => List.mem_singleton.mpr rfl) hbuffered
    exact not_quiet_of_sends .flushTick (fun _ h => by cases h) hpush hin hquiet
  · obtain ⟨pending, hpending, hin⟩ := List.mem_flatMap.mp hpending
    let reached : Surroundings :=
      { quietSurroundings with
        instant := pending.nextAt
        activePeersForGroupOrRelays := fun _ => ["peer"] }
    obtain ⟨push, hpush, hsent⟩ :=
      retry_sends reached (fun _ => List.mem_singleton.mpr rfl) le_rfl hpending hin
    exact not_quiet_of_sends .retryTick (fun _ h => by cases h) hpush hsent hquiet

theorem clean_receiveWrite_iff (env : Surroundings) (h : Clean groupId s) (notif : WriteNotification) :
    Clean groupId (receiveWrite config env s notif) ↔ ¬ Eager s notif groupId := by
  constructor
  · intro hclean heager
    rw [receiveWrite_of_eager config env s heager] at hclean
    exact hclean (writtenItem config env notif groupId)
      (List.mem_append_left _ (mem_pushBuffered.mpr (.inl rfl))) rfl
  · intro hpassive item hitem hsame
    rcases receiveWrite_queued config env s hitem with hold | ⟨written, heager, rfl⟩
    · exact h item hold hsame
    · rw [show written = groupId from hsame] at heager
      exact hpassive heager

end Queues

section Runs
variable [Sha256] [Ed25519] [CultureJson] (config : LoopConfig) (groupId : String)

/-- A deleted group is not pushed, by the action or from what it leaves queued. -/
def Stopped (s : Node) (a : Action) : Prop :=
  (s.gone = true → ∀ push ∈ sent config s a, ∀ item ∈ push.request.items, item.groupId ≠ groupId) ∧
    ((act groupId config s a).gone = true → Quiet config groupId (act groupId config s a).loop)

/-- Nothing of the group is queued when it is deleted, and no eager write to it
    is received afterwards. -/
def Drained (s : Node) (a : Action) : Prop :=
  (deletes groupId s a = true → Clean groupId s.loop) ∧
    (s.gone = true → ∀ notif, received s a = some notif → ¬ Eager s.loop notif groupId)

variable {config groupId} {s : Node}

omit [Ed25519] in
theorem sent_queued {a : Action} {push : SendMemoryPush} (hpush : push ∈ sent config s a)
    {item : FetchedItem} (hitem : item ∈ push.request.items) : item ∈ queued s.loop := by
  cases a with
  | iteration env event =>
    change push ∈ if (s.take event).isSome then (step config env s.loop event).1 else [] at hpush
    split_ifs at hpush
    · exact step_pushes config env s.loop hpush hitem
    · cases hpush
  | _ => cases hpush

theorem clean_iteration_iff (hclean : Clean groupId s.loop) (env : Surroundings) (event : LoopEvent) :
    Clean groupId (perform config s (.iteration env event)).loop ↔
      ∀ notif, received s (.iteration env event) = some notif → ¬ Eager s.loop notif groupId := by
  cases htake : s.take event with
  | none =>
    have hidle : perform config s (.iteration env event) = s := by simp only [perform, htake]
    rw [hidle]
    refine iff_of_true hclean (fun notif hreceived => ?_)
    cases event with
    | write n => simp [received, htake] at hreceived
    | _ => cases hreceived
  | some channel =>
    have hloop : (perform config s (.iteration env event)).loop =
        next config s.loop (env, event) := by simp only [perform, htake]
    rw [hloop]
    cases event with
    | write n =>
      have hreceived : received s (.iteration env (.write n)) = some n := by
        simp [received, htake]
      rw [hreceived]
      simp only [Option.some.injEq, forall_eq']
      exact clean_receiveWrite_iff env hclean n
    | _ =>
      refine iff_of_true ?_ (fun notif hreceived => by cases hreceived)
      exact next_queued hclean (fun notif written hwrite _ => by cases hwrite)

/-- A step keeps the queue clean of the group unless it receives an eager write to it. -/
theorem clean_perform_iff (hclean : Clean groupId s.loop) (a : Action) :
    Clean groupId (perform config s a).loop ↔
      ∀ notif, received s a = some notif → ¬ Eager s.loop notif groupId := by
  cases a with
  | iteration env event => exact clean_iteration_iff hclean env event
  | restart => exact iff_of_true (fun item hitem => by cases hitem) (fun notif h => by cases h)
  | _ => exact iff_of_true hclean (fun notif h => by cases h)

theorem deletes_queued {a : Action} (h : deletes groupId s a = true) :
    queued (perform config s a).loop = queued s.loop := by
  cases a with
  | groupsDelete authorization now id => rfl
  | merge now desc => rfl
  | _ => cases h

omit [CultureJson] in
theorem received_of_deletes {a : Action} (h : deletes groupId s a = true) : received s a = none := by
  cases a with
  | iteration env event => cases h
  | _ => rfl

def Inv (groupId : String) (s : Node) : Prop := s.gone = true → Clean groupId s.loop

theorem stopped_iff_drained (h : Inv groupId s) (a : Action) :
    Stopped config groupId s a ↔ Drained groupId s a := by
  have hsent : s.gone = true → ∀ push ∈ sent config s a, ∀ item ∈ push.request.items,
      item.groupId ≠ groupId :=
    fun hgone push hpush item hitem => h hgone item (sent_queued hpush hitem)
  unfold Stopped Drained
  rw [and_iff_right hsent, quiet_iff_clean]
  change ((deletes groupId s a || (s.gone && !creates groupId s a)) = true →
    Clean groupId (perform config s a).loop) ↔ _
  cases hdeletes : deletes groupId s a with
  | true =>
    have hsame : Clean groupId (perform config s a).loop ↔ Clean groupId s.loop := by
      unfold Clean
      rw [deletes_queued hdeletes]
    rw [hsame, received_of_deletes hdeletes]
    simp
  | false =>
    cases hgone : s.gone with
    | false => simp
    | true =>
      rw [clean_perform_iff (h hgone)]
      cases hcreates : creates groupId s a with
      | false => simp
      | true =>
        have hnone : received s a = none := by
          cases a with
          | iteration env event => cases hcreates
          | _ => rfl
        simp [hnone]

/-- A deleted group stops replicating outwards exactly when nothing of it was
    queued at its deletion and no eager write to it is received afterwards. -/
theorem deleted_group_stopped_iff (app : AppState SqliteStorage) (loop : LoopState SqliteStorage)
    (actions : List Action) :
    Along (act groupId config) (Stopped config groupId) ⟨app, loop, false⟩ actions ↔
      Along (act groupId config) (Drained groupId) ⟨app, loop, false⟩ actions := by
  refine along_congr (I := Inv groupId) ?_ (fun s a h => stopped_iff_drained h a)
    (fun hgone => by cases hgone)
  intro s a _ hstopped hgone
  exact quiet_iff_clean.mp (hstopped.2 hgone)

end Runs
section Example

def chatty : Node :=
  let storage := createNew.writeGroup "2026-02-01 00:00:00" "seed-drill" "Seed Drill" "chatty" "{}"
  ⟨apiState storage, .start storage, false⟩

def reachable : Surroundings :=
  { quietSurroundings with activePeersForGroupOrRelays := fun _ => ["peer"] }

def note : WriteNotification := writeNotification (l2WriteOf chatty.app noteRequest)

def deletion : Action := .groupsDelete (some "Bearer token") "2026-02-01 00:00:00" "seed-drill"

def noteWritten : List Action :=
  [.l2Write (some "Bearer token") "2026-02-01 00:00:00" noteRequest,
    .iteration reachable (.write note)]

/-- A note is pushed after the deletion of its group, written before it or after. -/
theorem deleted_group_is_pushed :
    let := knownDigests
    let := shortSignatures
    let := bareCultures
    ∀ actions ∈ [noteWritten ++ [deletion], [deletion] ++ noteWritten],
      let s := run (act "seed-drill" memberConfig) chatty actions
      s.gone = true ∧ ¬ ∀ push ∈ sent memberConfig s (.iteration reachable .flushTick),
        ∀ item ∈ push.request.items, item.groupId ≠ "seed-drill" := by
  intro _ _ _ actions hactions
  let pushed : FetchedItem := writtenItem memberConfig reachable note "seed-drill"
  simp only [List.mem_cons, List.not_mem_nil, or_false] at hactions
  rcases hactions with rfl | rfl
  · refine ⟨rfl, fun h => ?_⟩
    exact h ⟨"peer", ⟨[pushed]⟩⟩ (.head _) pushed (.head _) rfl
  · refine ⟨rfl, fun h => ?_⟩
    exact h ⟨"peer", ⟨[pushed]⟩⟩ (.head _) pushed (.head _) rfl

end Example
end CordeliaCore.DeletedGroups
