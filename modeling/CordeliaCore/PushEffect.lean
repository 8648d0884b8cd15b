import CordeliaCore.AntiEntropyEffect
import CordeliaCore.StepRuns

set_option autoImplicit false

namespace CordeliaCore.Swarm
open CryptoPrimitives ProtocolMessages StorageRows StorageSqlite Replication ReplicationEngine
open StepRuns

section Push
variable [Sha256] (now : String) (ourGroups : List String) (relayAccepts : Option (String → Bool))

theorem pushItem_stored (acc : PushAck × SqliteStorage) (item : FetchedItem) :
    (pushItem now ourGroups relayAccepts acc item).1.stored = acc.1.stored +
        (if (onReceive acc.2 now item ourGroups relayAccepts).1 = .stored then 1 else 0) ∧
      (pushItem now ourGroups relayAccepts acc item).2 =
        (onReceive acc.2 now item ourGroups relayAccepts).2 := by
  unfold pushItem
  obtain ⟨outcome, storage⟩ := onReceive acc.2 now item ourGroups relayAccepts
  cases outcome <;> exact ⟨rfl, rfl⟩

theorem handlePush_run (db : SqliteStorage) (req : MemoryPushRequest) :
    handlePushRequest db now req ourGroups relayAccepts =
      run (pushItem now ourGroups relayAccepts) (⟨0, 0⟩, db) req.items := rfl

theorem run_pushItem_storage (acc : PushAck × SqliteStorage) (items : List FetchedItem) :
    (run (pushItem now ourGroups relayAccepts) acc items).2 =
      receiveAll acc.2 now items ourGroups relayAccepts := by
  induction items generalizing acc with
  | nil => rfl
  | cons item items ih =>
    rw [run_cons, ih, (pushItem_stored now ourGroups relayAccepts acc item).2]
    rfl

theorem handlePush_storage (db : SqliteStorage) (req : MemoryPushRequest) :
    (handlePushRequest db now req ourGroups relayAccepts).2 =
      receiveAll db now req.items ourGroups relayAccepts :=
  run_pushItem_storage now ourGroups relayAccepts (⟨0, 0⟩, db) req.items

def outcomes (db : SqliteStorage) : List FetchedItem → List (FetchedItem × ReceiveOutcome)
  | [] => []
  | item :: items =>
    (item, (onReceive db now item ourGroups relayAccepts).1) ::
      outcomes (onReceive db now item ourGroups relayAccepts).2 items

theorem outcomes_items (db : SqliteStorage) (items : List FetchedItem) :
    (outcomes now ourGroups relayAccepts db items).map Prod.fst = items := by
  induction items generalizing db with
  | nil => rfl
  | cons item items ih => rw [outcomes, List.map_cons, ih]

theorem run_pushItem_stored (acc : PushAck × SqliteStorage) (items : List FetchedItem) :
    (run (pushItem now ourGroups relayAccepts) acc items).1.stored = acc.1.stored +
      (outcomes now ourGroups relayAccepts acc.2 items).countP (fun x => x.2 = .stored) := by
  induction items generalizing acc with
  | nil => rfl
  | cons item items ih =>
    obtain ⟨hcount, hstore⟩ := pushItem_stored now ourGroups relayAccepts acc item
    rw [run_cons, ih, hcount, hstore, outcomes, List.countP_cons]
    simp only [decide_eq_true_eq]
    omega

theorem handlePush_stored (db : SqliteStorage) (req : MemoryPushRequest) :
    (handlePushRequest db now req ourGroups relayAccepts).1.stored =
      (outcomes now ourGroups relayAccepts db req.items).countP (fun x => x.2 = .stored) := by
  rw [handlePush_run, run_pushItem_stored, Nat.zero_add]

theorem mem_outcomes_append {db : SqliteStorage} {past coming : List FetchedItem}
    {item : FetchedItem} :
    (item, (onReceive (receiveAll db now past ourGroups relayAccepts) now item ourGroups
      relayAccepts).1) ∈ outcomes now ourGroups relayAccepts db (past ++ item :: coming) := by
  induction past generalizing db with
  | nil => exact List.mem_cons_self
  | cons first past ih => exact List.mem_cons_of_mem _ ih

theorem mem_outcomes_iff {db : SqliteStorage} {items : List FetchedItem} {item : FetchedItem}
    {outcome : ReceiveOutcome} :
    (item, outcome) ∈ outcomes now ourGroups relayAccepts db items ↔
      ∃ past coming, items = past ++ item :: coming ∧ outcome =
        (onReceive (receiveAll db now past ourGroups relayAccepts) now item ourGroups
          relayAccepts).1 := by
  constructor
  · intro h
    induction items generalizing db with
    | nil => cases h
    | cons first items ih =>
      rcases List.mem_cons.mp h with heq | hrest
      · cases heq
        exact ⟨[], items, rfl, rfl⟩
      · obtain ⟨past, coming, rfl, hout⟩ := ih hrest
        exact ⟨first :: past, coming, rfl, hout⟩
  · rintro ⟨past, coming, rfl, rfl⟩
    exact mem_outcomes_append now ourGroups relayAccepts

theorem receiveAll_of_not_stored {db : SqliteStorage} {items : List FetchedItem}
    (h : ∀ item ∈ items, (onReceive db now item ourGroups relayAccepts).1 ≠ .stored) :
    receiveAll db now items ourGroups relayAccepts = db := by
  induction items with
  | nil => rfl
  | cons first items ih =>
    have hfirst := onReceive_of_not_stored db now first ourGroups relayAccepts (h first (by simp))
    change receiveAll (onReceive db now first ourGroups relayAccepts).2 now items ourGroups
      relayAccepts = db
    rw [hfirst]
    exact ih (fun item hi => h item (List.mem_cons_of_mem first hi))

/-- A push stores nothing just when none of its items, taken alone, is stored. -/
theorem handlePush_stored_eq_zero {db : SqliteStorage} {req : MemoryPushRequest} :
    (handlePushRequest db now req ourGroups relayAccepts).1.stored = 0 ↔
      ∀ item ∈ req.items, (onReceive db now item ourGroups relayAccepts).1 ≠ .stored := by
  rw [handlePush_stored, List.countP_eq_zero]
  generalize req.items = items
  constructor
  · intro h
    induction items with
    | nil => simp
    | cons first items ih =>
      have hfirst : (onReceive db now first ourGroups relayAccepts).1 ≠ .stored := by
        simpa using h _ List.mem_cons_self
      have hsame := onReceive_of_not_stored db now first ourGroups relayAccepts hfirst
      intro item hi
      rcases List.mem_cons.mp hi with rfl | hi
      · exact hfirst
      · -- the first item left the store alone, so the rest meets the same store
        refine ih (fun x hx => h x (List.mem_cons_of_mem _ ?_)) item hi
        rwa [hsame]
  · intro h x hx
    obtain ⟨past, coming, rfl, hout⟩ := (mem_outcomes_iff now ourGroups relayAccepts).mp
      (show (x.1, x.2) ∈ _ from hx)
    rw [receiveAll_of_not_stored now ourGroups relayAccepts
      (fun item hi => h item (List.mem_append_left _ hi))] at hout
    rw [decide_eq_true_eq, hout]
    exact h x.1 (by simp)

end Push
end CordeliaCore.Swarm
