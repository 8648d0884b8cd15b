import CordeliaCore.AntiEntropyEffect
import CordeliaCore.ReplicationLoop

set_option autoImplicit false

namespace CordeliaCore.SyncCoverage
open CryptoPrimitives ProtocolMessages StorageRows StorageSqlite KeyedTable
open Replication ReplicationEngine ReplicationLoop SqliteStorage Swarm CursorPaging

section Schedule

/-- The pages read since the last return to the first one. -/
def pagesRead : ℕ → ℕ
  | 0 => 0
  | k + 1 => (if (k + 1) % 2 ^ 32 % fullSyncEvery = 0 then 0 else pagesRead k) + 1

def pageOf (k : ℕ) : ℕ := if (k + 1) % 2 ^ 32 % fullSyncEvery = 0 then 0 else pagesRead k

theorem pagesRead_succ (k : ℕ) : pagesRead (k + 1) = pageOf k + 1 := rfl

theorem counter_succ (k : ℕ) :
    (k + 1) % 2 ^ 32 = k % 2 ^ 32 + 1 ∨ (k + 1) % 2 ^ 32 = 0 := by
  omega

theorem pageOf_le (k : ℕ) (h : pagesRead k ≤ k % 2 ^ 32 % fullSyncEvery + 1) :
    pageOf k ≤ (k + 1) % 2 ^ 32 % fullSyncEvery := by
  unfold pageOf
  unfold fullSyncEvery at *
  split_ifs with hfull
  · omega
  · -- the counter did not wrap, since zero is a multiple
    rcases counter_succ k with hnext | hzero
    · rw [hnext] at hfull ⊢
      omega
    · rw [hzero] at hfull
      exact absurd rfl hfull

theorem pagesRead_le (k : ℕ) : pagesRead k ≤ k % 2 ^ 32 % fullSyncEvery + 1 := by
  induction k with
  | zero => exact Nat.zero_le _
  | succ k ih =>
    have hpage := pageOf_le k ih
    rw [pagesRead_succ]
    omega

theorem pageOf_lt (k : ℕ) : pageOf k < fullSyncEvery := by
  have hle := pageOf_le k (pagesRead_le k)
  have hlt : (k + 1) % 2 ^ 32 % fullSyncEvery < fullSyncEvery :=
    Nat.mod_lt _ (by decide)
  omega

theorem pagesRead_after_full {j : ℕ} (h : j < fullSyncEvery) :
    pagesRead (fullSyncEvery + j) = j + 1 := by
  induction j with
  | zero => rfl
  | succ j ih =>
    unfold fullSyncEvery at *
    have hcount : (10 + j + 1) % 2 ^ 32 = 10 + j + 1 := by omega
    rw [← Nat.add_assoc, pagesRead_succ, pageOf, ih (by omega), hcount]
    unfold fullSyncEvery
    rw [if_neg (by omega)]

theorem pageOf_after_full {q : ℕ} (h : q < fullSyncEvery) : pageOf (fullSyncEvery - 1 + q) = q := by
  have hread := pagesRead_after_full h
  rw [show fullSyncEvery + q = fullSyncEvery - 1 + q + 1 by unfold fullSyncEvery; omega,
    pagesRead_succ] at hread
  omega

end Schedule

section Coverage
variable [Sha256] (config : LoopConfig) (groups : List String) (groupId : String)
  (remote : SqliteStorage)

def cycles [CultureJson] (env : ℕ → Surroundings) (s : LoopState SqliteStorage) :
    ℕ → LoopState SqliteStorage
  | 0 => s
  | k + 1 => cycleGroup config (env k) groups groupId (cycles env s k)

def Answered (env : ℕ → Surroundings) : Prop :=
  ∀ k, (env k).randomHotPeer groupId = some (.serving remote)

/-- A group that the loop has not synced and that holds no row. -/
structure Fresh (s : LoopState SqliteStorage) : Prop where
  uncounted : s.syncCycleCount groupId = none
  unread : s.lastSyncAt groupId = none
  empty : s.storage.groupItems groupId = []

def Holds (db : SqliteStorage) (r : L2ItemRow) : Prop :=
  ∃ l ∈ db.groupItems groupId, fetchedItem l = fetchedItem r

def Covers (db : SqliteStorage) : Prop := ∀ r ∈ remote.groupItems groupId, Holds groupId db r

def Accepted (db : SqliteStorage) (r : L2ItemRow) : Prop :=
  Writes groups (relayFn (relayAcceptSet config groups)) (fetchedItem r) (db.l2Items.lookup r.id)

def limit (config : LoopConfig) : ℕ := config.engine.config.maxBatchSize

def ordered : List L2ItemRow := byStamp L2ItemRow.updatedAt (remote.groupItems groupId)

def cursorAt (k : ℕ) : Option String :=
  cursor L2ItemRow.updatedAt (limit config) k (remote.groupItems groupId)

/-- Every row is as it was, or a copy of an accepted row that the cycles reach. -/
def Tracks (start db : SqliteStorage) : Prop :=
  ∀ id, db.l2Items.lookup id = start.l2Items.lookup id ∨
    ∃ r ∈ (ordered groupId remote).take (fullSyncEvery * limit config),
      r.id = id ∧ Accepted config groups start r ∧
        ∃ existing now, db.l2Items.lookup id = some (receivedRow existing now (fetchedItem r))

instance (db : SqliteStorage) (r : L2ItemRow) : Decidable (Accepted config groups db r) :=
  inferInstanceAs (Decidable (Writes _ _ _ _))

variable {config groups groupId remote}

section Store
variable {start db : SqliteStorage} (now : String) (since : Option String)

omit [Sha256] in
theorem mem_remote_of_reach {n : ℕ} {r : L2ItemRow} (h : r ∈ (ordered groupId remote).take n) :
    r ∈ remote.groupItems groupId :=
  (mem_byStamp _).mp (List.mem_of_mem_take h)

omit [Sha256] in
theorem ordered_length : (ordered groupId remote).length = (remote.groupItems groupId).length :=
  (byStamp_perm _ _).length_eq

theorem copy_mem {r l : L2ItemRow} (hr : r ∈ remote.groupItems groupId)
    {existing : Option L2ItemRow} (hl : l = receivedRow existing now (fetchedItem r))
    (hrow : db.l2Items.lookup r.id = some l) : l ∈ db.groupItems groupId := by
  subst hl
  exact mem_groupItems.mpr ⟨hrow, receivedRow_groupId hr existing now⟩

theorem Tracks.checksum_isSome (h : Tracks config groups groupId remote start db)
    (hempty : start.groupItems groupId = []) : ∀ e ∈ db.groupItems groupId, e.checksum.isSome := by
  intro e he
  obtain ⟨hrow, hgroup⟩ := mem_groupItems.mp he
  rcases h e.id with hsame | ⟨r, _, _, _, existing, now, hcopy⟩
  · have hstart : e ∈ start.groupItems groupId := mem_groupItems.mpr ⟨hsame.symm.trans hrow, hgroup⟩
    rw [hempty] at hstart
    cases hstart
  · rw [hrow] at hcopy
    rw [Option.some.inj hcopy]
    rfl

section Pull
variable (htracks : Tracks config groups groupId remote start db)
  (hempty : start.groupItems groupId = [])
include htracks hempty

theorem pulled_listed {r : L2ItemRow} (h : r ∈ listedRows remote groupId since (limit config)) :
    (pulled config.engine remote db now groupId groups since
        (relayAcceptSet config groups)).l2Items.lookup r.id =
      if Accepted config groups db r then
        some (receivedRow (db.l2Items.lookup r.id) now (fetchedItem r))
      else db.l2Items.lookup r.id :=
  pulled_lookup_of_listed config.engine remote db now groupId groups since _
    (htracks.checksum_isSome hempty) h

theorem tracks_pulled (hreach : ∀ r ∈ listedRows remote groupId since (limit config),
      r ∈ (ordered groupId remote).take (fullSyncEvery * limit config)) :
    Tracks config groups groupId remote start
      (pulled config.engine remote db now groupId groups since (relayAcceptSet config groups)) := by
  intro id
  by_cases hlisted : ∃ r ∈ listedRows remote groupId since (limit config), r.id = id
  swap
  · rw [pulled_lookup_of_not_listed config.engine remote db now groupId groups since _
      (fun r hr hid => hlisted ⟨r, hr, hid.symm⟩)]
    exact htracks id
  obtain ⟨r, hr, rfl⟩ := hlisted
  rw [pulled_listed now since htracks hempty hr]
  split_ifs with haccepted
  · refine .inr ⟨r, hreach r hr, rfl, ?_, _, now, rfl⟩
    rcases htracks r.id with hsame | ⟨q, hq, hid, hstart, _⟩
    · unfold Accepted at haccepted ⊢
      rw [← hsame]
      exact haccepted
    · rwa [← groupItems_id_inj (mem_remote_of_reach hq) (mem_groupItems_of_listed hr) hid]
  · exact htracks r.id

theorem holds_of_listed {r : L2ItemRow} (h : r ∈ listedRows remote groupId since (limit config))
    (haccepted : Accepted config groups start r) :
    Holds groupId (pulled config.engine remote db now groupId groups since
      (relayAcceptSet config groups)) r := by
  have hmem := mem_groupItems_of_listed h
  have hsum : validateChecksum (fetchedItem r) = true := haccepted.2.1.1
  have hrow := pulled_listed now since htracks hempty h
  by_cases hnow : Accepted config groups db r
  · rw [if_pos hnow] at hrow
    exact ⟨_, copy_mem now hmem rfl hrow, fetchedItem_receivedRow hsum _ _⟩
  · rw [if_neg hnow] at hrow
    rcases htracks r.id with hsame | ⟨q, hq, hid, _, existing, copied, hcopy⟩
    · refine absurd ?_ hnow
      unfold Accepted at haccepted ⊢
      rw [hsame]
      exact haccepted
    · have hq' := groupItems_id_inj (mem_remote_of_reach hq) hmem hid
      subst hq'
      exact ⟨_, copy_mem copied hmem rfl (hrow.trans hcopy), fetchedItem_receivedRow hsum _ _⟩

theorem holds_pulled {r : L2ItemRow} (hr : r ∈ remote.groupItems groupId)
    (h : Holds groupId db r) :
    Holds groupId (pulled config.engine remote db now groupId groups since
      (relayAcceptSet config groups)) r := by
  obtain ⟨l, hl, hsame⟩ := h
  have hid : l.id = r.id := congrArg FetchedItem.itemId hsame
  obtain ⟨hrow, hgroup⟩ := mem_groupItems.mp hl
  have hkept : ∀ {db' : SqliteStorage}, db'.l2Items.lookup r.id = db.l2Items.lookup r.id →
      Holds groupId db' r := by
    intro db' heq
    refine ⟨l, mem_groupItems.mpr ⟨?_, hgroup⟩, hsame⟩
    rw [hid, heq, ← hid, hrow]
  by_cases hlisted : r ∈ listedRows remote groupId since (limit config)
  · have hrow' := pulled_listed now since htracks hempty hlisted
    split_ifs at hrow' with hnow
    · exact ⟨_, copy_mem now hr rfl hrow', fetchedItem_receivedRow hnow.2.1.1 _ _⟩
    · exact hkept hrow'
  · refine hkept (pulled_lookup_of_not_listed config.engine remote db now groupId groups since _ ?_)
    intro q hq hqid
    exact hlisted (groupItems_id_inj hr (mem_groupItems_of_listed hq) hqid ▸ hq)

end Pull
end Store

section Run
variable [CultureJson] (config groups)

def sinceOf (groupId : String) (s : LoopState SqliteStorage) : Option String :=
  if ((s.syncCycleCount groupId).getD 0 + 1) % 2 ^ 32 % fullSyncEvery = 0 then none
  else s.lastSyncAt groupId

theorem cycleGroup_count (env : Surroundings) (s : LoopState SqliteStorage) :
    (cycleGroup config env groups groupId s).syncCycleCount groupId =
      some (((s.syncCycleCount groupId).getD 0 + 1) % 2 ^ 32) := by
  unfold cycleGroup syncFrom
  dsimp only
  split <;> exact Function.update_self _ _ _

theorem cycleGroup_serving {env : Surroundings}
    (h : env.randomHotPeer groupId = some (.serving remote)) (s : LoopState SqliteStorage) :
    (cycleGroup config env groups groupId s).storage =
        pulled config.engine remote s.storage env.dbNow groupId groups (sinceOf groupId s)
          (relayAcceptSet config groups) ∧
      (cycleGroup config env groups groupId s).lastSyncAt groupId =
        ((listedRows remote groupId (sinceOf groupId s) (limit config)).map
          L2ItemRow.updatedAt).max?.or (s.lastSyncAt groupId) := by
  unfold cycleGroup syncFrom pulled sinceOf
  dsimp only
  rw [h, runAntiEntropy_serving]
  exact ⟨rfl, Function.update_self _ _ _⟩

variable (groupId remote)

structure Standing (start : SqliteStorage) (k : ℕ) (s : LoopState SqliteStorage) : Prop where
  count : (s.syncCycleCount groupId).getD 0 = k % 2 ^ 32
  cursor : s.lastSyncAt groupId = cursorAt config groupId remote (pagesRead k)
  tracks : Tracks config groups groupId remote start s.storage

variable {config groups groupId remote} {start : SqliteStorage} {k : ℕ} {s : LoopState SqliteStorage}

omit [CultureJson] in
theorem standing_fresh (h : Fresh groupId s) :
    Standing config groups groupId remote s.storage 0 s where
  count := by rw [h.uncounted]; rfl
  cursor := by
    rw [h.unread]
    simp [cursorAt, pagesRead, CursorPaging.cursor]
  tracks id := .inl rfl

omit [CultureJson] in
theorem Standing.since (h : Standing config groups groupId remote start k s) :
    sinceOf groupId s = cursorAt config groupId remote (pageOf k) := by
  unfold sinceOf pageOf
  rw [h.count, Nat.mod_add_mod, h.cursor]
  split_ifs with hfull
  · simp [cursorAt, CursorPaging.cursor]
  · rfl

section Distinct
variable (hdistinct : ((remote.groupItems groupId).map L2ItemRow.updatedAt).Nodup)
include hdistinct

omit [Sha256] [CultureJson] in
theorem listed_at (q : ℕ) :
    listedRows remote groupId (cursorAt config groupId remote q) (limit config) =
      ((ordered groupId remote).drop (q * limit config)).take (limit config) :=
  page_cursor hdistinct (limit config) q

theorem standing_succ {env : Surroundings}
    (hpeer : env.randomHotPeer groupId = some (.serving remote))
    (hempty : start.groupItems groupId = [])
    (h : Standing config groups groupId remote start k s) :
    Standing config groups groupId remote start (k + 1) (cycleGroup config env groups groupId s) := by
  obtain ⟨hstorage, hlast⟩ := cycleGroup_serving config groups hpeer s
  have hsince := h.since
  refine ⟨?_, ?_, ?_⟩
  · rw [cycleGroup_count, Option.getD_some, h.count, Nat.mod_add_mod]
  · rw [hlast, hsince, h.cursor, pagesRead_succ]
    unfold pageOf
    split_ifs with hfull
    · have hrestart := cursor_restart hdistinct (limit config) (pagesRead k)
      rw [show cursorAt config groupId remote 0 = none by simp [cursorAt, CursorPaging.cursor]]
      exact hrestart
    · exact cursor_succ hdistinct (limit config) (pagesRead k)
  · rw [hstorage, hsince]
    refine tracks_pulled env.dbNow _ h.tracks hempty (fun r hr => ?_)
    rw [listed_at hdistinct] at hr
    exact mem_take_of_page (pageOf_lt k) hr

variable {env : ℕ → Surroundings} (hpeer : Answered groupId remote env) (hfresh : Fresh groupId s)
include hpeer hfresh

theorem standing_cycles (k : ℕ) :
    Standing config groups groupId remote s.storage k (cycles config groups groupId env s k) := by
  induction k with
  | zero => exact standing_fresh hfresh
  | succ k ih => exact standing_succ hdistinct (hpeer k) hfresh.empty ih

theorem cycles_storage (k : ℕ) :
    (cycles config groups groupId env s (k + 1)).storage =
      pulled config.engine remote (cycles config groups groupId env s k).storage (env k).dbNow groupId
        groups (cursorAt config groupId remote (pageOf k)) (relayAcceptSet config groups) := by
  rw [← (standing_cycles hdistinct hpeer hfresh k).since]
  exact (cycleGroup_serving config groups (hpeer k) _).1

theorem holds_later {r : L2ItemRow} (hr : r ∈ remote.groupItems groupId) {j : ℕ}
    (h : Holds groupId (cycles config groups groupId env s j).storage r) (m : ℕ) :
    Holds groupId (cycles config groups groupId env s (j + m)).storage r := by
  induction m with
  | zero => exact h
  | succ m ih =>
    rw [← Nat.add_assoc, cycles_storage hdistinct hpeer hfresh]
    exact holds_pulled _ _ (standing_cycles hdistinct hpeer hfresh (j + m)).tracks hfresh.empty hr ih

/-- An accepted row on one of the first ten pages is held after nineteen cycles. -/
theorem holds_of_reach {r : L2ItemRow}
    (hr : r ∈ (ordered groupId remote).take (fullSyncEvery * limit config))
    (haccepted : Accepted config groups s.storage r) :
    Holds groupId (cycles config groups groupId env s 19).storage r := by
  obtain ⟨q, hq, hpage⟩ := exists_page_of_mem hr
  have hread : Holds groupId
      (cycles config groups groupId env s (fullSyncEvery - 1 + q + 1)).storage r := by
    rw [cycles_storage hdistinct hpeer hfresh, pageOf_after_full hq]
    refine holds_of_listed _ _ (standing_cycles hdistinct hpeer hfresh _).tracks hfresh.empty ?_
      haccepted
    rwa [listed_at hdistinct]
  have hlater := holds_later hdistinct hpeer hfresh (mem_remote_of_reach hr) hread (9 - q)
  unfold fullSyncEvery at hq hlater
  rwa [show 10 - 1 + q + 1 + (9 - q) = 19 by omega] at hlater

theorem reach_of_holds {r : L2ItemRow} (hr : r ∈ remote.groupItems groupId) {k : ℕ}
    (h : Holds groupId (cycles config groups groupId env s k).storage r) :
    r ∈ (ordered groupId remote).take (fullSyncEvery * limit config) ∧
      Accepted config groups s.storage r := by
  obtain ⟨l, hl, hsame⟩ := h
  have hid : l.id = r.id := congrArg FetchedItem.itemId hsame
  obtain ⟨hrow, hgroup⟩ := mem_groupItems.mp hl
  rcases (standing_cycles hdistinct hpeer hfresh k).tracks l.id with hstart | ⟨q, hq, hqid, hacc, _⟩
  · have hmem : l ∈ s.storage.groupItems groupId :=
      mem_groupItems.mpr ⟨hstart.symm.trans hrow, hgroup⟩
    rw [hfresh.empty] at hmem
    cases hmem
  · rw [← groupItems_id_inj (mem_remote_of_reach hq) hr (hqid.trans hid)]
    exact ⟨hq, hacc⟩

theorem length_of_covers {k : ℕ}
    (h : Covers groupId remote (cycles config groups groupId env s k).storage) :
    (remote.groupItems groupId).length ≤ fullSyncEvery * limit config := by
  have hnodup : (ordered groupId remote).Nodup :=
    (byStamp_strict hdistinct).imp (fun hlt heq => hlt.ne (congrArg L2ItemRow.updatedAt heq))
  have hreach : ∀ r ∈ ordered groupId remote,
      r ∈ (ordered groupId remote).take (fullSyncEvery * limit config) := by
    intro r hr
    have hmem := (mem_byStamp _).mp hr
    exact (reach_of_holds hdistinct hpeer hfresh hmem (h r hmem)).1
  exact ordered_length.symm.trans_le (length_le_of_mem_take hnodup hreach)

/-- The cycles reach every row of a fixed peer exactly when its group has at most
    ten pages and every row of it is acceptable at the start. -/
theorem covers_iff :
    (∃ k, Covers groupId remote (cycles config groups groupId env s k).storage) ↔
      (remote.groupItems groupId).length ≤ fullSyncEvery * limit config ∧
        ∀ r ∈ remote.groupItems groupId, Accepted config groups s.storage r := by
  constructor
  · rintro ⟨k, hcovers⟩
    refine ⟨length_of_covers hdistinct hpeer hfresh hcovers, fun r hr => ?_⟩
    exact (reach_of_holds hdistinct hpeer hfresh hr (hcovers r hr)).2
  · rintro ⟨hfits, haccepted⟩
    refine ⟨19, fun r hr => holds_of_reach hdistinct hpeer hfresh ?_ (haccepted r hr)⟩
    rw [List.take_of_length_le (ordered_length.trans_le hfits)]
    exact (mem_byStamp _).mpr hr

end Distinct
end Run
end Coverage

section Example
variable [Sha256]

def noteAt (stamp : String) : L2ItemRow :=
  receivedRow none stamp { noteVersion "" stamp with itemId := stamp }

def noteStore (stamps : List String) (h : stamps.Pairwise (· < ·)) : SqliteStorage :=
  { createNew with
    l2Items := {
      rows := stamps.map noteAt
      unique := List.pairwise_map.mpr (h.imp (fun hlt => hlt.ne))
      checked := by
        intro r hr
        obtain ⟨stamp, _, rfl⟩ := List.mem_map.mp hr
        exact (receivedRow_checks _ _ _).mpr (by decide : "learning" ∈ l2ItemTypes) } }

def pagingConfig : LoopConfig := ⟨⟨⟨900, 7, 1⟩, "russell"⟩, false, []⟩

def askingPeer (remote : SqliteStorage) (_ : ℕ) : Surroundings where
  instant := 0
  utcNow := "2026-02-09T00:00:00+00:00"
  dbNow := "2026-02-09 00:00:00"
  daysAgo _ := ("2026-02-02 00:00:00", "2026-02-02 00:00:00")
  activePeersForGroupOrRelays _ := []
  randomHotPeer _ := some (.serving remote)
  sharedGroups := ["seed-drill"]
  relayLearnedGroups := none

variable (stamps : List String) (h : stamps.Pairwise (· < ·))

theorem noteStore_groupItems : (noteStore stamps h).groupItems "seed-drill" = stamps.map noteAt := by
  refine List.filter_eq_self.mpr (fun r hr => ?_)
  obtain ⟨stamp, _, rfl⟩ := List.mem_map.mp hr
  exact decide_eq_true rfl

theorem noteStore_distinct :
    (((noteStore stamps h).groupItems "seed-drill").map L2ItemRow.updatedAt).Nodup := by
  rw [noteStore_groupItems, List.map_map]
  change (stamps.map id).Nodup
  rw [List.map_id]
  exact h.imp (fun hlt => hlt.ne)

omit [Sha256] in
theorem fresh_start : Fresh "seed-drill" (LoopState.start createNew) := ⟨rfl, rfl, rfl⟩

theorem noteStore_accepted : ∀ r ∈ (noteStore stamps h).groupItems "seed-drill",
    Accepted pagingConfig ["seed-drill"] createNew r := by
  intro r hr
  rw [noteStore_groupItems] at hr
  obtain ⟨stamp, _, rfl⟩ := List.mem_map.mp hr
  refine ⟨⟨(by decide : ([] : Bytes).length ≤ maxItemBytes),
    (by decide : groupAccepted ["seed-drill"] none "seed-drill" = true)⟩,
    ⟨beq_self_eq_true _, (by decide : "learning" ∈ l2ItemTypes)⟩, ?_⟩
  rintro e ⟨⟩

end Example

def elevenStamps : List String :=
  ["2026-02-01T00:00:01Z", "2026-02-01T00:00:02Z", "2026-02-01T00:00:03Z", "2026-02-01T00:00:04Z",
    "2026-02-01T00:00:05Z", "2026-02-01T00:00:06Z", "2026-02-01T00:00:07Z", "2026-02-01T00:00:08Z",
    "2026-02-01T00:00:09Z", "2026-02-01T00:00:10Z", "2026-02-01T00:00:11Z"]

theorem elevenStamps_sorted : elevenStamps.Pairwise (· < ·) := by decide

theorem elevenNotes_uncovered : ¬ ∃ (_ : Sha256) (_ : CultureJson),
    Answered "seed-drill" (noteStore elevenStamps elevenStamps_sorted)
        (askingPeer (noteStore elevenStamps elevenStamps_sorted)) →
      Fresh "seed-drill" (LoopState.start createNew) →
      (((noteStore elevenStamps elevenStamps_sorted).groupItems "seed-drill").map
        L2ItemRow.updatedAt).Nodup →
      (∀ r ∈ (noteStore elevenStamps elevenStamps_sorted).groupItems "seed-drill",
        Accepted pagingConfig ["seed-drill"] createNew r) →
      ∃ k, Covers "seed-drill" (noteStore elevenStamps elevenStamps_sorted)
        (cycles pagingConfig ["seed-drill"] "seed-drill"
          (askingPeer (noteStore elevenStamps elevenStamps_sorted)) (.start createNew) k).storage := by
  rintro ⟨_, _, h⟩
  have hdistinct := noteStore_distinct elevenStamps elevenStamps_sorted
  obtain ⟨k, hcovers⟩ := h (fun _ => rfl) fresh_start hdistinct (noteStore_accepted _ _)
  have hlength := length_of_covers hdistinct (fun _ => rfl) fresh_start hcovers
  rw [noteStore_groupItems, List.length_map] at hlength
  exact absurd hlength (by decide : ¬ elevenStamps.length ≤ fullSyncEvery * limit pagingConfig)

def twoStamps : List String := ["2026-02-01T00:00:01Z", "2026-02-01T00:00:02Z"]

theorem twoStamps_sorted : twoStamps.Pairwise (· < ·) := by decide

theorem twoNotes_covered :
    let := knownDigests
    let := bareCultures
    ∃ k, Covers "seed-drill" (noteStore twoStamps twoStamps_sorted)
      (cycles pagingConfig ["seed-drill"] "seed-drill"
        (askingPeer (noteStore twoStamps twoStamps_sorted)) (.start createNew) k).storage := by
  let := knownDigests
  let := bareCultures
  have hdistinct := noteStore_distinct twoStamps twoStamps_sorted
  refine (covers_iff hdistinct (fun _ => rfl) fresh_start).mpr ⟨?_, noteStore_accepted _ _⟩
  rw [noteStore_groupItems, List.length_map]
  exact (by decide : twoStamps.length ≤ fullSyncEvery * limit pagingConfig)

end CordeliaCore.SyncCoverage
