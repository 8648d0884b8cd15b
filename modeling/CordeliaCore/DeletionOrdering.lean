import CordeliaCore.ApiEffect
import CordeliaCore.ReceiveEffect
import CordeliaCore.StepRuns

set_option autoImplicit false

namespace CordeliaCore.DeletionOrdering
open CryptoPrimitives ProtocolMessages StorageRows StorageSqlite KeyedTable Replication Api
open ReplicationEngine SqliteStorage StepRuns

inductive Event where
  | localDelete (authorization : Option String) (itemId deletedAt : String)
  | receive (now : String) (item : FetchedItem) (ourGroups : List String)
      (relayAccepts : Option (String → Bool))

structure NodeRun where
  state : AppState SqliteStorage
  deletes : List (String × String)

def NodeRun.row (s : NodeRun) (id : String) : Option L2ItemRow := s.state.storage.l2Items.lookup id

section Ordering
variable [Sha256]

/-- An authorised local delete and an accepted tombstone are recorded, also when they
    find nothing to delete. -/
def step (s : NodeRun) : Event → NodeRun
  | .localDelete authorization id deletedAt =>
    { state := (l2Delete s.state authorization id).2
      deletes :=
        if (checkAuth s.state authorization).isNone then (id, deletedAt) :: s.deletes
        else s.deletes }
  | .receive now item ourGroups relayAccepts =>
    { state := { s.state with
        storage := (onReceive s.state.storage now item ourGroups relayAccepts).2 }
      deletes :=
        if Erases ourGroups relayAccepts item then (item.itemId, item.updatedAt) :: s.deletes
        else s.deletes }

/-- No version as old as a delete brings its id back. -/
def DeleteFinal (s : NodeRun) : Event → Prop
  | .localDelete _ _ _ => True
  | .receive now item ourGroups relayAccepts =>
    ∀ t, (item.itemId, t) ∈ s.deletes → item.updatedAt ≤ t → s.row item.itemId = none →
      (step s (.receive now item ourGroups relayAccepts)).row item.itemId = none

/-- A tombstone older than the stored row leaves the row in place. -/
def TombstoneOrdered (s : NodeRun) : Event → Prop
  | .localDelete _ _ _ => True
  | .receive now item ourGroups relayAccepts =>
    item.itemType = tombstoneType → ∀ row, s.row item.itemId = some row →
      item.updatedAt < row.updatedAt →
        (step s (.receive now item ourGroups relayAccepts)).row item.itemId = some row

/-- A storable version that finds its id absent is newer than all deletes of it, and an
    admitted tombstone is not older than the row it finds. -/
def ArrivesInOrder (s : NodeRun) : Event → Prop
  | .localDelete _ _ _ => True
  | .receive _ item ourGroups relayAccepts =>
    Admitted ourGroups relayAccepts item →
      (WellFormed item → s.row item.itemId = none →
        ∀ t, (item.itemId, t) ∈ s.deletes → t < item.updatedAt) ∧
      (item.itemType = tombstoneType → ∀ row, s.row item.itemId = some row →
        row.updatedAt ≤ item.updatedAt)

section Receive
variable (s : NodeRun) (now : String) (item : FetchedItem) (ourGroups : List String)
  (relayAccepts : Option (String → Bool))

theorem step_receive_row (id : String) :
    (step s (.receive now item ourGroups relayAccepts)).row id =
      if id = item.itemId then
        if Erases ourGroups relayAccepts item then none
        else if Writes ourGroups relayAccepts item (s.row id) then
          some (receivedRow (s.row id) now item)
        else s.row id
      else s.row id :=
  onReceive_lookup s.state.storage now item ourGroups relayAccepts id

theorem deleteFinal_receive_iff :
    DeleteFinal s (.receive now item ourGroups relayAccepts) ↔
      (Admitted ourGroups relayAccepts item → WellFormed item → s.row item.itemId = none →
        ∀ t, (item.itemId, t) ∈ s.deletes → t < item.updatedAt) := by
  constructor
  · intro h hadm hwell habsent t ht
    by_contra hnot
    -- an absent id lets every storable version in
    have hwrites : Writes ourGroups relayAccepts item (s.row item.itemId) :=
      ⟨hadm, hwell, by simp [habsent]⟩
    have hgone := h t ht (not_lt.mp hnot) habsent
    rw [step_receive_row, if_pos rfl, if_neg (fun he => hwell.not_tombstone he.2),
      if_pos hwrites] at hgone
    cases hgone
  · intro h t ht hold habsent
    rw [step_receive_row, if_pos rfl]
    split_ifs with herase hwrites
    · rfl
    · exact absurd (h hwrites.1 hwrites.2.1 habsent t ht) (not_lt.mpr hold)
    · exact habsent

theorem tombstoneOrdered_receive_iff :
    TombstoneOrdered s (.receive now item ourGroups relayAccepts) ↔
      (Admitted ourGroups relayAccepts item → item.itemType = tombstoneType →
        ∀ row, s.row item.itemId = some row → row.updatedAt ≤ item.updatedAt) := by
  constructor
  · intro h hadm htype row hrow
    by_contra hnot
    have hkept := h htype row hrow (not_le.mp hnot)
    rw [step_receive_row, if_pos rfl, if_pos ⟨hadm, htype⟩] at hkept
    cases hkept
  · intro h htype row hrow hold
    have herase : ¬ Erases ourGroups relayAccepts item := fun he =>
      absurd (h he.1 htype row hrow) (not_le.mpr hold)
    have hwrites : ¬ Writes ourGroups relayAccepts item (s.row item.itemId) := fun hw =>
      hw.2.1.not_tombstone htype
    rw [step_receive_row, if_pos rfl, if_neg herase, if_neg hwrites, hrow]

end Receive

theorem ordered_step_iff (s : NodeRun) (e : Event) :
    DeleteFinal s e ∧ TombstoneOrdered s e ↔ ArrivesInOrder s e := by
  cases e with
  | localDelete authorization id deletedAt => exact and_iff_left trivial
  | receive now item ourGroups relayAccepts =>
    rw [deleteFinal_receive_iff, tombstoneOrdered_receive_iff, ← imp_and]
    exact Iff.rfl

/-- Along every run, deletes are final and ordered exactly when the receives
    come in order. -/
theorem deletes_ordered_iff (s : NodeRun) (events : List Event) :
    Along step (fun s e => DeleteFinal s e ∧ TombstoneOrdered s e) s events ↔
      Along step ArrivesInOrder s events :=
  along_congr (I := fun _ => True) (fun _ _ _ _ => trivial)
    (fun s e _ => ordered_step_iff s e) trivial

end Ordering

section Example

def freshNode : NodeRun :=
  ⟨⟨createNew, "russell", "token", none, none, none⟩, []⟩

def redeliveredNote [Sha256] : List Event :=
  [.receive "2026-02-01 00:00:00" (noteVersion "a" "2026-02-01T00:00:00Z") ["seed-drill"] none,
    .localDelete (some "Bearer token") "note-1" "2026-02-02T00:00:00Z",
    .receive "2026-02-03 00:00:00" (noteVersion "a" "2026-02-01T00:00:00Z") ["seed-drill"] none]

theorem redeliveredNote_resurrected : ¬ ∃ _ : Sha256,
    Along step (fun s e => DeleteFinal s e ∧ TombstoneOrdered s e) freshNode redeliveredNote := by
  rintro ⟨_, h⟩
  obtain ⟨_, _, ⟨hfinal, _⟩, _⟩ := h
  have hadm : Admitted ["seed-drill"] none (noteVersion "a" "2026-02-01T00:00:00Z") :=
    ⟨(by decide : (asBytes "a").length ≤ maxItemBytes),
      (by decide : groupAccepted ["seed-drill"] none "seed-drill" = true)⟩
  have hwell := noteVersion_wellFormed "a" "2026-02-01T00:00:00Z"
  set arrived := step freshNode (.receive "2026-02-01 00:00:00"
    (noteVersion "a" "2026-02-01T00:00:00Z") ["seed-drill"] none)
  have hauth : checkAuth arrived.state (some "Bearer token") = none :=
    if_neg (not_not.mpr (by decide : "Bearer token" = "Bearer " ++ "token"))
  have hgone : (l2Delete arrived.state (some "Bearer token") "note-1").2.storage.l2Items.lookup
      "note-1" = none := by
    rw [l2Delete_lookup hauth, if_pos rfl]
  have hrecorded : ("note-1", "2026-02-02T00:00:00Z") ∈
      (step arrived (.localDelete (some "Bearer token") "note-1" "2026-02-02T00:00:00Z")).deletes := by
    change _ ∈ if (checkAuth arrived.state (some "Bearer token")).isNone = true then
      ("note-1", "2026-02-02T00:00:00Z") :: arrived.deletes else arrived.deletes
    rw [hauth]
    exact List.mem_cons_self
  have hlate := (deleteFinal_receive_iff _ _ _ _ _).mp hfinal hadm hwell hgone _ hrecorded
  exact absurd hlate (by decide : ¬ "2026-02-02T00:00:00Z" < "2026-02-01T00:00:00Z")

end Example
end CordeliaCore.DeletionOrdering
