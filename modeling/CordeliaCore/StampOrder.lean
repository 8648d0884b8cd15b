import CordeliaCore.ReceiveEffect
import CordeliaCore.Timestamps

set_option autoImplicit false

namespace CordeliaCore.StampOrder
open CryptoPrimitives ProtocolMessages StorageRows StorageSqlite Replication ReplicationEngine
open SqliteStorage Timestamps

def StampsInOrder (s t : Instant) : Prop := s.datetime < t.toRfc3339 ∧ s.toRfc3339 < t.datetime

/-- One of two writes has the stamp of its store, the other that of its push. -/
def Stamped (s t : Instant) (older newer : String) : Prop :=
  older = s.datetime ∧ newer = t.toRfc3339 ∨ older = s.toRfc3339 ∧ newer = t.datetime

def NewerStays [Sha256] (s t : Instant) : Prop :=
  ∀ (db : SqliteStorage) (now : String) (item : FetchedItem) (ourGroups : List String)
    (relayAccepts : Option (String → Bool)) (row : L2ItemRow),
    db.l2Items.lookup item.itemId = some row → item.itemType ≠ tombstoneType →
      Stamped s t item.updatedAt row.updatedAt →
        (onReceive db now item ourGroups relayAccepts).2.l2Items.lookup item.itemId = some row

theorem stampsInOrder_iff {s t : Instant} : StampsInOrder s t ↔ s.day < t.day := by
  unfold StampsInOrder
  rw [Instant.datetime_lt_toRfc3339_iff, Instant.toRfc3339_lt_datetime_iff]
  omega

section Receive
variable [Sha256] {s t : Instant}

theorem newerStays_of_day_lt (h : s.day < t.day) : NewerStays s t := by
  intro db now item ourGroups relayAccepts row hrow htype hstamps
  obtain ⟨hstore, hpush⟩ := stampsInOrder_iff.mpr h
  have holder : item.updatedAt < row.updatedAt := by
    rcases hstamps with ⟨hold, hnew⟩ | ⟨hold, hnew⟩
    · rw [hold, hnew]
      exact hstore
    · rw [hold, hnew]
      exact hpush
  have hwrite : ¬ Writes ourGroups relayAccepts item (some row) := fun hw =>
    lt_asymm holder (hw.2.2 row rfl).2
  rw [onReceive_lookup, if_pos rfl, if_neg (fun he => htype he.2), hrow, if_neg hwrite]

/-- On one day a push replaces what a store wrote after it. -/
theorem replaced_of_day_le (h : t.day ≤ s.day) {db : SqliteStorage} (now : String)
    (item : FetchedItem) {ourGroups : List String} {relayAccepts : Option (String → Bool)}
    {row : L2ItemRow} (hrow : db.l2Items.lookup item.itemId = some row)
    (hadm : Admitted ourGroups relayAccepts item) (hwell : WellFormed item)
    (hsum : row.checksum ≠ some item.checksum) (hitem : item.updatedAt = s.toRfc3339)
    (hstored : row.updatedAt = t.datetime) :
    (onReceive db now item ourGroups relayAccepts).2.l2Items.lookup item.itemId =
      some (receivedRow (some row) now item) := by
  have hnew : row.updatedAt < item.updatedAt := by
    rw [hitem, hstored]
    exact (t.datetime_lt_toRfc3339_iff s).mpr h
  have hwrite : Writes ourGroups relayAccepts item (db.l2Items.lookup item.itemId) := by
    refine ⟨hadm, hwell, fun e he => ?_⟩
    rw [hrow] at he
    cases he
    exact ⟨hsum, hnew⟩
  rw [onReceive_lookup_of_writes db now item ourGroups relayAccepts hwrite, hrow]

def unsummedRow (stamp : String) : L2ItemRow :=
  { receivedRow none stamp (noteVersion "a" stamp) with checksum := none }

theorem not_newerStays_of_day_le (h : t.day ≤ s.day) : ¬ NewerStays s t := by
  intro hstays
  have hchecks : L2Checks (unsummedRow t.datetime) :=
    (receivedRow_checks none t.datetime (noteVersion "a" t.datetime)).mpr
      (noteVersion_wellFormed "a" t.datetime).2
  let db : SqliteStorage :=
    { createNew with l2Items := createNew.l2Items.put (unsummedRow t.datetime) hchecks }
  have hrow : db.l2Items.lookup "note-1" = some (unsummedRow t.datetime) :=
    createNew.l2Items.lookup_put_self _ hchecks
  have hsize : (asBytes "a").length ≤ maxItemBytes := by decide
  have hadm : Admitted [] (some fun _ => true) (noteVersion "a" s.toRfc3339) := ⟨hsize, rfl⟩
  have hreplaced := replaced_of_day_le h s.toRfc3339 (noteVersion "a" s.toRfc3339) hrow hadm
    (noteVersion_wellFormed "a" s.toRfc3339) (by simp [unsummedRow]) rfl rfl
  have hkept := hstays db s.toRfc3339 (noteVersion "a" s.toRfc3339) [] (some fun _ => true)
    (unsummedRow t.datetime) hrow (noteVersion_wellFormed "a" _).not_tombstone (.inr ⟨rfl, rfl⟩)
  have hsame := Option.some.inj (hkept.symm.trans hreplaced)
  exact t.datetime_ne_toRfc3339 s (congrArg L2ItemRow.updatedAt hsame)

/-- Two writes a second or more apart are ordered by their stamps, and kept in that
    order by `on_receive`, just when they fall on different UTC days. -/
theorem stamps_chronological_iff (hapart : s.nanos + nanosPerSec ≤ t.nanos) :
    (StampsInOrder s t ↔ s.day ≠ t.day) ∧ (NewerStays s t ↔ s.day ≠ t.day) := by
  have hle : s.day ≤ t.day :=
    Nat.div_le_div_right (Nat.div_le_div_right (le_of_add_le_left hapart))
  have hne : s.day ≠ t.day ↔ s.day < t.day := by omega
  rw [hne]
  refine ⟨stampsInOrder_iff, fun h => ?_, newerStays_of_day_lt⟩
  by_contra hday
  exact not_newerStays_of_day_le (not_lt.mp hday) h

end Receive

def fiveSecondsLater : Instant := .ofUnix 1769940005 (by decide)

theorem same_day : fiveSecondsLater.day ≤ Instant.tenOClock.day := by
  unfold fiveSecondsLater Instant.tenOClock
  rw [Instant.day_ofUnix, Instant.day_ofUnix]
  decide

/-- The store has the version of five seconds later when the push of ten o'clock
    arrives, and takes the push. -/
theorem older_push_replaces_newer_write :
    let := knownDigests
    let db := (onReceive createNew fiveSecondsLater.datetime
      (noteVersion "a" fiveSecondsLater.datetime) ["seed-drill"] none).2
    Instant.tenOClock.nanos + nanosPerSec ≤ fiveSecondsLater.nanos ∧
      ¬ Instant.tenOClock.toRfc3339 < fiveSecondsLater.datetime ∧
      (db.l2Items.lookup "note-1").map L2ItemRow.data = some (asBytes "a") ∧
      ((onReceive db fiveSecondsLater.datetime (noteVersion "" Instant.tenOClock.toRfc3339)
        ["seed-drill"] none).2.l2Items.lookup "note-1").map L2ItemRow.data = some (asBytes "") := by
  intro _ db
  have hsizes : (asBytes "a").length ≤ maxItemBytes ∧ (asBytes "").length ≤ maxItemBytes := by decide
  have hgroup : groupAccepted ["seed-drill"] none "seed-drill" = true := by decide
  have hfirst : Writes ["seed-drill"] none (noteVersion "a" fiveSecondsLater.datetime) none :=
    ⟨⟨hsizes.1, hgroup⟩, noteVersion_wellFormed _ _, by simp⟩
  have hrow : db.l2Items.lookup "note-1" = some (receivedRow none fiveSecondsLater.datetime
      (noteVersion "a" fiveSecondsLater.datetime)) :=
    onReceive_lookup_of_writes createNew fiveSecondsLater.datetime
      (noteVersion "a" fiveSecondsLater.datetime) ["seed-drill"] none hfirst
  have hsum : some (Replication.checksum (asBytes "a")) ≠ some (Replication.checksum (asBytes "")) :=
    fun hsame => note_checksums_differ (Option.some.inj hsame)
  have hadm : Admitted ["seed-drill"] none (noteVersion "" Instant.tenOClock.toRfc3339) :=
    ⟨hsizes.2, hgroup⟩
  have hreplaced := replaced_of_day_le same_day fiveSecondsLater.datetime
    (noteVersion "" Instant.tenOClock.toRfc3339) hrow hadm (noteVersion_wellFormed _ _) hsum rfl rfl
  have hmisordered : ¬ Instant.tenOClock.toRfc3339 < fiveSecondsLater.datetime := by
    rw [Instant.toRfc3339_lt_datetime_iff]
    exact not_lt.mpr same_day
  refine ⟨by decide, hmisordered, ?_, ?_⟩
  · rw [hrow]
    rfl
  · exact congrArg (Option.map L2ItemRow.data) hreplaced

def nextMorning : Instant := .ofUnix 1770026400 (by decide)

theorem next_morning_is_newer :
    let := knownDigests
    Instant.tenOClock.day ≠ nextMorning.day ∧ StampsInOrder Instant.tenOClock nextMorning ∧
      NewerStays Instant.tenOClock nextMorning := by
  intro _
  have hday : Instant.tenOClock.day ≠ nextMorning.day := by
    unfold Instant.tenOClock nextMorning
    rw [Instant.day_ofUnix, Instant.day_ofUnix]
    decide
  have hiff := stamps_chronological_iff
    (show Instant.tenOClock.nanos + nanosPerSec ≤ nextMorning.nanos by decide)
  exact ⟨hday, hiff.1.mpr hday, hiff.2.mpr hday⟩

end CordeliaCore.StampOrder
