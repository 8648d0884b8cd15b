import CordeliaCore.ReceiveEffect
import Mathlib.Data.List.Dedup

set_option autoImplicit false

namespace CordeliaCore.ReceiveProgress
open CryptoPrimitives ProtocolMessages StorageRows StorageSqlite KeyedTable Replication
open ReplicationEngine SqliteStorage

structure Delivery where
  now : String
  item : FetchedItem
  ourGroups : List String
  relayAccepts : Option (String → Bool)

variable [Sha256]

def receive (db : SqliteStorage) (d : Delivery) : ReceiveOutcome × SqliteStorage :=
  onReceive db d.now d.item d.ourGroups d.relayAccepts

def outcomes : SqliteStorage → List Delivery → List (FetchedItem × ReceiveOutcome)
  | _, [] => []
  | db, d :: deliveries => (d.item, (receive db d).1) :: outcomes (receive db d).2 deliveries

def storedUnder (id : String) (o : FetchedItem × ReceiveOutcome) : Bool :=
  o.1.itemId = id && o.2 = .stored

/-- The stamps of the messages for an id that were stored, in order. -/
def storedStamps (id : String) (log : List (FetchedItem × ReceiveOutcome)) : List String :=
  (log.filter (storedUnder id)).map (·.1.updatedAt)

def stampsFor (id : String) (deliveries : List Delivery) : List String :=
  (deliveries.filter (fun d => d.item.itemId = id)).map (·.item.updatedAt)

/-- What one receive reports and what it does to the table. -/
structure Progresses (db : SqliteStorage) (d : Delivery) : Prop where
  stored_iff : (receive db d).1 = .stored ↔ (receive db d).2.l2Items ≠ db.l2Items
  ordinary : (receive db d).1 = .stored → d.item.itemType ≠ tombstoneType →
    ∃ row, (receive db d).2.l2Items.lookup d.item.itemId = some row ∧
      (db.l2Items.lookup d.item.itemId = none ∨
        ∃ old, db.l2Items.lookup d.item.itemId = some old ∧ old.updatedAt < row.updatedAt)
  tombstone : (receive db d).1 = .stored → d.item.itemType = tombstoneType →
    (db.l2Items.lookup d.item.itemId).isSome ∧
      (receive db d).2.l2Items.lookup d.item.itemId = none

section Receive
variable {db : SqliteStorage} {d : Delivery}

theorem erased_of_stored (hstored : (receive db d).1 = .stored)
    (htype : d.item.itemType = tombstoneType) :
    (db.l2Items.lookup d.item.itemId).isSome ∧
      (receive db d).2.l2Items.lookup d.item.itemId = none := by
  rcases (onReceive_stored_iff db d.now d.item d.ourGroups d.relayAccepts).mp hstored with
    ⟨herase, hsome⟩ | hwrite
  · refine ⟨hsome, ?_⟩
    unfold receive
    rw [onReceive_lookup, if_pos rfl, if_pos herase]
  · exact absurd htype hwrite.2.1.not_tombstone

/-- An ordinary item that is stored carries its own stamp, newer than the row's. -/
theorem written_of_stored (hstored : (receive db d).1 = .stored)
    (htype : d.item.itemType ≠ tombstoneType) :
    ∃ row, (receive db d).2.l2Items.lookup d.item.itemId = some row ∧
      row.updatedAt = d.item.updatedAt ∧
      ∀ old, db.l2Items.lookup d.item.itemId = some old → old.updatedAt < d.item.updatedAt := by
  rcases (onReceive_stored_iff db d.now d.item d.ourGroups d.relayAccepts).mp hstored with
    ⟨herase, -⟩ | hwrite
  · exact absurd herase.2 htype
  · refine ⟨receivedRow (db.l2Items.lookup d.item.itemId) d.now d.item, ?_, rfl, ?_⟩
    · exact onReceive_lookup_of_writes db d.now d.item d.ourGroups d.relayAccepts hwrite
    · intro old hold
      exact (hwrite.2.2 old hold).2

theorem changed_of_stored (hstored : (receive db d).1 = .stored) :
    (receive db d).2.l2Items ≠ db.l2Items := by
  intro hsame
  by_cases htype : d.item.itemType = tombstoneType
  · obtain ⟨hsome, hnone⟩ := erased_of_stored hstored htype
    rw [hsame] at hnone
    simp [hnone] at hsome
  · obtain ⟨row, hrow, hstamp, hnewer⟩ := written_of_stored hstored htype
    rw [hsame] at hrow
    exact lt_irrefl _ (hstamp ▸ hnewer row hrow)

theorem receive_progresses (db : SqliteStorage) (d : Delivery) : Progresses db d where
  stored_iff := by
    refine ⟨changed_of_stored, fun hchanged => ?_⟩
    by_contra hother
    apply hchanged
    unfold receive at hother ⊢
    rw [onReceive_of_not_stored db d.now d.item d.ourGroups d.relayAccepts hother]
  ordinary hstored htype := by
    obtain ⟨row, hrow, hstamp, hnewer⟩ := written_of_stored hstored htype
    refine ⟨row, hrow, ?_⟩
    cases hold : db.l2Items.lookup d.item.itemId with
    | none => exact .inl rfl
    | some old => exact .inr ⟨old, rfl, hstamp ▸ hnewer old hold⟩
  tombstone := erased_of_stored

theorem receive_keeps {id : String} (h : ¬ storedUnder id (d.item, (receive db d).1) = true) :
    (receive db d).2.l2Items.lookup id = db.l2Items.lookup id := by
  by_cases hid : d.item.itemId = id
  · have hother : (receive db d).1 ≠ .stored := fun hstored => h (by simp [storedUnder, hid, hstored])
    unfold receive at hother ⊢
    rw [onReceive_of_not_stored db d.now d.item d.ourGroups d.relayAccepts hother]
  · exact onReceive_lookup_of_ne db d.now d.item d.ourGroups d.relayAccepts (fun h => hid h.symm)

end Receive

section Runs

/-- The stored stamps rise from message to message, above the row at the start. -/
theorem storedStamps_rise {deliveries : List Delivery}
    (hordinary : ∀ d ∈ deliveries, d.item.itemType ≠ tombstoneType) (id : String) (db : SqliteStorage) :
    (storedStamps id (outcomes db deliveries)).Pairwise (· < ·) ∧
      ∀ t ∈ storedStamps id (outcomes db deliveries), ∀ row, db.l2Items.lookup id = some row →
        row.updatedAt < t := by
  induction deliveries generalizing db with
  | nil => exact ⟨.nil, by simp [outcomes, storedStamps]⟩
  | cons d deliveries ih =>
    obtain ⟨hrise, habove⟩ := ih (fun e he => hordinary e (List.mem_cons_of_mem d he)) (receive db d).2
    unfold outcomes
    by_cases hd : storedUnder id (d.item, (receive db d).1) = true
    · have hcons : storedStamps id ((d.item, (receive db d).1) :: outcomes (receive db d).2 deliveries) =
          d.item.updatedAt :: storedStamps id (outcomes (receive db d).2 deliveries) := by
        simp [storedStamps, hd]
      obtain ⟨rfl, hstored⟩ : d.item.itemId = id ∧ (receive db d).1 = .stored := by
        simpa [storedUnder] using hd
      obtain ⟨row, hrow, hstamp, hnewer⟩ := written_of_stored hstored (hordinary d (by simp))
      -- the row now has the message's stamp, and later ones are above it
      have hlater : ∀ t ∈ storedStamps d.item.itemId (outcomes (receive db d).2 deliveries),
          d.item.updatedAt < t := fun t ht => hstamp ▸ habove t ht row hrow
      rw [hcons]
      refine ⟨List.pairwise_cons.mpr ⟨hlater, hrise⟩, fun t ht old hold => ?_⟩
      rcases List.mem_cons.mp ht with rfl | ht
      · exact hnewer old hold
      · exact (hnewer old hold).trans (hlater t ht)
    · have hskip : storedStamps id ((d.item, (receive db d).1) :: outcomes (receive db d).2 deliveries) =
          storedStamps id (outcomes (receive db d).2 deliveries) := by
        simp [storedStamps, hd]
      rw [hskip]
      exact ⟨hrise, fun t ht row hrow => habove t ht row ((receive_keeps hd).trans hrow)⟩

theorem storedStamps_subset (id : String) (db : SqliteStorage) (deliveries : List Delivery) :
    storedStamps id (outcomes db deliveries) ⊆ stampsFor id deliveries := by
  induction deliveries generalizing db with
  | nil => exact List.Subset.refl _
  | cons d deliveries ih =>
    intro t ht
    obtain ⟨o, ho, rfl⟩ := List.mem_map.mp ht
    obtain ⟨hmem, hunder⟩ := List.mem_filter.mp ho
    rcases List.mem_cons.mp hmem with rfl | hlater
    · have hid : d.item.itemId = id := by
        simp only [storedUnder, Bool.and_eq_true, decide_eq_true_eq] at hunder
        exact hunder.1
      exact List.mem_map.mpr ⟨d, by simp [hid], rfl⟩
    · have hrest := ih (receive db d).2 (List.mem_map_of_mem (List.mem_filter.mpr ⟨hlater, hunder⟩))
      obtain ⟨e, he, hstamp⟩ := List.mem_map.mp hrest
      obtain ⟨hmem, hid⟩ := List.mem_filter.mp he
      exact List.mem_map.mpr
        ⟨e, List.mem_filter.mpr ⟨List.mem_cons_of_mem d hmem, hid⟩, hstamp⟩

end Runs

/-- Every receive reports what it does, and runs of ordinary items store no more often
    under an id than its messages have stamps. -/
theorem receives_progress :
    (∀ (db : SqliteStorage) (d : Delivery), Progresses db d) ∧
      ∀ (db : SqliteStorage) (deliveries : List Delivery) (id : String),
        (∀ d ∈ deliveries, d.item.itemType ≠ tombstoneType) →
          (outcomes db deliveries).countP (storedUnder id) ≤
            (stampsFor id deliveries).dedup.length := by
  refine ⟨receive_progresses, fun db deliveries id hordinary => ?_⟩
  have hnodup : (storedStamps id (outcomes db deliveries)).Nodup :=
    (storedStamps_rise hordinary id db).1.imp (fun hlt => hlt.ne)
  have hsubset : storedStamps id (outcomes db deliveries) ⊆ (stampsFor id deliveries).dedup :=
    fun t ht => List.mem_dedup.mpr (storedStamps_subset id db deliveries ht)
  have hlength : (storedStamps id (outcomes db deliveries)).length =
      (outcomes db deliveries).countP (storedUnder id) := by
    rw [storedStamps, List.length_map, List.countP_eq_length_filter]
  rw [← hlength]
  exact (List.subperm_of_subset hnodup hsubset).length_le

section Example

def noteDelivery (content updatedAt : String) : Delivery :=
  ⟨"2026-02-01 00:00:00", noteVersion content updatedAt, ["seed-drill"], none⟩

omit [Sha256] in
/-- A note sent back and forth between two versions is stored twice at most. -/
theorem resent_note_stored_twice_at_most :
    let := knownDigests
    let deliveries := [noteDelivery "a" "2026-02-01T00:00:01Z", noteDelivery "" "2026-02-01T00:00:02Z",
      noteDelivery "a" "2026-02-01T00:00:01Z", noteDelivery "" "2026-02-01T00:00:02Z"]
    (∀ d ∈ deliveries, d.item.itemType ≠ tombstoneType) ∧
      (outcomes createNew deliveries).countP (storedUnder "note-1") ≤ 2 := by
  intro _ deliveries
  have hordinary : ∀ d ∈ deliveries, d.item.itemType ≠ tombstoneType := by
    simp [deliveries, noteDelivery, noteVersion, tombstoneType]
  exact ⟨hordinary, receives_progress.2 createNew deliveries "note-1" hordinary⟩

end Example
end CordeliaCore.ReceiveProgress
