import CordeliaCore.DedupRegister
import CordeliaCore.ReceiveEffect

set_option autoImplicit false

namespace CordeliaCore.ReceiveConvergence
open CryptoPrimitives ProtocolMessages StorageRows StorageSqlite KeyedTable Replication
open ReplicationEngine SqliteStorage DedupRegister

section Simulation
variable [Sha256] (ourGroups : List String) (relayAccepts : Option (String → Bool))

def deliverAll (db : SqliteStorage) (deliveries : List (String × FetchedItem)) : SqliteStorage :=
  deliveries.foldl (fun db d => (onReceive db d.1 d.2 ourGroups relayAccepts).2) db

def Carries (row : L2ItemRow) (item : FetchedItem) : Prop :=
  row.data = item.encryptedBlob ∧ row.checksum = some item.checksum ∧
    row.updatedAt = item.updatedAt

def Represents (row : Option L2ItemRow) (reg : Option FetchedItem) : Prop :=
  Option.Rel Carries row reg

theorem receivedRow_carries (existing : Option L2ItemRow) (now : String) {item : FetchedItem}
    (h : WellFormed item) : Carries (receivedRow existing now item) item := by
  refine ⟨rfl, ?_, rfl⟩
  have hsum : Replication.checksum item.encryptedBlob = item.checksum := by
    simpa only [validateChecksum, beq_iff_eq] using h.1
  exact congrArg some hsum

omit [Sha256] in
theorem supersedes_iff {row : L2ItemRow} {held item : FetchedItem} (h : Carries row held) :
    Supersedes item row ↔ held.checksum ≠ item.checksum ∧ held.updatedAt < item.updatedAt := by
  unfold Supersedes
  rw [h.2.1, h.2.2, ne_eq, Option.some.injEq]

theorem writes_iff_overwrites {row : Option L2ItemRow} {reg : Option FetchedItem} {item : FetchedItem}
    (h : Represents row reg) (hadm : Admitted ourGroups relayAccepts item)
    (hwell : WellFormed item) :
    Writes ourGroups relayAccepts item row ↔
      Overwrites FetchedItem.updatedAt FetchedItem.checksum reg item := by
  have hreg : (∀ e ∈ row, Supersedes item e) ↔
      Overwrites FetchedItem.updatedAt FetchedItem.checksum reg item := by
    cases h with
    | none => simp [Overwrites]
    | some hc =>
      unfold Overwrites
      simp only [Option.mem_def, Option.some.injEq, forall_eq']
      exact supersedes_iff hc
  unfold Writes
  rw [hreg]
  exact ⟨fun hw => hw.2.2, fun ha => ⟨hadm, hwell, ha⟩⟩

theorem onReceive_represents {db : SqliteStorage} {reg : Option FetchedItem} {id : String}
    (now : String) {item : FetchedItem} (h : Represents (db.l2Items.lookup id) reg)
    (hid : item.itemId = id) (hadm : Admitted ourGroups relayAccepts item)
    (hwell : WellFormed item) :
    Represents ((onReceive db now item ourGroups relayAccepts).2.l2Items.lookup id)
      (deliver FetchedItem.updatedAt FetchedItem.checksum reg item) := by
  have herase : ¬ Erases ourGroups relayAccepts item := fun he => hwell.not_tombstone he.2
  have hiff := writes_iff_overwrites ourGroups relayAccepts h hadm hwell
  rw [onReceive_lookup, if_pos hid.symm, if_neg herase]
  unfold deliver
  by_cases hw : Writes ourGroups relayAccepts item (db.l2Items.lookup id)
  · rw [if_pos hw, if_pos (hiff.mp hw)]
    exact .some (receivedRow_carries _ now hwell)
  · rw [if_neg hw, if_neg (fun ha => hw (hiff.mpr ha))]
    exact h

def deliveredUnder (id : String) (deliveries : List (String × FetchedItem)) : List FetchedItem :=
  (deliveries.map Prod.snd).filter (fun i => i.itemId = id)

theorem lookup_represents (id : String) (deliveries : List (String × FetchedItem))
    {db : SqliteStorage} {reg : Option FetchedItem} (h : Represents (db.l2Items.lookup id) reg)
    (hadm : ∀ d ∈ deliveries, Admitted ourGroups relayAccepts d.2)
    (hwell : ∀ d ∈ deliveries, WellFormed d.2) :
    Represents ((deliverAll ourGroups relayAccepts db deliveries).l2Items.lookup id)
      (run FetchedItem.updatedAt FetchedItem.checksum reg (deliveredUnder id deliveries)) := by
  induction deliveries generalizing db reg with
  | nil => exact h
  | cons d deliveries ih =>
    have hadm' := fun e he => hadm e (List.mem_cons_of_mem d he)
    have hwell' := fun e he => hwell e (List.mem_cons_of_mem d he)
    by_cases hid : d.2.itemId = id
    · have hcons : deliveredUnder id (d :: deliveries) = d.2 :: deliveredUnder id deliveries := by
        simp [deliveredUnder, hid]
      rw [hcons, run_cons]
      exact ih (onReceive_represents ourGroups relayAccepts d.1 h hid (hadm d (by simp))
        (hwell d (by simp))) hadm' hwell'
    · have hcons : deliveredUnder id (d :: deliveries) = deliveredUnder id deliveries := by
        simp [deliveredUnder, hid]
      rw [hcons]
      refine ih ?_ hadm' hwell'
      rw [onReceive_lookup_of_ne db d.1 d.2 ourGroups relayAccepts (fun he => hid he.symm)]
      exact h

end Simulation

section Convergence
variable [Sha256] {ourGroups : List String} {relayAccepts : Option (String → Bool)}
  {items : List FetchedItem}

/-- Accepted, well-formed items, no two versions of one id with the same stamp. -/
structure Deliverable (ourGroups : List String) (relayAccepts : Option (String → Bool))
    (items : List FetchedItem) : Prop where
  admitted : ∀ i ∈ items, Admitted ourGroups relayAccepts i
  wellFormed : ∀ i ∈ items, WellFormed i
  distinct : ∀ i ∈ items, ∀ j ∈ items, i.itemId = j.itemId → i.updatedAt = j.updatedAt → i = j

/-- Each item arrives at least once, in any order, and nothing else arrives. -/
def Delivers (items : List FetchedItem) (deliveries : List (String × FetchedItem)) : Prop :=
  ∀ i, i ∈ deliveries.map Prod.snd ↔ i ∈ items

def Newest (items : List FetchedItem) (m : FetchedItem) : Prop :=
  m ∈ items ∧ ∀ i ∈ items, i.itemId = m.itemId → i.updatedAt ≤ m.updatedAt

/-- Whatever the deliveries, an empty store ends with the newest item of each id. -/
def Converges (ourGroups : List String) (relayAccepts : Option (String → Bool))
    (items : List FetchedItem) : Prop :=
  ∀ deliveries, Delivers items deliveries → ∀ m, Newest items m →
    ∃ row, (deliverAll ourGroups relayAccepts createNew deliveries).l2Items.lookup m.itemId =
      some row ∧ Carries row m

/-- The newest version of an id shares its checksum with no other version. -/
def NewestUnshared (items : List FetchedItem) : Prop :=
  ∀ m, Newest items m → ∀ i ∈ items, i.itemId = m.itemId → i.checksum = m.checksum → i = m

def versionsOf (id : String) (items : List FetchedItem) : List FetchedItem :=
  items.filter (fun i => i.itemId = id)

omit [Sha256] in
theorem mem_versionsOf {id : String} {i : FetchedItem} :
    i ∈ versionsOf id items ↔ i ∈ items ∧ i.itemId = id := by
  simp [versionsOf]

omit [Sha256] in
/-- For one id, a delivery of the items is a delivery of its versions to the register. -/
theorem deliveredUnder_covers {deliveries : List (String × FetchedItem)}
    (h : Delivers items deliveries) (id : String) (i : FetchedItem) :
    i ∈ deliveredUnder id deliveries ↔ i ∈ versionsOf id items := by
  unfold deliveredUnder
  rw [List.mem_filter, h i, mem_versionsOf, decide_eq_true_eq]

theorem delivered_represents (h : Deliverable ourGroups relayAccepts items)
    {deliveries : List (String × FetchedItem)} (hd : Delivers items deliveries) (id : String) :
    Represents ((deliverAll ourGroups relayAccepts createNew deliveries).l2Items.lookup id)
      (run FetchedItem.updatedAt FetchedItem.checksum none (deliveredUnder id deliveries)) := by
  have hmem : ∀ d ∈ deliveries, d.2 ∈ items := fun d he =>
    (hd d.2).mp (List.mem_map_of_mem he)
  exact lookup_represents ourGroups relayAccepts id deliveries .none
    (fun d he => h.admitted _ (hmem d he)) (fun d he => h.wellFormed _ (hmem d he))

theorem newest_versions {m : FetchedItem} (h : Deliverable ourGroups relayAccepts items)
    (hm : Newest items m) : m ∈ versionsOf m.itemId items ∧
      (∀ i ∈ versionsOf m.itemId items, i.updatedAt ≤ m.updatedAt) ∧
      (∀ i ∈ versionsOf m.itemId items, i.updatedAt = m.updatedAt → i = m) := by
  refine ⟨mem_versionsOf.mpr ⟨hm.1, rfl⟩, ?_, ?_⟩
  · intro i hi
    obtain ⟨hiS, hid⟩ := mem_versionsOf.mp hi
    exact hm.2 i hiS hid
  · intro i hi hs
    obtain ⟨hiS, hid⟩ := mem_versionsOf.mp hi
    exact h.distinct i hiS m hm.1 hid hs

theorem converges_of_unshared (h : Deliverable ourGroups relayAccepts items)
    (hu : NewestUnshared items) : Converges ourGroups relayAccepts items := by
  intro deliveries hd m hm
  obtain ⟨hmem, hmax, hinj⟩ := newest_versions h hm
  have hrun := run_of_unshared hmem hmax hinj
    (fun i hi ht => hu m hm i (mem_versionsOf.mp hi).1 (mem_versionsOf.mp hi).2 ht)
    (deliveredUnder m.itemId deliveries) (deliveredUnder_covers hd m.itemId)
  have hrep := delivered_represents h hd m.itemId
  rw [hrun] at hrep
  generalize (deliverAll ourGroups relayAccepts createNew deliveries).l2Items.lookup m.itemId = row
    at hrep ⊢
  cases hrep with
  | some hc => exact ⟨_, rfl, hc⟩

omit [Sha256] in
/-- A register delivery of one id's versions extends to a delivery of all items. -/
theorem exists_delivery (now id : String) (versions : List FetchedItem)
    (hcover : ∀ i, i ∈ versions ↔ i ∈ versionsOf id items) :
    ∃ deliveries, Delivers items deliveries ∧ deliveredUnder id deliveries = versions := by
  let others := items.filter (fun i => i.itemId ≠ id)
  have hmap : ((versions ++ others).map (fun i => (now, i))).map Prod.snd = versions ++ others := by
    simp [Function.comp_def]
  refine ⟨(versions ++ others).map (fun i => (now, i)), ?_, ?_⟩
  · intro i
    rw [hmap, List.mem_append, hcover, mem_versionsOf, List.mem_filter, decide_eq_true_eq]
    by_cases hid : i.itemId = id <;> simp [hid]
  · unfold deliveredUnder
    rw [hmap, List.filter_append]
    have hall : versions.filter (fun i => i.itemId = id) = versions := by
      rw [List.filter_eq_self]
      intro i hi
      simpa using (mem_versionsOf.mp ((hcover i).mp hi)).2
    have hnone : others.filter (fun i => i.itemId = id) = [] := by
      rw [List.filter_eq_nil_iff]
      intro i hi
      simpa using (List.mem_filter.mp hi).2
    rw [hall, hnone, List.append_nil]

theorem unshared_of_converges (h : Deliverable ourGroups relayAccepts items)
    (hc : Converges ourGroups relayAccepts items) : NewestUnshared items := by
  intro m hm i hi hid hsum
  by_contra hne
  obtain ⟨hmem, _, hinj⟩ := newest_versions h hm
  obtain ⟨versions, hcover, hrun⟩ :=
    run_of_shared hmem hinj (mem_versionsOf.mpr ⟨hi, hid⟩) hne hsum
  obtain ⟨deliveries, hd, hunder⟩ := exists_delivery "" m.itemId versions hcover
  obtain ⟨row, hrow, hcarries⟩ := hc deliveries hd m hm
  have hrep := delivered_represents h hd m.itemId
  rw [hunder, hrow] at hrep
  generalize hreg : run FetchedItem.updatedAt FetchedItem.checksum none versions = reg at hrep hrun
  cases hrep with
  | @some _ held hheld =>
    -- a row stands for one stamp, and the stamp singles out the version
    have hsame : held.updatedAt = m.updatedAt := hheld.2.2.symm.trans hcarries.2.2
    have hfrom : held ∈ versionsOf m.itemId items := by
      refine (hcover held).mp ?_
      rcases run_mem versions hreg with hin | hin
      · exact hin
      · simp at hin
    exact hrun (congrArg some (hinj held hfrom hsame))

/-- Receives converge to the newest version of every id, in every order and
    with any repetition, exactly when no newest version shares its checksum. -/
theorem converges_iff (h : Deliverable ourGroups relayAccepts items) :
    Converges ourGroups relayAccepts items ↔ NewestUnshared items :=
  ⟨unshared_of_converges h, converges_of_unshared h⟩

end Convergence

section Example

def noteHistory [Sha256] (versions : List (String × String)) : List FetchedItem :=
  versions.map (fun v => noteVersion v.1 v.2)

theorem noteHistory_deliverable [Sha256] {versions : List (String × String)}
    (hsize : ∀ v ∈ versions, (asBytes v.1).length ≤ maxItemBytes)
    (hdistinct : ∀ v ∈ versions, ∀ w ∈ versions, v.2 = w.2 → v = w) :
    Deliverable ["seed-drill"] none (noteHistory versions) where
  admitted i hi := by
    obtain ⟨v, hv, rfl⟩ := List.mem_map.mp hi
    exact ⟨hsize v hv, (by decide : groupAccepted ["seed-drill"] none "seed-drill" = true)⟩
  wellFormed i hi := by
    obtain ⟨v, _, rfl⟩ := List.mem_map.mp hi
    exact noteVersion_wellFormed v.1 v.2
  distinct i hi j hj _ hs := by
    obtain ⟨v, hv, rfl⟩ := List.mem_map.mp hi
    obtain ⟨w, hw, rfl⟩ := List.mem_map.mp hj
    rw [hdistinct v hv w hw hs]

def revertedNote : List (String × String) :=
  [("a", "2026-02-01T00:00:00Z"), ("", "2026-02-02T00:00:00Z"), ("a", "2026-02-03T00:00:00Z")]

theorem revertedNote_lost : ¬ ∃ _ : Sha256,
    Deliverable ["seed-drill"] none (noteHistory revertedNote) →
      Converges ["seed-drill"] none (noteHistory revertedNote) := by
  rintro ⟨_, h⟩
  have hdeliver : Deliverable ["seed-drill"] none (noteHistory revertedNote) :=
    noteHistory_deliverable (by decide) (by decide)
  have hu := unshared_of_converges hdeliver (h hdeliver)
  have hnewest : Newest (noteHistory revertedNote) (noteVersion "a" "2026-02-03T00:00:00Z") := by
    refine ⟨by simp [noteHistory, revertedNote], ?_⟩
    intro i hi _
    obtain ⟨v, hv, rfl⟩ := List.mem_map.mp hi
    exact (by decide : ∀ v ∈ revertedNote, v.2 ≤ "2026-02-03T00:00:00Z") v hv
  have hsame := hu _ hnewest (noteVersion "a" "2026-02-01T00:00:00Z")
    (by simp [noteHistory, revertedNote]) rfl rfl
  exact absurd (congrArg FetchedItem.updatedAt hsame)
    (by decide : "2026-02-01T00:00:00Z" ≠ "2026-02-03T00:00:00Z")

def editedNote : List (String × String) :=
  [("a", "2026-02-01T00:00:00Z"), ("", "2026-02-02T00:00:00Z")]

theorem editedNote_converges :
    @Converges knownDigests ["seed-drill"] none (@noteHistory knownDigests editedNote) := by
  let := knownDigests
  refine (converges_iff (noteHistory_deliverable (by decide) (by decide))).mpr ?_
  have hsums : ∀ v ∈ editedNote, ∀ w ∈ editedNote,
      Replication.checksum (asBytes v.1) = Replication.checksum (asBytes w.1) → v = w := by
    simp [editedNote, note_checksums_differ, note_checksums_differ.symm]
  intro m hm i hi _ hsum
  obtain ⟨v, hv, rfl⟩ := List.mem_map.mp hm.1
  obtain ⟨w, hw, rfl⟩ := List.mem_map.mp hi
  rw [hsums w hw v hv hsum]

end Example
end CordeliaCore.ReceiveConvergence
