import CordeliaCore.BatchSplitting
import CordeliaCore.SwarmHandlers
import CordeliaCore.TextEncodings
import Mathlib.Algebra.Group.Action.Defs
import Mathlib.Algebra.Order.BigOperators.Group.List

set_option autoImplicit false

namespace CordeliaCore.WireSizes
open CryptoPrimitives ProtocolMessages StorageRows StorageSqlite Replication ReplicationLoop Swarm
open KeyedTable TextEncodings

section Texts

def fetchedItemJson (item : FetchedItem) : Bytes :=
  jsonObject
    [(asBytes "item_id", jsonString (asBytes item.itemId)),
      (asBytes "item_type", jsonString (asBytes item.itemType)),
      (asBytes "encrypted_blob", jsonString (base64 item.encryptedBlob)),
      (asBytes "checksum", jsonString (asBytes item.checksum)),
      (asBytes "author_id", jsonString (asBytes item.authorId)),
      (asBytes "group_id", jsonString (asBytes item.groupId)),
      (asBytes "key_version", asBytes (toString item.keyVersion.toNat)),
      (asBytes "parent_id", item.parentId.elim (asBytes "null") (fun id => jsonString (asBytes id))),
      (asBytes "is_copy", asBytes (if item.isCopy then "true" else "false")),
      (asBytes "updated_at", jsonString (asBytes item.updatedAt))]

/-- Both messages have the items as their only field. -/
def itemsJson (items : List FetchedItem) : Bytes :=
  jsonObject [(asBytes "items", jsonArray (items.map fetchedItemJson))]

def memoryPushRequestJson (req : MemoryPushRequest) : Bytes := itemsJson req.items

def fetchResponseJson (resp : FetchResponse) : Bytes := itemsJson resp.items

def textSize (s : String) : ℕ := stringSize (asBytes s)

/-- The bytes that an item adds to a message, its comma with them. -/
def wireSize (item : FetchedItem) : ℕ :=
  134 + textSize item.itemId + textSize item.itemType +
    (2 + (item.encryptedBlob.length + 2) / 3 * 4) + textSize item.checksum + textSize item.authorId +
    textSize item.groupId + (asBytes (toString item.keyVersion.toNat)).length +
    item.parentId.elim 4 textSize + (if item.isCopy then 4 else 5) + textSize item.updatedAt

def messageSize (items : List FetchedItem) : ℕ := 11 + (items.map wireSize).sum

theorem length_fetchedItemJson (item : FetchedItem) :
    (fetchedItemJson item).length + 1 = wireSize item := by
  have hparent : (item.parentId.elim (asBytes "null") (fun id => jsonString (asBytes id))).length =
      item.parentId.elim 4 textSize := by
    cases item.parentId with
    | none => rfl
    | some id => exact length_jsonString (asBytes id)
  have hcopy : (asBytes (if item.isCopy then "true" else "false")).length =
      if item.isCopy then 4 else 5 := by
    cases item.isCopy <;> rfl
  have htext : ∀ s, stringSize (asBytes s) = textSize s := fun _ => rfl
  have hnames : textSize "item_id" + textSize "item_type" + textSize "encrypted_blob" +
      textSize "checksum" + textSize "author_id" + textSize "group_id" + textSize "key_version" +
      textSize "parent_id" + textSize "is_copy" + textSize "updated_at" = 112 := by
    decide +kernel
  unfold fetchedItemJson wireSize
  rw [length_jsonObject]
  simp only [List.map_cons, List.map_nil, List.sum_cons, List.sum_nil, length_jsonString,
    stringSize_base64, htext, hparent, hcopy]
  omega

theorem length_itemsJson (items : List FetchedItem) :
    (itemsJson items).length = if items = [] then 12 else messageSize items := by
  have hname : stringSize (asBytes "items") = 7 := by
    decide +kernel
  have hsizes : (fun text : Bytes => text.length + 1) ∘ fetchedItemJson = wireSize := by
    funext item
    exact length_fetchedItemJson item
  unfold itemsJson messageSize
  rw [length_jsonObject]
  simp only [List.map_cons, List.map_nil, List.sum_cons, List.sum_nil, hname, length_jsonArray,
    List.map_map, hsizes, List.map_eq_nil_iff]
  split_ifs with hempty
  · rw [hempty]
    rfl
  · omega

theorem length_itemsJson_le_iff (items : List FetchedItem) :
    (itemsJson items).length ≤ era0.maxMessageBytes ↔ messageSize items ≤ era0.maxMessageBytes := by
  rw [length_itemsJson]
  split_ifs with hempty
  · rw [hempty]
    decide
  · rfl

end Texts

section Batches

/-- The items as they are divided by their estimates fit into messages. -/
def FitsWire (items : List FetchedItem) : Prop :=
  ∃ batches : List (List FetchedItem), batches.flatten = items ∧
    GreedyBatches.Greedy itemSize era0.maxMessageBytes batches ∧
    ∀ batch ∈ batches, messageSize batch ≤ era0.maxMessageBytes

theorem splitIntoBatches_of_small {items : List FetchedItem} (hne : items ≠ [])
    (h : (items.map itemSize).sum ≤ era0.maxMessageBytes) : splitIntoBatches items = [items] := by
  apply splitIntoBatches_eq
  · exact List.flatten_singleton
  · exact GreedyBatches.greedy_one hne (fun _ => h)

theorem batches_fit_iff (items : List FetchedItem) :
    (∀ batch ∈ splitIntoBatches items,
        (memoryPushRequestJson ⟨batch⟩).length ≤ era0.maxMessageBytes) ↔ FitsWire items := by
  unfold memoryPushRequestJson
  simp only [length_itemsJson_le_iff]
  constructor
  · intro h
    exact ⟨_, splitIntoBatches_flatten items, splitIntoBatches_greedy items, h⟩
  · rintro ⟨batches, hflatten, hgreedy, hfit⟩
    rwa [splitIntoBatches_eq hflatten hgreedy]

end Batches

section Fetches
variable {σ : Type} [Storage σ]

def servedSize (storage : σ) (id : String) : ℕ :=
  (Storage.readL2Item storage id).toOption.join.elim 0 (fun row => wireSize (fetchedItem row))

theorem messageSize_fetch (storage : σ) (req : FetchRequest) :
    messageSize (handleFetchRequest storage req).items =
      11 + (req.itemIds.map (servedSize storage)).sum := by
  unfold messageSize handleFetchRequest servedSize
  dsimp only
  induction req.itemIds with
  | nil => rfl
  | cons id ids ih =>
    rw [List.filterMap_cons, List.map_cons, List.sum_cons]
    cases (Storage.readL2Item storage id).toOption.join with
    | none =>
      rw [Option.map_none, Option.elim_none, Nat.zero_add]
      exact ih
    | some row =>
      rw [Option.map_some, Option.elim_some]
      simp only [List.map_cons, List.sum_cons]
      omega

/-- All pushes are within the limit on messages where the encoded items of each part of the
    greedy division are, and a fetch response where the encoded rows are together. -/
theorem messages_fit_iff (items : List FetchedItem) (storage : σ) (req : FetchRequest) :
    ((∀ batch ∈ splitIntoBatches items,
        (memoryPushRequestJson ⟨batch⟩).length ≤ era0.maxMessageBytes) ↔ FitsWire items) ∧
      ((fetchResponseJson (handleFetchRequest storage req)).length ≤ era0.maxMessageBytes ↔
        11 + (req.itemIds.map (servedSize storage)).sum ≤ era0.maxMessageBytes) := by
  refine ⟨batches_fit_iff items, ?_⟩
  unfold fetchResponseJson
  rw [length_itemsJson_le_iff, messageSize_fetch]

end Fetches

section Example

def fullRow (id : String) : L2ItemRow where
  id := id
  itemType := "entity"
  ownerId := none
  visibility := "group"
  data := List.replicate maxItemBytes 0
  checksum := none
  groupId := none
  authorId := none
  keyVersion := 1
  parentId := none
  isCopy := false
  accessCount := 0
  lastAccessedAt := none
  createdAt := ""
  updatedAt := ""

def letters : List String :=
  ["a", "b", "c", "d", "e", "f", "g", "h", "i", "j", "k", "l", "m", "n", "o", "p", "q", "r", "s", "t",
    "u", "v", "w", "x"]

theorem fullRows_unique : (letters.map fullRow).Pairwise (fun a b => a.id ≠ b.id) := by
  rw [List.pairwise_map]
  change letters.Pairwise (· ≠ ·)
  decide +kernel

theorem fullRows_checked : ∀ row ∈ letters.map fullRow, L2Checks row := by
  intro row hrow
  obtain ⟨id, -, rfl⟩ := List.mem_map.mp hrow
  exact (by decide : "entity" ∈ l2ItemTypes ∧ "group" ∈ l2Visibilities)

def fullStore : SqliteStorage :=
  { SqliteStorage.createNew with l2Items := ⟨letters.map fullRow, fullRows_unique, fullRows_checked⟩ }

theorem wireSize_fullRow (id : String) : 21984 ≤ wireSize (fetchedItem (fullRow id)) := by
  have hblob : (fetchedItem (fullRow id)).encryptedBlob.length = 16384 := List.length_replicate
  unfold wireSize
  rw [hblob]
  omega

theorem fullRows_too_long {ids : List String} (h : 24 ≤ ids.length) :
    era0.maxMessageBytes < (itemsJson (ids.map (fun id => fetchedItem (fullRow id)))).length := by
  have hsum := List.card_nsmul_le_sum
    ((ids.map (fun id => fetchedItem (fullRow id))).map wireSize) 21984 (by
      intro size hsize
      obtain ⟨item, hitem, rfl⟩ := List.mem_map.mp hsize
      obtain ⟨id, -, rfl⟩ := List.mem_map.mp hitem
      exact wireSize_fullRow id)
  rw [List.length_map, List.length_map, smul_eq_mul] at hsum
  have hlimit : era0.maxMessageBytes = 524288 := rfl
  rw [← not_le, length_itemsJson_le_iff, hlimit]
  unfold messageSize
  omega

theorem fetch_fullStore [Sha256] : (handleFetchRequest fullStore ⟨letters⟩).items =
    letters.map (fun id => fetchedItem (fullRow id)) := by
  have hread : ∀ id ∈ letters, (Storage.readL2Item fullStore id).toOption.join.map fetchedItem =
      some (fetchedItem (fullRow id)) := by
    intro id hid
    have hlookup : fullStore.l2Items.lookup (fullRow id).id = some (fullRow id) :=
      Table.lookup_key _ (List.mem_map_of_mem hid)
    rw [SqliteStorage.readL2Item_ok, show fullStore.l2Items.lookup id = some (fullRow id) from hlookup]
    rfl
  unfold handleFetchRequest
  dsimp only
  rw [List.filterMap_congr hread, ← List.filterMap_eq_map]
  rfl

def stringBytes (item : FetchedItem) : ℕ :=
  item.itemId.utf8ByteSize + item.authorId.utf8ByteSize + item.groupId.utf8ByteSize +
    item.parentId.elim 0 String.utf8ByteSize

/-- Thirty-one items of the greatest size and short ids go into one batch, and two dozen
    into one response; both are longer than a message may be. -/
theorem full_messages_too_long :
    let := knownDigests
    let items := (List.replicate 31 "a").map (fun id => fetchedItem (fullRow id))
    (∀ item ∈ items, item.encryptedBlob.length ≤ era0.maxItemBytes ∧ stringBytes item ≤ 256) ∧
      letters.length ≤ era0.maxBatchSize ∧
      (∃ batch ∈ splitIntoBatches items,
        era0.maxMessageBytes < (memoryPushRequestJson ⟨batch⟩).length) ∧
      era0.maxMessageBytes < (fetchResponseJson (handleFetchRequest fullStore ⟨letters⟩)).length := by
  intro _ items
  have hitems : items = List.replicate 31 (fetchedItem (fullRow "a")) := List.map_replicate
  have hblob : (fetchedItem (fullRow "a")).encryptedBlob.length = 16384 := List.length_replicate
  refine ⟨?_, by decide, ⟨items, ?_, fullRows_too_long (by decide)⟩, ?_⟩
  · intro item hitem
    rw [hitems] at hitem
    rw [List.eq_of_mem_replicate hitem, hblob]
    exact ⟨le_rfl, by decide +kernel⟩
  · have hsize : itemSize (fetchedItem (fullRow "a")) = 16641 := by
      unfold itemSize
      rw [hblob]
      rfl
    have hsmall : (items.map itemSize).sum ≤ era0.maxMessageBytes := by
      rw [hitems, List.map_replicate, hsize]
      decide +kernel
    rw [splitIntoBatches_of_small (by simp [hitems]) hsmall]
    exact List.mem_singleton_self items
  · unfold fetchResponseJson
    rw [fetch_fullStore]
    exact fullRows_too_long (by decide)

end Example
end CordeliaCore.WireSizes
