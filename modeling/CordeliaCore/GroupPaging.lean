import CordeliaCore.CursorReading
import CordeliaCore.StorageSqlite
import CordeliaCore.TableEdits

set_option autoImplicit false

namespace CordeliaCore.GroupPaging
open CryptoPrimitives ProtocolMessages StorageRows StorageSqlite KeyedTable CursorPaging SqliteStorage

section Reading
variable (s : SqliteStorage) (groupId : String) (limit : ℕ)

def readGroup : ℕ → Option String → Option (List (List ItemHeader))
  | 0, _ => none
  | fuel + 1, since =>
    match s.listGroupItems groupId since limit with
    | [] => some []
    | header :: rest =>
      (readGroup fuel (((header :: rest).map ItemHeader.updatedAt).max?)).map
        ((header :: rest) :: ·)

def headers : List ItemHeader := (s.groupItems groupId).map itemHeader

def Enumerates (pages : List (List ItemHeader)) : Prop :=
  ∀ r ∈ s.groupItems groupId, pages.flatten.count (itemHeader r) = 1

theorem listGroupItems_eq_page (since : Option String) :
    s.listGroupItems groupId since limit =
      page ItemHeader.updatedAt since limit (headers s groupId) :=
  page_map L2ItemRow.updatedAt itemHeader ItemHeader.updatedAt (fun _ => rfl) since limit _

theorem readGroup_eq_readPages (fuel : ℕ) (since : Option String) :
    readGroup s groupId limit fuel since =
      readPages ItemHeader.updatedAt limit (headers s groupId) fuel since := by
  induction fuel generalizing since with
  | zero => rfl
  | succ fuel ih =>
    unfold readGroup readPages
    rw [listGroupItems_eq_page]
    cases page ItemHeader.updatedAt since limit (headers s groupId) with
    | nil => rfl
    | cons header rest => exact congrArg (Option.map ((header :: rest) :: ·)) (ih _)

theorem headers_nodup : (headers s groupId).Nodup := by
  have hids : ((s.groupItems groupId).map L2ItemRow.id).Nodup :=
    s.l2Items.nodup_keys.sublist (List.filter_sublist.map _)
  refine List.Nodup.of_map ItemHeader.itemId ?_
  rw [headers, List.map_map]
  exact hids

theorem unsplit_headers_iff : Unsplit ItemHeader.updatedAt limit (headers s groupId) ↔
    Unsplit L2ItemRow.updatedAt limit (s.groupItems groupId) := by
  unfold Unsplit headers
  simp only [List.countP_map]
  rfl

variable {s groupId}

theorem enumerates_iff_perm {pages : List (List ItemHeader)}
    (hsub : pages.flatten.Subperm (headers s groupId)) :
    Enumerates s groupId pages ↔ pages.flatten.Perm (headers s groupId) := by
  have hnodup := headers_nodup s groupId
  constructor
  · intro h
    have hall : headers s groupId ⊆ pages.flatten := by
      intro header hheader
      obtain ⟨r, hr, rfl⟩ := List.mem_map.mp hheader
      exact List.count_pos_iff.mp (by rw [h r hr]; exact Nat.one_pos)
    exact hsub.antisymm (List.subperm_of_subset hnodup hall)
  · intro hperm r hr
    rw [hperm.count_eq]
    exact List.count_eq_one_of_mem hnodup (List.mem_map_of_mem hr)

end Reading

/-- Reading a group page by page ends, and lists every row exactly once when no stamp of
    the group is split by a page boundary, and only then. -/
theorem paging_enumerates_iff (s : SqliteStorage) (groupId : String) (limit : ℕ)
    (hlimit : 1 ≤ limit) :
    ∃ pages, (∀ fuel, (s.groupItems groupId).length < fuel →
        readGroup s groupId limit fuel none = some pages) ∧
      (Enumerates s groupId pages ↔ Unsplit L2ItemRow.updatedAt limit (s.groupItems groupId)) := by
  obtain ⟨pages, hread, hsub, hiff⟩ :=
    readPages_reads ItemHeader.updatedAt hlimit (headers s groupId)
  refine ⟨pages, fun fuel hfuel => ?_, ?_⟩
  · rw [readGroup_eq_readPages]
    apply hread
    rwa [headers, List.length_map]
  · rw [enumerates_iff_perm hsub, hiff, unsplit_headers_iff]

section Example

def noteRow (id updatedAt : String) : L2ItemRow where
  id := id
  itemType := "learning"
  ownerId := none
  visibility := "group"
  data := []
  checksum := none
  groupId := some "seed-drill"
  authorId := none
  keyVersion := 1
  parentId := none
  isCopy := false
  accessCount := 0
  lastAccessedAt := none
  createdAt := updatedAt
  updatedAt := updatedAt

def notes (first second : String) : List L2ItemRow :=
  [noteRow "note-1" first, noteRow "note-2" second]

theorem notes_unique (first second : String) :
    (notes first second).Pairwise (fun a b => a.id ≠ b.id) := by
  simp only [notes, List.pairwise_cons, List.mem_singleton, forall_eq, List.not_mem_nil,
    false_imp_iff, implies_true, List.Pairwise.nil, and_true]
  exact (by decide : "note-1" ≠ "note-2")

theorem notes_checked (first second : String) : ∀ r ∈ notes first second, L2Checks r := by
  have hchecks : ∀ id updatedAt, L2Checks (noteRow id updatedAt) :=
    fun _ _ => ⟨(by decide : "learning" ∈ l2ItemTypes), (by decide : "group" ∈ l2Visibilities)⟩
  simp [notes, hchecks]

def twoNotes (first second : String) : SqliteStorage :=
  { createNew with
    l2Items := ⟨notes first second, notes_unique first second, notes_checked first second⟩ }

/-- Of two notes stamped in the same second the second is on no page. -/
theorem shared_second_is_skipped :
    let s := twoNotes "2026-02-01 00:00:00" "2026-02-01 00:00:00"
    let pages := [[itemHeader (noteRow "note-1" "2026-02-01 00:00:00")]]
    readGroup s "seed-drill" 1 3 none = some pages ∧
      noteRow "note-2" "2026-02-01 00:00:00" ∈ s.groupItems "seed-drill" ∧
      ¬ Enumerates s "seed-drill" pages := by
  intro s pages
  have hmem : noteRow "note-2" "2026-02-01 00:00:00" ∈ s.groupItems "seed-drill" := by decide
  refine ⟨by decide, hmem, fun h => ?_⟩
  exact absurd (h _ hmem) (by decide)

/-- Stamped a second apart both are listed. -/
theorem seconds_apart_are_listed :
    let s := twoNotes "2026-02-01 00:00:00" "2026-02-01 00:00:01"
    1 ≤ 1 ∧ ∃ pages, (∀ fuel, 2 < fuel → readGroup s "seed-drill" 1 fuel none = some pages) ∧
      (Enumerates s "seed-drill" pages ↔
        Unsplit L2ItemRow.updatedAt 1 (s.groupItems "seed-drill")) :=
  ⟨le_rfl, paging_enumerates_iff (twoNotes "2026-02-01 00:00:00" "2026-02-01 00:00:01")
    "seed-drill" 1 le_rfl⟩

end Example
end CordeliaCore.GroupPaging
