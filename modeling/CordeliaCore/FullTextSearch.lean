import CordeliaCore.ApiHandlers
import CordeliaCore.StorageSqlite
import Mathlib.Data.List.DropRight

set_option autoImplicit false

namespace CordeliaCore.FullTextSearch
open CryptoPrimitives StorageRows StorageSqlite Api KeyedTable

section Queries

def isWhitespace (c : Char) : Bool :=
  9 ≤ c.toNat && c.toNat ≤ 13 || c.toNat = 0x20 || c.toNat = 0x85 || c.toNat = 0xa0 ||
    c.toNat = 0x1680 || 0x2000 ≤ c.toNat && c.toNat ≤ 0x200a || c.toNat = 0x2028 ||
    c.toNat = 0x2029 || c.toNat = 0x202f || c.toNat = 0x205f || c.toNat = 0x3000

def trim (text : List Char) : List Char := (text.dropWhile isWhitespace).rdropWhile isWhitespace

def splitWhitespace (text : List Char) : List (List Char) :=
  (text.splitOnP isWhitespace).filter (fun token => !token.isEmpty)

def quoted (token : List Char) : List Char := ['"'] ++ token.filter (· ≠ '"') ++ ['"']

def safeQuery (trimmed : List Char) : List Char :=
  [' '].intercalate (((splitWhitespace trimmed).filter (fun token => !token.isEmpty)).map quoted)

/-- What the index has for a text: the ids of the matching rows, by rank. -/
abbrev FtsIndex := String → Except StorageError (List String)

def ftsSearch (index : FtsIndex) (query : String) (limit : UInt32) :
    Except StorageError (List String) :=
  let trimmed := trim query.toList
  if trimmed.isEmpty then .ok []
  else
    let safe := safeQuery trimmed
    if safe.isEmpty then .ok [] else (index (String.ofList safe)).map (·.take limit.toNat)

def ftsMatches (index : FtsIndex) (query : String) : Except StorageError (List String) :=
  let trimmed := trim query.toList
  if trimmed.isEmpty ∨ (safeQuery trimmed).isEmpty then .ok []
  else index (String.ofList (safeQuery trimmed))

theorem ftsSearch_eq (index : FtsIndex) (query : String) (limit : UInt32) :
    ftsSearch index query limit = (ftsMatches index query).map (·.take limit.toNat) := by
  unfold ftsSearch ftsMatches
  dsimp only
  by_cases hblank : (trim query.toList).isEmpty = true
  · rw [if_pos hblank, if_pos (.inl hblank)]
    simp [Except.map]
  by_cases hsafe : (safeQuery (trim query.toList)).isEmpty = true
  · rw [if_neg hblank, if_pos hsafe, if_pos (.inr hsafe)]
    simp [Except.map]
  · rw [if_neg hblank, if_neg hsafe, if_neg (not_or.mpr ⟨hblank, hsafe⟩)]

end Queries

section Handler
variable {σ : Type} [Storage σ]

structure L2SearchRequest where
  query : String
  limit : UInt32
  groupId : Option String
deriving DecidableEq

def belongsTo (storage : σ) (groupId id : String) : Bool :=
  (Storage.readL2ItemMeta storage id).toOption.join.any (fun m => m.groupId = some groupId)

/-- The product wraps, as it does in a release build. -/
def fetchLimit (req : L2SearchRequest) : UInt32 :=
  if req.groupId.isSome then req.limit * 4 else req.limit

def l2Search (state : AppState σ) (index : FtsIndex) (authorization : Option String)
    (req : L2SearchRequest) : Except ApiResponse (List String) :=
  match checkAuth state authorization with
  | some refused => .error refused
  | none =>
    match ftsSearch index req.query (fetchLimit req) with
    | .ok ids =>
      match req.groupId with
      | some groupId =>
        .ok ((ids.filter (belongsTo state.storage groupId)).take req.limit.toNat)
      | none => .ok ids
    | .error e => .error (.error 500 e.text)

theorem l2Search_group {state : AppState σ} {index : FtsIndex} {authorization : Option String}
    (hauth : checkAuth state authorization = none) {query : String} {all : List String}
    (hall : ftsMatches index query = .ok all) (limit : UInt32) (groupId : String) :
    l2Search state index authorization ⟨query, limit, some groupId⟩ =
      .ok (((all.take (limit * 4).toNat).filter (belongsTo state.storage groupId)).take
        limit.toNat) := by
  unfold l2Search fetchLimit
  rw [hauth]
  dsimp only
  rw [ftsSearch_eq, hall]
  rfl

/-- Filtering the first `k` elements finds the first `n` that pass where it finds enough. -/
theorem take_filter_take_iff {α : Type} (l : List α) (p : α → Bool) (n k : ℕ) :
    ((l.take k).filter p).take n = (l.filter p).take (min n (l.filter p).length) ↔
      min n (l.filter p).length ≤ (l.take k).countP p := by
  have hsplit : l.filter p = (l.take k).filter p ++ (l.drop k).filter p := by
    rw [← List.filter_append, List.take_append_drop]
  rw [List.countP_eq_length_filter]
  constructor
  · intro heq
    have hlength := congrArg List.length heq
    rw [List.length_take, List.length_take] at hlength
    omega
  · intro henough
    have hlength := congrArg List.length hsplit
    rw [List.length_append] at hlength
    have hfront : ∀ j ≤ ((l.take k).filter p).length,
        (l.filter p).take j = ((l.take k).filter p).take j := by
      intro j hj
      rw [hsplit, List.take_append_of_le_length hj]
    rw [hfront _ henough, List.take_eq_take_iff]
    omega

/-- A search in a group returns its first matches, and computes its limit without overflow,
    exactly when the limit is below a quarter of the range and enough matches of the group
    are among the first four times the limit. -/
theorem group_search_complete_iff {state : AppState σ} {index : FtsIndex}
    {authorization : Option String} (hauth : checkAuth state authorization = none) {query : String}
    {all : List String} (hall : ftsMatches index query = .ok all) (limit : UInt32)
    (groupId : String) :
    let ofGroup := all.filter (belongsTo state.storage groupId)
    (l2Search state index authorization ⟨query, limit, some groupId⟩ =
          .ok (ofGroup.take (min limit.toNat ofGroup.length)) ∧
        limit.toNat * 4 < UInt32.size) ↔
      limit.toNat < 1073741824 ∧ min limit.toNat ofGroup.length ≤
        (all.take (limit.toNat * 4)).countP (belongsTo state.storage groupId) := by
  intro ofGroup
  have hsize : UInt32.size = 4294967296 := rfl
  rw [l2Search_group hauth hall, Except.ok.injEq, hsize]
  by_cases hlimit : limit.toNat < 1073741824
  · have hproduct : (limit * 4).toNat = limit.toNat * 4 := by
      rw [UInt32.toNat_mul]
      exact Nat.mod_eq_of_lt (by change limit.toNat * 4 < 4294967296; omega)
    rw [hproduct, take_filter_take_iff, and_iff_left (by omega), and_iff_right hlimit]
  · refine iff_of_false (fun h => ?_) (fun h => hlimit h.1)
    omega

end Handler

section Example

def noteIn (groupId id : String) : L2ItemRow where
  id := id
  itemType := "entity"
  ownerId := none
  visibility := "group"
  data := []
  checksum := none
  groupId := some groupId
  authorId := none
  keyVersion := 1
  parentId := none
  isCopy := false
  accessCount := 0
  lastAccessedAt := none
  createdAt := ""
  updatedAt := ""

theorem noteIn_checks (groupId id : String) : L2Checks (noteIn groupId id) :=
  (by decide : "entity" ∈ l2ItemTypes ∧ "group" ∈ l2Visibilities)

def fiveNotes : SqliteStorage :=
  { SqliteStorage.createNew with
    l2Items := ["a", "b", "c", "d"].foldl
      (fun t id => t.put (noteIn "team" id) (noteIn_checks "team" id))
      (Table.empty.put (noteIn "family" "e") (noteIn_checks "family" "e")) }

def searchState : AppState SqliteStorage := ⟨fiveNotes, "ann", "secret", none, none, none⟩

def allMatch : FtsIndex := fun _ => .ok ["a", "b", "c", "d", "e"]

theorem two_of_family_found :
    let := knownDigests
    l2Search searchState allMatch (some "Bearer secret") ⟨"seed drill", 2, some "family"⟩ =
      .ok ["e"] := by
  intro _
  have hauth : checkAuth searchState (some "Bearer secret") = none := by
    decide +kernel
  have hall : ftsMatches allMatch "seed drill" = .ok ["a", "b", "c", "d", "e"] := rfl
  have hfound := (group_search_complete_iff hauth hall 2 "family").mpr (by decide +kernel)
  exact hfound.1

/-- With one result wanted the only note of the group is not looked at, and with a limit of a
    quarter of the range no note is. -/
theorem family_not_found :
    let := knownDigests
    let search := fun limit =>
      l2Search searchState allMatch (some "Bearer secret") ⟨"seed drill", limit, some "family"⟩
    search 1 = .ok [] ∧ search 1073741824 = .ok [] ∧
      ["a", "b", "c", "d", "e"].filter (belongsTo fiveNotes "family") = ["e"] := by
  refine ⟨rfl, rfl, rfl⟩

end Example
end CordeliaCore.FullTextSearch
