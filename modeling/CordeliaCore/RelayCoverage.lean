import CordeliaCore.FloodCoverage
import CordeliaCore.RelayFlooding

set_option autoImplicit false

namespace CordeliaCore.RelayFlooding
open CryptoPrimitives ProtocolMessages StorageRows StorageSqlite KeyedTable Replication Swarm
open ReplicationEngine SqliteStorage Flooding

def Held (item : FetchedItem) (db : SqliteStorage) : Prop :=
  (db.l2Items.lookup item.itemId).map fetchedItem = some item

instance (item : FetchedItem) (db : SqliteStorage) : Decidable (Held item db) :=
  inferInstanceAs (Decidable (_ = _))

/-- The store has the item, an older version of it, or none. -/
def NotAhead (item : FetchedItem) (db : SqliteStorage) : Prop :=
  ∀ e ∈ db.l2Items.lookup item.itemId, fetchedItem e = item ∨ Supersedes item e

/-- A relay that takes in the groups of all items, whichever snapshot it makes
    of its accepted groups. -/
def Welcomes (requests : List MemoryPushRequest) (relay : Relay) : Prop :=
  relay.posture = .transparent ∧ ∀ r ∈ requests, ∀ i ∈ r.items, i.groupId ∉ relay.blocked

section Push
variable [Sha256]

/-- Requests that do not get in each other's way: storable items, each id in
    one request and once. -/
structure Independent (requests : List MemoryPushRequest) : Prop where
  storable : ∀ r ∈ requests, ∀ i ∈ r.items, Storable i
  distinct : ∀ r ∈ requests, (r.items.map FetchedItem.itemId).Nodup
  apart : ∀ r ∈ requests, ∀ r' ∈ requests, r ≠ r' → ∀ i ∈ r.items, ∀ j ∈ r'.items,
    i.itemId ≠ j.itemId

def Behind (requests : List MemoryPushRequest) (db : SqliteStorage) : Prop :=
  ∀ r ∈ requests, (∀ i ∈ r.items, NotAhead i db) ∧ ∃ i ∈ r.items, ¬ Held i db

variable {requests : List MemoryPushRequest}

theorem Independent.not_churning (h : Independent requests) : ¬ Churning requests := by
  rintro ⟨_, _, r', hr', _, _, j, hj, _, herase, _⟩
  exact (h.storable r' hr' j hj).2.not_tombstone herase.2

omit [Sha256] in
theorem Welcomes.accepts {relay : Relay} (h : Welcomes requests relay) {r : MemoryPushRequest}
    (hr : r ∈ requests) {i : FetchedItem} (hi : i ∈ r.items) (accepted : Option (List String)) :
    groupAccepted relay.ourGroups (some (relayCheck relay.posture accepted relay.blocked))
      i.groupId = true := by
  have hfree : relay.blocked.contains i.groupId = false := by
    simpa using h.2 r hr i hi
  unfold groupAccepted relayCheck
  simp only [hfree, h.1]
  rfl

section Handle
variable (now : String) (ourGroups : List String) (relayAccepts : Option (String → Bool))
variable {db : SqliteStorage} {item : FetchedItem}

theorem not_writes_of_held (h : Held item db) :
    ¬ Writes ourGroups relayAccepts item (db.l2Items.lookup item.itemId) := by
  intro hwrite
  obtain ⟨e, he, heq⟩ := Option.map_eq_some_iff.mp h
  have hnewer := (hwrite.2.2 e he).2
  rw [← heq] at hnewer
  exact absurd hnewer (lt_irrefl _)

theorem push_lookup (h : Independent requests) {r : MemoryPushRequest} (hr : r ∈ requests)
    (hi : item ∈ r.items) :
    (handlePushRequest db now r ourGroups relayAccepts).2.l2Items.lookup item.itemId =
      if Writes ourGroups relayAccepts item (db.l2Items.lookup item.itemId) then
        some (receivedRow (db.l2Items.lookup item.itemId) now item)
      else db.l2Items.lookup item.itemId := by
  have hkind : ¬ Erases ourGroups relayAccepts item := fun herase =>
    (h.storable r hr item hi).2.not_tombstone herase.2
  rw [handlePush_storage, receiveAll_lookup_of_mem now ourGroups relayAccepts db (h.distinct r hr) hi,
    onReceive_lookup, if_pos rfl, if_neg hkind]

theorem push_lookup_apart (h : Independent requests) {r r' : MemoryPushRequest} (hr : r ∈ requests)
    (hr' : r' ∈ requests) (hne : r' ≠ r) (hi : item ∈ r'.items) :
    (handlePushRequest db now r ourGroups relayAccepts).2.l2Items.lookup item.itemId =
      db.l2Items.lookup item.itemId := by
  rw [handlePush_storage]
  exact receiveAll_lookup_of_ne now ourGroups relayAccepts db
    (fun j hj => h.apart r' hr' r hr hne item hi j hj)

theorem held_push_apart (h : Independent requests) {r r' : MemoryPushRequest} (hr : r ∈ requests)
    (hr' : r' ∈ requests) (hne : r' ≠ r) (hi : item ∈ r'.items) :
    Held item (handlePushRequest db now r ourGroups relayAccepts).2 ↔ Held item db := by
  unfold Held
  rw [push_lookup_apart now ourGroups relayAccepts h hr hr' hne hi]

theorem held_received (h : Storable item) (existing : Option L2ItemRow) :
    (some (receivedRow existing now item)).map fetchedItem = some item :=
  congrArg some (fetchedItem_receivedRow h.2.1 existing now)

theorem held_push_of_held (h : Independent requests) {r r' : MemoryPushRequest} (hr : r ∈ requests)
    (hr' : r' ∈ requests) (hi : item ∈ r'.items) (hheld : Held item db) :
    Held item (handlePushRequest db now r ourGroups relayAccepts).2 := by
  by_cases hsame : r' = r
  · subst hsame
    unfold Held
    rw [push_lookup now ourGroups relayAccepts h hr hi,
      if_neg (not_writes_of_held ourGroups relayAccepts hheld)]
    exact hheld
  · exact (held_push_apart now ourGroups relayAccepts h hr hr' hsame hi).mpr hheld

theorem notAhead_push (h : Independent requests) {r r' : MemoryPushRequest} (hr : r ∈ requests)
    (hr' : r' ∈ requests) (hi : item ∈ r'.items) (hdb : NotAhead item db) :
    NotAhead item (handlePushRequest db now r ourGroups relayAccepts).2 := by
  intro e he
  by_cases hsame : r' = r
  · subst hsame
    rw [push_lookup now ourGroups relayAccepts h hr hi] at he
    split_ifs at he with hwrite
    · obtain rfl := Option.mem_some_iff.mp he
      exact .inl (fetchedItem_receivedRow (h.storable r' hr item hi).2.1 _ now)
    · exact hdb e he
  · rw [push_lookup_apart now ourGroups relayAccepts h hr hr' hsame hi] at he
    exact hdb e he

theorem held_push (h : Independent requests) {r : MemoryPushRequest} (hr : r ∈ requests)
    (hi : item ∈ r.items) (haccept : groupAccepted ourGroups relayAccepts item.groupId = true)
    (hdb : NotAhead item db) : Held item (handlePushRequest db now r ourGroups relayAccepts).2 := by
  by_cases hheld : Held item db
  · exact held_push_of_held now ourGroups relayAccepts h hr hr hi hheld
  have hstore := h.storable r hr item hi
  have hwrite : Writes ourGroups relayAccepts item (db.l2Items.lookup item.itemId) := by
    refine ⟨⟨hstore.1, haccept⟩, hstore.2, fun e he => (hdb e he).resolve_left (fun heq => hheld ?_)⟩
    unfold Held
    rw [he, ← heq, Option.map_some]
  unfold Held
  rw [push_lookup now ourGroups relayAccepts h hr hi, if_pos hwrite]
  exact held_received now hstore _

theorem stored_of_changed {r : MemoryPushRequest}
    (h : (handlePushRequest db now r ourGroups relayAccepts).2 ≠ db) :
    0 < (handlePushRequest db now r ourGroups relayAccepts).1.stored := by
  by_contra hzero
  rw [not_lt, Nat.le_zero, handlePush_stored_eq_zero] at hzero
  refine h ?_
  rw [handlePush_storage]
  exact receiveAll_of_not_stored now ourGroups relayAccepts hzero

end Handle

section Network
variable {ν : Type} [DecidableEq ν] {peers : ν → Finset ν} {relays : ν → Relay}

omit [DecidableEq ν] in
theorem absorbing_of_independent (h : Independent requests) :
    Absorbing (fun db => ∀ r ∈ requests, ∀ i ∈ r.items, NotAhead i db)
      (fun r db => ∀ i ∈ r.items, Held i db) (fun n => Welcomes requests (relays n))
      (· ∈ requests) (relayProtocol peers relays) where
  inv := by
    intro n reception db r hr hdb r' hr' i hi
    exact notAhead_push _ _ _ h hr hr' hi (hdb r' hr' i hi)
  takes := by
    intro n reception db r hopen hr hdb i hi
    exact held_push _ _ _ h hr hi (hopen.accepts hr hi _) (hdb r hr i hi)
  keeps := by
    intro n reception db r r' hr hr' _ hheld i hi
    exact held_push_of_held _ _ _ h hr hr' hi (hheld i hi)
  effect := by
    intro n reception db r hr _ hbefore hafter
    refine decide_eq_true (stored_of_changed _ _ _ (fun hsame => hbefore ?_))
    intro i hi
    have hheld := hafter i hi
    change Held i (handlePushRequest db reception.now r _ _).2 at hheld
    rwa [hsame] at hheld
  only := by
    intro n reception db r r' hr hr' hne _ hafter i hi
    exact (held_push_apart _ _ _ h hr hr' hne hi).mp (hafter i hi)

end Network

section Example

def noteRequest : MemoryPushRequest := ⟨[noteVersion "a" "2026-02-01T00:00:00Z"]⟩

theorem noteRequest_independent : Independent [noteRequest] where
  storable := by
    intro r hr i hi
    obtain rfl := List.mem_singleton.mp hr
    obtain rfl := List.mem_singleton.mp hi
    exact ⟨(by decide : (asBytes "a").length ≤ maxItemBytes), noteVersion_wellFormed _ _⟩
  distinct := by
    intro r hr
    obtain rfl := List.mem_singleton.mp hr
    exact List.nodup_singleton _
  apart := by
    intro r hr r' hr' hne
    exact absurd ((List.mem_singleton.mp hr).trans (List.mem_singleton.mp hr').symm) hne

theorem behind_of_absent {db : SqliteStorage} (h : db.l2Items.lookup "note-1" = none) :
    Behind [noteRequest] db := by
  intro r hr
  obtain rfl := List.mem_singleton.mp hr
  refine ⟨fun i hi e he => ?_, _, List.mem_singleton.mpr rfl, fun hheld => ?_⟩
  · obtain rfl := List.mem_singleton.mp hi
    rw [show db.l2Items.lookup (noteVersion "a" "2026-02-01T00:00:00Z").itemId = none from h] at he
    cases he
  · unfold Held at hheld
    rw [show db.l2Items.lookup (noteVersion "a" "2026-02-01T00:00:00Z").itemId = none from h] at hheld
    cases hheld

def closedInTheMiddle (n : Fin 3) : Relay :=
  if n.val = 1 then ⟨.explicit, [], []⟩ else transparentRelay

def noteFlood : Network (Fin 3) SqliteStorage MemoryPushRequest :=
  ⟨fun _ => createNew, {⟨none, Fin.last 2, noteRequest⟩}⟩

end Example
end Push

end CordeliaCore.RelayFlooding
