import CordeliaCore.AntiEntropyEffect

set_option autoImplicit false

namespace CordeliaCore.PartitionHeal
open CryptoPrimitives ProtocolMessages StorageRows StorageSqlite KeyedTable
open Replication ReplicationEngine SqliteStorage Swarm

structure Node where
  storage : SqliteStorage
  entityId : String
  ourGroups : List String

section Digest
variable [Sha256]

def syncWith (config : ReplicationConfig) (now groupId : String) (node peer : Node) : Node :=
  { node with
    storage := (runAntiEntropy ⟨config, node.entityId⟩ (some (.serving peer.storage)) node.storage
      now groupId node.ourGroups none none).2 }

def held (db : SqliteStorage) (groupId id : String) : Option (Option String) :=
  ((db.l2Items.lookup id).filter (fun r => r.groupId = some groupId)).map L2ItemRow.checksum

def Agree (groupId : String) (a b : Node) : Prop :=
  ∀ id, held a.storage groupId id = held b.storage groupId id

/-- One round of `a` against `b`, then one of `b` against the result. -/
def Heals (config : ReplicationConfig) (groupId nowA nowB : String) (a b : Node) : Prop :=
  Agree groupId (syncWith config nowA groupId a b)
    (syncWith config nowB groupId b (syncWith config nowA groupId a b))

structure Servable (groupId : String) (db : SqliteStorage) : Prop where
  small : ∀ r ∈ db.groupItems groupId, r.data.length ≤ maxItemBytes
  summed : ∀ r ∈ db.groupItems groupId, r.checksum = some (Replication.checksum r.data)

structure Member (config : ReplicationConfig) (groupId : String) (node : Node) : Prop where
  joined : groupId ∈ node.ourGroups
  fits : (node.storage.groupItems groupId).length ≤ config.maxBatchSize
  servable : Servable groupId node.storage

def Takes (db : SqliteStorage) (r : L2ItemRow) : Prop :=
  ∀ e ∈ db.l2Items.lookup r.id, Supersedes (fetchedItem r) e

instance (db : SqliteStorage) (r : L2ItemRow) : Decidable (Takes db r) :=
  inferInstanceAs (Decidable (∀ e ∈ db.l2Items.lookup r.id, _))

/-- A row of `there` that comes across, or meets a row of the group with its
    checksum or with a version that `there` lets in. -/
def Settles (groupId : String) (here there : SqliteStorage) (r : L2ItemRow) : Prop :=
  Takes here r ∨
    ∃ e ∈ here.groupItems groupId, e.id = r.id ∧ (e.checksum = r.checksum ∨ Takes there e)

def mergedRows (groupId : String) (a b : SqliteStorage) : List L2ItemRow :=
  (a.groupItems groupId).filter
      (fun e => ∀ r ∈ b.groupItems groupId, r.id = e.id → ¬ Takes a r) ++
    (b.groupItems groupId).filter (fun r => Takes a r)

/-- Older rows come first, and of one stamp those that the store got first. -/
def place (db : SqliteStorage) (r : L2ItemRow) : String ×ₗ ℕ :=
  CursorPaging.place L2ItemRow.updatedAt (fun r => db.l2Items.position r.id) r

def OnFirstPage (limit : ℕ) (db : SqliteStorage) (rows : List L2ItemRow) (r : L2ItemRow) : Prop :=
  rows.countP (fun q => place db q < place db r) < limit

instance (limit : ℕ) (db : SqliteStorage) (rows : List L2ItemRow) (r : L2ItemRow) :
    Decidable (OnFirstPage limit db rows r) :=
  inferInstanceAs (Decidable (_ < _))

def stamped (r : L2ItemRow) : String × String := (r.updatedAt, r.id)

section Rows
variable {db : SqliteStorage} {groupId : String}

omit [Sha256] in
theorem held_of_mem {r : L2ItemRow} (h : r ∈ db.groupItems groupId) :
    held db groupId r.id = some r.checksum := by
  obtain ⟨hlookup, hgroup⟩ := mem_groupItems.mp h
  unfold held
  rw [hlookup, Option.filter_some, if_pos (by simpa using hgroup), Option.map_some]

omit [Sha256] in
theorem held_of_absent {id : String} (h : ∀ r ∈ db.groupItems groupId, r.id ≠ id) :
    held db groupId id = none := by
  unfold held
  cases hlookup : db.l2Items.lookup id with
  | none => rfl
  | some r =>
    have hid : r.id = id := Table.key_of_lookup hlookup
    rw [Option.filter_some, if_neg, Option.map_none]
    intro hgroup
    exact h r (mem_groupItems.mpr ⟨hid ▸ hlookup, by simpa using hgroup⟩) hid

omit [Sha256] in
theorem exists_of_held {id : String} {sum : Option String} (h : held db groupId id = some sum) :
    ∃ r ∈ db.groupItems groupId, r.id = id ∧ r.checksum = sum := by
  by_cases hr : ∃ r ∈ db.groupItems groupId, r.id = id
  · obtain ⟨r, hr, rfl⟩ := hr
    rw [held_of_mem hr] at h
    exact ⟨r, hr, rfl, Option.some.inj h⟩
  · rw [held_of_absent (fun r hr' hid => hr ⟨r, hr', hid⟩)] at h
    cases h

omit [Sha256] in
theorem held_congr {s t : SqliteStorage} {id : String}
    (h : s.l2Items.lookup id = t.l2Items.lookup id) : held s groupId id = held t groupId id := by
  unfold held
  rw [h]

theorem Servable.isSome (h : Servable groupId db) :
    ∀ e ∈ db.groupItems groupId, e.checksum.isSome := by
  intro e he
  rw [h.summed e he]
  rfl

omit [Sha256] in
theorem nodup_stamped {rows : List L2ItemRow} (h : (rows.map L2ItemRow.id).Nodup) :
    (rows.map stamped).Nodup := by
  rw [List.Nodup, List.pairwise_map] at h ⊢
  exact h.imp (fun hne heq => hne (congrArg Prod.snd heq))

omit [Sha256] in
theorem mergedRows_id_nodup (groupId : String) (s t : SqliteStorage) :
    ((mergedRows groupId s t).map L2ItemRow.id).Nodup := by
  unfold mergedRows
  rw [List.map_append, List.nodup_append]
  refine ⟨(groupItems_id_nodup _ _).sublist (List.filter_sublist.map _),
    (groupItems_id_nodup _ _).sublist (List.filter_sublist.map _), ?_⟩
  intro i hi j hj hij
  obtain ⟨e, he, rfl⟩ := List.mem_map.mp hi
  obtain ⟨r, hr, rfl⟩ := List.mem_map.mp hj
  obtain ⟨hrb, htakes⟩ := List.mem_filter.mp hr
  have hkept := of_decide_eq_true (List.mem_filter.mp he).2
  exact hkept r hrb hij.symm (of_decide_eq_true htakes)

end Rows

section Round
variable {config : ReplicationConfig} {groupId now : String} {node peer : Node}

theorem writes_iff_takes (hjoined : groupId ∈ node.ourGroups)
    (hpeer : Servable groupId peer.storage) {r : L2ItemRow}
    (h : r ∈ peer.storage.groupItems groupId) :
    Writes node.ourGroups (relayFn none) (fetchedItem r) (node.storage.l2Items.lookup r.id) ↔
      Takes node.storage r := by
  obtain ⟨hlookup, hgroup⟩ := mem_groupItems.mp h
  have hadm : Admitted node.ourGroups none (fetchedItem r) := by
    refine ⟨hpeer.small r h, ?_⟩
    change node.ourGroups.contains (r.groupId.getD "") = true
    rw [hgroup, Option.getD_some, List.contains_iff_mem]
    exact hjoined
  have hwell : WellFormed (fetchedItem r) := by
    refine ⟨?_, (peer.storage.l2Items.checked r (Table.mem_of_lookup hlookup)).1⟩
    change (Replication.checksum r.data == r.checksum.getD "") = true
    rw [hpeer.summed r h, Option.getD_some, beq_self_eq_true]
  exact ⟨fun hw => hw.2.2, fun ht => ⟨hadm, hwell, ht⟩⟩

theorem receivedRow_checksum {db : SqliteStorage} (hdb : Servable groupId db) {r : L2ItemRow}
    (h : r ∈ db.groupItems groupId) (existing : Option L2ItemRow) :
    (receivedRow existing now (fetchedItem r)).checksum = r.checksum :=
  (hdb.summed r h).symm

section Listed
variable (now) (hnode : groupId ∈ node.ourGroups) (hsum : Servable groupId node.storage)
  (hpeer : Servable groupId peer.storage)
include hnode hsum hpeer

theorem syncWith_lookup {r : L2ItemRow}
    (h : r ∈ listedRows peer.storage groupId none config.maxBatchSize) :
    (syncWith config now groupId node peer).storage.l2Items.lookup r.id =
      if Takes node.storage r then
        some (receivedRow (node.storage.l2Items.lookup r.id) now (fetchedItem r))
      else node.storage.l2Items.lookup r.id := by
  have hround := pulled_lookup_of_listed ⟨config, node.entityId⟩ peer.storage node.storage now groupId
    node.ourGroups none none hsum.isSome h
  refine hround.trans ?_
  exact if_congr (writes_iff_takes hnode hpeer (mem_groupItems_of_listed h)) rfl rfl

theorem syncWith_mem {r : L2ItemRow}
    (h : r ∈ listedRows peer.storage groupId none config.maxBatchSize)
    (htakes : Takes node.storage r) :
    receivedRow (node.storage.l2Items.lookup r.id) now (fetchedItem r) ∈
      (syncWith config now groupId node peer).storage.groupItems groupId := by
  refine mem_groupItems.mpr ⟨?_, ?_⟩
  · exact (syncWith_lookup now hnode hsum hpeer h).trans (if_pos htakes)
  · exact receivedRow_groupId (mem_groupItems_of_listed h) _ now

theorem syncWith_held {r : L2ItemRow}
    (h : r ∈ listedRows peer.storage groupId none config.maxBatchSize)
    (htakes : Takes node.storage r) :
    held (syncWith config now groupId node peer).storage groupId r.id = some r.checksum := by
  have hmem := held_of_mem (syncWith_mem now hnode hsum hpeer h htakes)
  rw [receivedRow_checksum hpeer (mem_groupItems_of_listed h)] at hmem
  exact hmem

/-- An id keeps its row unless a listed row of the peer is let in under it. -/
theorem syncWith_lookup_kept {id : String}
    (h : ∀ r ∈ listedRows peer.storage groupId none config.maxBatchSize, r.id = id →
      ¬ Takes node.storage r) :
    (syncWith config now groupId node peer).storage.l2Items.lookup id =
      node.storage.l2Items.lookup id := by
  by_cases hlisted : ∃ r ∈ listedRows peer.storage groupId none config.maxBatchSize, r.id = id
  · obtain ⟨r, hr, rfl⟩ := hlisted
    rw [syncWith_lookup now hnode hsum hpeer hr, if_neg (h r hr rfl)]
  · refine pulled_lookup_of_not_listed ⟨config, node.entityId⟩ peer.storage node.storage now groupId
      node.ourGroups none none (fun r hr hid => hlisted ⟨r, hr, hid.symm⟩)

end Listed
end Round

section Heal
variable {config : ReplicationConfig} {groupId : String} {a b : Node}

omit [Sha256] in
theorem not_takes_of_takes {e r : L2ItemRow} (he : e ∈ a.storage.groupItems groupId)
    (hr : r ∈ b.storage.groupItems groupId) (hid : r.id = e.id) (h : Takes b.storage e) :
    ¬ Takes a.storage r := by
  intro h'
  have hforth := h r (hid ▸ (mem_groupItems.mp hr).1)
  have hback := h' e (hid.symm ▸ (mem_groupItems.mp he).1)
  exact lt_asymm hforth.2 hback.2

variable (nowA : String) (ha : Member config groupId a) (hb : Member config groupId b)
include ha hb

theorem first_lookup_kept {id : String}
    (h : ∀ r ∈ b.storage.groupItems groupId, r.id = id → ¬ Takes a.storage r) :
    (syncWith config nowA groupId a b).storage.l2Items.lookup id = a.storage.l2Items.lookup id :=
  syncWith_lookup_kept nowA ha.joined ha.servable hb.servable
    (fun r hr => h r (mem_groupItems_of_listed hr))

theorem first_mem_kept {e : L2ItemRow} (he : e ∈ a.storage.groupItems groupId)
    (h : ∀ r ∈ b.storage.groupItems groupId, r.id = e.id → ¬ Takes a.storage r) :
    e ∈ (syncWith config nowA groupId a b).storage.groupItems groupId := by
  obtain ⟨hlookup, hgroup⟩ := mem_groupItems.mp he
  exact mem_groupItems.mpr ⟨(first_lookup_kept nowA ha hb h).trans hlookup, hgroup⟩

theorem first_mem_taken {r : L2ItemRow} (hr : r ∈ b.storage.groupItems groupId)
    (h : Takes a.storage r) :
    receivedRow (a.storage.l2Items.lookup r.id) nowA (fetchedItem r) ∈
      (syncWith config nowA groupId a b).storage.groupItems groupId :=
  syncWith_mem nowA ha.joined ha.servable hb.servable ((mem_listedRows_of_fits hb.fits).mpr hr) h

theorem first_mem_cases {x : L2ItemRow}
    (hx : x ∈ (syncWith config nowA groupId a b).storage.groupItems groupId) :
    (x ∈ a.storage.groupItems groupId ∧
        ∀ r ∈ b.storage.groupItems groupId, r.id = x.id → ¬ Takes a.storage r) ∨
      ∃ r ∈ b.storage.groupItems groupId, Takes a.storage r ∧
        x = receivedRow (a.storage.l2Items.lookup r.id) nowA (fetchedItem r) := by
  obtain ⟨hlookup, hgroup⟩ := mem_groupItems.mp hx
  by_cases htaken : ∃ r ∈ b.storage.groupItems groupId, r.id = x.id ∧ Takes a.storage r
  · obtain ⟨r, hr, hid, htakes⟩ := htaken
    have hcopy := first_mem_taken nowA ha hb hr htakes
    exact .inr ⟨r, hr, htakes, groupItems_id_inj hx hcopy hid.symm⟩
  · have hkept : ∀ r ∈ b.storage.groupItems groupId, r.id = x.id → ¬ Takes a.storage r :=
      fun r hr hid htakes => htaken ⟨r, hr, hid, htakes⟩
    rw [first_lookup_kept nowA ha hb hkept] at hlookup
    exact .inl ⟨mem_groupItems.mpr ⟨hlookup, hgroup⟩, hkept⟩

theorem first_servable : Servable groupId (syncWith config nowA groupId a b).storage where
  small x hx := by
    rcases first_mem_cases nowA ha hb hx with ⟨hmem, _⟩ | ⟨r, hr, _, rfl⟩
    · exact ha.servable.small x hmem
    · exact hb.servable.small r hr
  summed x hx := by
    rcases first_mem_cases nowA ha hb hx with ⟨hmem, _⟩ | ⟨r, _, _, rfl⟩
    · exact ha.servable.summed x hmem
    · rfl

/-- The stamps on the listing after the first round are those of the merged rows. -/
theorem first_stamps :
    (((syncWith config nowA groupId a b).storage.groupItems groupId).map stamped).Perm
      ((mergedRows groupId a.storage b.storage).map stamped) := by
  refine (List.perm_ext_iff_of_nodup (nodup_stamped (groupItems_id_nodup _ _))
    (nodup_stamped (mergedRows_id_nodup _ _ _))).mpr ?_
  intro p
  constructor
  · intro hp
    obtain ⟨x, hx, rfl⟩ := List.mem_map.mp hp
    rcases first_mem_cases nowA ha hb hx with ⟨hmem, hkept⟩ | ⟨r, hr, htakes, rfl⟩
    · refine List.mem_map.mpr ⟨x, List.mem_append_left _ (List.mem_filter.mpr ⟨hmem, ?_⟩), rfl⟩
      exact decide_eq_true hkept
    · refine List.mem_map.mpr ⟨r, List.mem_append_right _ (List.mem_filter.mpr ⟨hr, ?_⟩), rfl⟩
      exact decide_eq_true htakes
  · intro hp
    obtain ⟨x, hx, rfl⟩ := List.mem_map.mp hp
    rcases List.mem_append.mp hx with hx | hx
    · obtain ⟨hmem, hkept⟩ := List.mem_filter.mp hx
      exact List.mem_map.mpr ⟨x, first_mem_kept nowA ha hb hmem (of_decide_eq_true hkept), rfl⟩
    · obtain ⟨hmem, htakes⟩ := List.mem_filter.mp hx
      exact List.mem_map.mpr ⟨_, first_mem_taken nowA ha hb hmem (of_decide_eq_true htakes), rfl⟩

omit ha hb in
/-- A row of `a` has the same rows before it on the listing after the first round. -/
theorem first_place_lt_iff {e : L2ItemRow} (he : e ∈ a.storage.groupItems groupId) (x : L2ItemRow) :
    place (syncWith config nowA groupId a b).storage x <
        place (syncWith config nowA groupId a b).storage e ↔
      place a.storage x < place a.storage e := by
  obtain ⟨news, hnews⟩ := pulled_ids ⟨config, a.entityId⟩ b.storage a.storage nowA groupId
    a.ourGroups none none
  have hrow : (a.storage.l2Items.lookup e.id).isSome := by
    rw [(mem_groupItems.mp he).1]
    rfl
  have hposition := Table.position_lt_iff hnews hrow x.id
  unfold place CursorPaging.place
  rw [Prod.Lex.lt_iff, Prod.Lex.lt_iff]
  exact or_congr_right (and_congr_right (fun _ => hposition))

theorem first_listed_iff {e : L2ItemRow} (he : e ∈ a.storage.groupItems groupId)
    (hkept : e ∈ (syncWith config nowA groupId a b).storage.groupItems groupId) :
    e ∈ listedRows (syncWith config nowA groupId a b).storage groupId none config.maxBatchSize ↔
      OnFirstPage config.maxBatchSize a.storage (mergedRows groupId a.storage b.storage) e := by
  have hordered : ((syncWith config nowA groupId a b).storage.groupItems groupId).Pairwise
      (fun x y => (syncWith config nowA groupId a b).storage.l2Items.position x.id <
        (syncWith config nowA groupId a b).storage.l2Items.position y.id) :=
    (syncWith config nowA groupId a b).storage.l2Items.position_pairwise.filter _
  have hcount := (first_stamps nowA ha hb).countP_eq
    (fun p => decide (toLex (p.1, a.storage.l2Items.position p.2) < place a.storage e))
  rw [List.countP_map, List.countP_map] at hcount
  unfold listedRows
  rw [CursorPaging.mem_first_page_iff L2ItemRow.updatedAt hordered, and_iff_right hkept]
  change List.countP (fun x => decide (place (syncWith config nowA groupId a b).storage x <
    place (syncWith config nowA groupId a b).storage e)) _ < config.maxBatchSize ↔ _
  simp only [first_place_lt_iff nowA he]
  exact iff_of_eq (congrArg (· < config.maxBatchSize) hcount)

variable (nowB : String)

/-- The second round changes nothing where the peer has no row of the group to
    let in. -/
theorem second_lookup_kept {id : String}
    (h : ∀ x ∈ (syncWith config nowA groupId a b).storage.groupItems groupId, x.id = id →
      ¬ Takes b.storage x) :
    (syncWith config nowB groupId b (syncWith config nowA groupId a b)).storage.l2Items.lookup id =
      b.storage.l2Items.lookup id :=
  syncWith_lookup_kept nowB hb.joined hb.servable (first_servable nowA ha hb)
    (fun x hx => h x (mem_groupItems_of_listed hx))

/-- An id that `a` has no row for and takes none under stays absent, and the
    second round leaves `b` as it was there. -/
theorem held_of_missing {id : String} (ha' : ∀ e ∈ a.storage.groupItems groupId, e.id ≠ id)
    (hkept : ∀ r ∈ b.storage.groupItems groupId, r.id = id → ¬ Takes a.storage r) :
    held (syncWith config nowA groupId a b).storage groupId id = none ∧
      held (syncWith config nowB groupId b (syncWith config nowA groupId a b)).storage groupId id =
        held b.storage groupId id := by
  have habsent : ∀ x ∈ (syncWith config nowA groupId a b).storage.groupItems groupId,
      x.id ≠ id := by
    intro x hx hid
    rcases first_mem_cases nowA ha hb hx with ⟨hmem, _⟩ | ⟨r, hr, htakes, rfl⟩
    · exact ha' x hmem hid
    · exact hkept r hr hid htakes
  refine ⟨held_of_absent habsent, held_congr (second_lookup_kept nowA ha hb nowB ?_)⟩
  intro x hx hid
  exact absurd hid (habsent x hx)

theorem agree_of_taken {r : L2ItemRow} (hr : r ∈ b.storage.groupItems groupId)
    (h : Takes a.storage r) :
    held (syncWith config nowA groupId a b).storage groupId r.id =
      held (syncWith config nowB groupId b (syncWith config nowA groupId a b)).storage groupId
        r.id := by
  obtain ⟨hrow, _⟩ := mem_groupItems.mp hr
  rw [syncWith_held nowA ha.joined ha.servable hb.servable
    ((mem_listedRows_of_fits hb.fits).mpr hr) h]
  refine ((held_congr (second_lookup_kept nowA ha hb nowB ?_)).trans (held_of_mem hr)).symm
  intro x hx hid htakes
  -- the row under the id is the copy of `r`, and its checksum is known to `b`
  have hsame : x = receivedRow (a.storage.l2Items.lookup r.id) nowA (fetchedItem r) :=
    groupItems_id_inj hx (first_mem_taken nowA ha hb hr h) hid
  subst hsame
  exact (htakes r hrow).1 (hb.servable.summed r hr)

/-- Where `a` keeps its row, the second round brings it to `b` if `b` lets it in
    and the listing reaches it. -/
theorem second_held_of_kept {e : L2ItemRow} (he : e ∈ a.storage.groupItems groupId)
    (hkept : ∀ r ∈ b.storage.groupItems groupId, r.id = e.id → ¬ Takes a.storage r) :
    held (syncWith config nowB groupId b (syncWith config nowA groupId a b)).storage groupId e.id =
      if Takes b.storage e ∧
          OnFirstPage config.maxBatchSize a.storage (mergedRows groupId a.storage b.storage) e then
        some e.checksum
      else held b.storage groupId e.id := by
  have hmem := first_mem_kept nowA ha hb he hkept
  have hserv := first_servable nowA ha hb
  split_ifs with h
  · exact syncWith_held nowB hb.joined hb.servable hserv
      ((first_listed_iff nowA ha hb he hmem).mpr h.2) h.1
  · refine held_congr (syncWith_lookup_kept nowB hb.joined hb.servable hserv ?_)
    intro x hx hid htakes
    have hsame : x = e := groupItems_id_inj (mem_groupItems_of_listed hx) hmem hid
    subst hsame
    exact h ⟨htakes, (first_listed_iff nowA ha hb he hmem).mp hx⟩

theorem first_held_of_kept {e : L2ItemRow} (he : e ∈ a.storage.groupItems groupId)
    (hkept : ∀ r ∈ b.storage.groupItems groupId, r.id = e.id → ¬ Takes a.storage r) :
    held (syncWith config nowA groupId a b).storage groupId e.id = some e.checksum :=
  held_of_mem (first_mem_kept nowA ha hb he hkept)

theorem onFirstPage_of_agree {e : L2ItemRow} (he : e ∈ a.storage.groupItems groupId)
    (htakes : Takes b.storage e)
    (h : held (syncWith config nowA groupId a b).storage groupId e.id =
      held (syncWith config nowB groupId b (syncWith config nowA groupId a b)).storage groupId e.id) :
    OnFirstPage config.maxBatchSize a.storage (mergedRows groupId a.storage b.storage) e := by
  have hkept := fun r hr hid => not_takes_of_takes (a := a) (b := b) (r := r) he hr hid htakes
  rw [first_held_of_kept nowA ha hb he hkept, second_held_of_kept nowA ha hb nowB he hkept] at h
  by_contra hpage
  rw [if_neg (fun hboth => hpage hboth.2)] at h
  -- `b` would hold the very checksum that `e` supersedes
  obtain ⟨r, hr, hid, hsame⟩ := exists_of_held h.symm
  refine (htakes r (hid ▸ (mem_groupItems.mp hr).1)).1 (hsame.trans ?_)
  change e.checksum = some (e.checksum.getD "")
  rw [ha.servable.summed e he, Option.getD_some]

theorem settles_there_of_agree {r : L2ItemRow} (hr : r ∈ b.storage.groupItems groupId)
    (h : held (syncWith config nowA groupId a b).storage groupId r.id =
      held (syncWith config nowB groupId b (syncWith config nowA groupId a b)).storage groupId r.id) :
    Settles groupId a.storage b.storage r := by
  by_cases htakes : Takes a.storage r
  · exact .inl htakes
  have hkept : ∀ q ∈ b.storage.groupItems groupId, q.id = r.id → ¬ Takes a.storage q := by
    intro q hq hid
    rw [groupItems_id_inj hq hr hid]
    exact htakes
  by_cases he : ∃ e ∈ a.storage.groupItems groupId, e.id = r.id
  · obtain ⟨e, he, hid⟩ := he
    refine .inr ⟨e, he, hid, ?_⟩
    rw [← hid] at h hkept
    rw [first_held_of_kept nowA ha hb he hkept, second_held_of_kept nowA ha hb nowB he hkept] at h
    split_ifs at h with hboth
    · exact .inr hboth.1
    · rw [hid, held_of_mem hr] at h
      exact .inl (Option.some.inj h)
  · -- `a` ends without the id while `b` keeps its row
    obtain ⟨hnone, hsecond⟩ :=
      held_of_missing nowA ha hb nowB (fun e hmem hid => he ⟨e, hmem, hid⟩) hkept
    rw [hnone, hsecond, held_of_mem hr] at h
    cases h

theorem settles_here_of_agree {e : L2ItemRow} (he : e ∈ a.storage.groupItems groupId)
    (h : held (syncWith config nowA groupId a b).storage groupId e.id =
      held (syncWith config nowB groupId b (syncWith config nowA groupId a b)).storage groupId e.id) :
    Settles groupId b.storage a.storage e := by
  by_cases htakes : Takes b.storage e
  · exact .inl htakes
  refine .inr ?_
  by_cases htaken : ∃ r ∈ b.storage.groupItems groupId, r.id = e.id ∧ Takes a.storage r
  · obtain ⟨r, hr, hid, htaken⟩ := htaken
    exact ⟨r, hr, hid, .inr htaken⟩
  have hkept : ∀ r ∈ b.storage.groupItems groupId, r.id = e.id → ¬ Takes a.storage r :=
    fun r hr hid htakes => htaken ⟨r, hr, hid, htakes⟩
  rw [first_held_of_kept nowA ha hb he hkept, second_held_of_kept nowA ha hb nowB he hkept,
    if_neg (fun hboth => htakes hboth.1)] at h
  obtain ⟨r, hr, hid, hsame⟩ := exists_of_held h.symm
  exact ⟨r, hr, hid, .inl hsame⟩

/-- Two rounds make the nodes agree exactly when every row settles and the
    listing of the second round reaches every row that `b` lets in. -/
theorem heals_iff : Heals config groupId nowA nowB a b ↔
    (∀ r ∈ b.storage.groupItems groupId, Settles groupId a.storage b.storage r) ∧
      (∀ e ∈ a.storage.groupItems groupId, Settles groupId b.storage a.storage e) ∧
      ∀ e ∈ a.storage.groupItems groupId, Takes b.storage e →
        OnFirstPage config.maxBatchSize a.storage (mergedRows groupId a.storage b.storage) e := by
  constructor
  · intro h
    exact ⟨fun r hr => settles_there_of_agree nowA ha hb nowB hr (h r.id),
      fun e he => settles_here_of_agree nowA ha hb nowB he (h e.id),
      fun e he htakes => onFirstPage_of_agree nowA ha hb nowB he htakes (h e.id)⟩
  · rintro ⟨hthere, hhere, hpage⟩ id
    by_cases htaken : ∃ r ∈ b.storage.groupItems groupId, r.id = id ∧ Takes a.storage r
    · obtain ⟨r, hr, rfl, htakes⟩ := htaken
      exact agree_of_taken nowA ha hb nowB hr htakes
    have hkept : ∀ r ∈ b.storage.groupItems groupId, r.id = id → ¬ Takes a.storage r :=
      fun r hr hid htakes => htaken ⟨r, hr, hid, htakes⟩
    by_cases he : ∃ e ∈ a.storage.groupItems groupId, e.id = id
    · obtain ⟨e, he, rfl⟩ := he
      rw [first_held_of_kept nowA ha hb he hkept, second_held_of_kept nowA ha hb nowB he hkept]
      by_cases htakes : Takes b.storage e
      · rw [if_pos ⟨htakes, hpage e he htakes⟩]
      · rw [if_neg (fun hboth => htakes hboth.1)]
        -- `b` does not let `e` in, so it holds the id with the same checksum
        rcases hhere e he with hin | ⟨r, hr, hid, hsame | htaken⟩
        · exact absurd hin htakes
        · rw [← hid, held_of_mem hr, hsame]
        · exact absurd htaken (hkept r hr hid)
    · have hb' : ∀ r ∈ b.storage.groupItems groupId, r.id ≠ id := by
        intro r hr hid
        rcases hthere r hr with hin | ⟨e, hmem, heid, _⟩
        · exact hkept r hr hid hin
        · exact he ⟨e, hmem, heid.trans hid⟩
      obtain ⟨hnone, hsecond⟩ :=
        held_of_missing nowA ha hb nowB (fun e hmem hid => he ⟨e, hmem, hid⟩) hkept
      rw [hnone, hsecond, held_of_absent hb']

end Heal

section Example

def noteRow (content updatedAt : String) : L2ItemRow :=
  receivedRow none "2026-02-01 00:00:00" (noteVersion content updatedAt)

theorem noteRow_checks (content updatedAt : String) : L2Checks (noteRow content updatedAt) :=
  (receivedRow_checks _ _ _).mpr (noteVersion_wellFormed content updatedAt).2

def noteNode (entityId content updatedAt : String) : Node where
  storage := { createNew with
    l2Items := Table.empty.put (noteRow content updatedAt) (noteRow_checks content updatedAt) }
  entityId := entityId
  ourGroups := ["seed-drill"]

theorem noteNode_lookup (entityId content updatedAt : String) :
    (noteNode entityId content updatedAt).storage.l2Items.lookup "note-1" =
      some (noteRow content updatedAt) :=
  Table.empty.lookup_put_self _ (noteRow_checks content updatedAt)

theorem noteNode_groupItems (entityId content updatedAt : String) :
    (noteNode entityId content updatedAt).storage.groupItems "seed-drill" =
      [noteRow content updatedAt] := rfl

theorem noteNode_member (entityId content updatedAt : String)
    (hsize : (asBytes content).length ≤ maxItemBytes) :
    Member .default "seed-drill" (noteNode entityId content updatedAt) where
  joined := (by decide : "seed-drill" ∈ ["seed-drill"])
  fits := by
    rw [noteNode_groupItems]
    exact (by decide : 1 ≤ 100)
  servable :=
    { small := by
        rw [noteNode_groupItems]
        intro r hr
        rw [List.mem_singleton.mp hr]
        exact hsize
      summed := by
        rw [noteNode_groupItems]
        intro r hr
        rw [List.mem_singleton.mp hr]
        rfl }

theorem takes_noteRow_iff (entityId content updatedAt content' updatedAt' : String) :
    Takes (noteNode entityId content updatedAt).storage (noteRow content' updatedAt') ↔
      Replication.checksum (asBytes content) ≠ Replication.checksum (asBytes content') ∧
        updatedAt < updatedAt' := by
  have hlookup := noteNode_lookup entityId content updatedAt
  unfold Takes
  rw [show (noteRow content' updatedAt').id = "note-1" from rfl, hlookup]
  constructor
  · intro h
    obtain ⟨hsum, hlt⟩ := h _ rfl
    exact ⟨fun heq => hsum (congrArg some heq), hlt⟩
  · rintro ⟨hsum, hlt⟩ e he
    cases he
    exact ⟨fun heq => hsum (Option.some.inj heq), hlt⟩

theorem noteNode_apart (entityId content updatedAt entityId' content' updatedAt' : String) :
    ∀ r ∈ (noteNode entityId content updatedAt).storage.groupItems "seed-drill",
      ∀ q ∈ (noteNode entityId' content' updatedAt').storage.l2Items.lookup r.id,
        q.groupId = some "seed-drill" := by
  intro r hr q hq
  rw [noteNode_groupItems, List.mem_singleton] at hr
  subst hr
  cases (noteNode_lookup entityId' content' updatedAt').symm.trans hq
  rfl

end Example
end Digest

/-- Two versions of one note with one stamp stay apart. -/
theorem tiedNotes_disagree :
    let := knownDigests
    let a := noteNode "russell" "a" "2026-02-01T00:00:00Z"
    let b := noteNode "martin" "" "2026-02-01T00:00:00Z"
    Member .default "seed-drill" a ∧ Member .default "seed-drill" b ∧
      (∀ r ∈ a.storage.groupItems "seed-drill", ∀ q ∈ b.storage.l2Items.lookup r.id,
        q.groupId = some "seed-drill") ∧
      (∀ r ∈ b.storage.groupItems "seed-drill", ∀ q ∈ a.storage.l2Items.lookup r.id,
        q.groupId = some "seed-drill") ∧
      ¬ Heals .default "seed-drill" "2026-02-09 00:00:00" "2026-02-09 00:01:00" a b := by
  let := knownDigests
  have ha := noteNode_member "russell" "a" "2026-02-01T00:00:00Z" (by decide)
  have hb := noteNode_member "martin" "" "2026-02-01T00:00:00Z" (by decide)
  refine ⟨ha, hb, noteNode_apart _ _ _ _ _ _, noteNode_apart _ _ _ _ _ _, fun hheals => ?_⟩
  have hmem : noteRow "" "2026-02-01T00:00:00Z" ∈
      (noteNode "martin" "" "2026-02-01T00:00:00Z").storage.groupItems "seed-drill" := by
    rw [noteNode_groupItems]
    exact List.mem_cons_self
  rcases settles_there_of_agree _ ha hb _ hmem (hheals "note-1") with htakes | ⟨e, he, _, hsame⟩
  · exact lt_irrefl _ ((takes_noteRow_iff _ _ _ _ _).mp htakes).2
  · rw [noteNode_groupItems, List.mem_singleton] at he
    subst he
    rcases hsame with hsame | htakes
    · exact note_checksums_differ (Option.some.inj hsame)
    · exact lt_irrefl _ ((takes_noteRow_iff _ _ _ _ _).mp htakes).2

/-- A note edited on one side of the partition heals. -/
theorem editedNote_heals :
    let := knownDigests
    Heals .default "seed-drill" "2026-02-09 00:00:00" "2026-02-09 00:01:00"
      (noteNode "russell" "a" "2026-02-01T00:00:00Z")
      (noteNode "martin" "" "2026-02-02T00:00:00Z") := by
  let := knownDigests
  have ha := noteNode_member "russell" "a" "2026-02-01T00:00:00Z" (by decide)
  have hb := noteNode_member "martin" "" "2026-02-02T00:00:00Z" (by decide)
  have htakes : Takes (noteNode "russell" "a" "2026-02-01T00:00:00Z").storage
      (noteRow "" "2026-02-02T00:00:00Z") :=
    (takes_noteRow_iff _ _ _ _ _).mpr ⟨note_checksums_differ, by decide⟩
  have hold : ¬ Takes (noteNode "martin" "" "2026-02-02T00:00:00Z").storage
      (noteRow "a" "2026-02-01T00:00:00Z") := fun h =>
    absurd ((takes_noteRow_iff _ _ _ _ _).mp h).2 (by decide)
  refine (heals_iff _ ha hb _).mpr ⟨?_, ?_, ?_⟩
  all_goals
    intro r hr
    rw [noteNode_groupItems, List.mem_singleton] at hr
    subst hr
  · exact .inl htakes
  · refine .inr ⟨noteRow "" "2026-02-02T00:00:00Z", ?_, rfl, .inr htakes⟩
    rw [noteNode_groupItems]
    exact List.mem_cons_self
  · exact fun h => absurd h hold

end CordeliaCore.PartitionHeal
