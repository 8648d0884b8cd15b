import CordeliaCore.DescriptorEffect

set_option autoImplicit false

namespace CordeliaCore.MergeFrame
open CryptoPrimitives ProtocolMessages StorageRows StorageSqlite KeyedTable Swarm SqliteStorage

section Members

def withdrawn (m : GroupMemberRow) : GroupMemberRow := { m with posture := some "removed" }

theorem withdrawn_checks {m : GroupMemberRow} (h : MemberChecks m) : MemberChecks (withdrawn m) := by
  refine ⟨h.1, ?_⟩
  rintro p ⟨⟩
  exact (by decide : "removed" ∈ memberPostures)

theorem not_visible_withdrawn (m : GroupMemberRow) : memberVisible (withdrawn m) = false := by
  simp [memberVisible, withdrawn]

def Deserted (db : SqliteStorage) (g : String) : Prop :=
  ∀ entityId m, db.groupMembers.lookup (toLex (g, entityId)) = some m → memberVisible m = false

theorem deserted_iff {db : SqliteStorage} {g : String} : Deserted db g ↔ db.listMembers g = [] := by
  unfold Deserted
  rw [List.eq_nil_iff_forall_not_mem]
  constructor
  · intro h m hlisted
    obtain ⟨hm, rfl, hvisible⟩ := mem_listMembers.mp hlisted
    have hrow := db.groupMembers.lookup_key hm
    rw [h m.entityId m hrow] at hvisible
    cases hvisible
  · intro h entityId m hm
    have hkey := Table.key_of_lookup hm
    have hgroup : m.groupId = g := congrArg (fun k => (ofLex k).1) hkey
    by_contra hvisible
    exact h m (mem_listMembers.mpr ⟨Table.mem_of_lookup hm, hgroup, by simpa using hvisible⟩)

theorem updateMemberPosture_removed (s : SqliteStorage) (g entityId : String) :
    ∃ changed t, s.updateMemberPosture g entityId "removed" = .ok (changed, t) ∧
      ∀ k, t.groupMembers.lookup k = (s.groupMembers.lookup k).map
        (fun m => if k = toLex (g, entityId) then withdrawn m else m) := by
  unfold SqliteStorage.updateMemberPosture
  cases hm : s.groupMembers.lookup (toLex (g, entityId)) with
  | none =>
    refine ⟨false, s, rfl, fun k => ?_⟩
    by_cases hk : k = toLex (g, entityId)
    · rw [hk, hm]
      rfl
    · simp [hk]
  | some m =>
    have hchecks : MemberChecks (withdrawn m) :=
      withdrawn_checks (s.groupMembers.checked m (Table.mem_of_lookup hm))
    have hkey : memberKey m = toLex (g, entityId) := Table.key_of_lookup hm
    refine ⟨true, _, dif_pos hchecks, fun k => ?_⟩
    have hput := s.groupMembers.lookup_put (withdrawn m) hchecks k
    rw [show memberKey (withdrawn m) = toLex (g, entityId) from hkey] at hput
    refine hput.trans ?_
    by_cases hk : k = toLex (g, entityId)
    · rw [if_pos hk.symm, hk, hm]
      simp
    · rw [if_neg (fun h => hk h.symm)]
      simp [hk]

variable [Sha256]

omit [Sha256] in
theorem foldl_withdraws {g : String} {f : SqliteStorage → GroupMemberRow → SqliteStorage}
    (hf : ∀ {s m changed t}, s.updateMemberPosture g m.entityId "removed" = .ok (changed, t) →
      f s m = t)
    (members : List GroupMemberRow) (s : SqliteStorage) (k : String ×ₗ String) :
    (members.foldl f s).groupMembers.lookup k =
      (s.groupMembers.lookup k).map
        (fun m => if ∃ r ∈ members, k = toLex (g, r.entityId) then withdrawn m else m) := by
  induction members generalizing s with
  | nil => simp
  | cons r members ih =>
    obtain ⟨changed, t, ht, hlookup⟩ := updateMemberPosture_removed s g r.entityId
    rw [List.foldl_cons, ih, hf ht, hlookup k, Option.map_map]
    congr 1
    funext m
    by_cases hr : k = toLex (g, r.entityId)
    · simp [hr, withdrawn]
    · simp [hr]

theorem removeMembers_lookup (s : SqliteStorage) (g : String) (k : String ×ₗ String) :
    (removeMembers s g).groupMembers.lookup k =
      (s.groupMembers.lookup k).map
        (fun m => if m.groupId = g ∧ memberVisible m then withdrawn m else m) := by
  change ((s.listMembers g).foldl _ s).groupMembers.lookup k = _
  rw [foldl_withdraws (g := g)]
  swap
  · intro s m changed t h
    have hcall : Storage.updateMemberPosture s g m.entityId "removed" = .ok (changed, t) := h
    rw [hcall]
  cases hm : s.groupMembers.lookup k with
  | none => rfl
  | some m =>
    have hkey : memberKey m = k := Table.key_of_lookup hm
    have hlisted : (∃ r ∈ s.listMembers g, k = toLex (g, r.entityId)) ↔
        m.groupId = g ∧ memberVisible m := by
      constructor
      · rintro ⟨r, hr, hk⟩
        obtain ⟨hrow, hgroup, hvisible⟩ := mem_listMembers.mp hr
        have hsame : s.groupMembers.lookup k = some r := by
          rw [hk, ← hgroup]
          exact s.groupMembers.lookup_key hrow
        rw [hm] at hsame
        cases hsame
        exact ⟨hgroup, hvisible⟩
      · rintro ⟨rfl, hvisible⟩
        exact ⟨m, mem_listMembers.mpr ⟨Table.mem_of_lookup hm, rfl, hvisible⟩, hkey.symm⟩
    simp only [Option.map_some, hlisted]

theorem removeMembers_deserted (s : SqliteStorage) (g : String) : Deserted (removeMembers s g) g := by
  intro entityId m hm
  rw [removeMembers_lookup] at hm
  obtain ⟨old, hold, rfl⟩ := Option.map_eq_some_iff.mp hm
  have hgroup : old.groupId = g := congrArg (fun k => (ofLex k).1) (Table.key_of_lookup hold)
  by_cases hvisible : memberVisible old = true
  · rw [if_pos ⟨hgroup, hvisible⟩]
    exact not_visible_withdrawn old
  · rw [if_neg (fun h => hvisible h.2)]
    simpa using hvisible

theorem Deserted.removeMembers {s : SqliteStorage} {g : String} (h : Deserted s g) (other : String) :
    Deserted (removeMembers s other) g := by
  intro entityId m hm
  rw [removeMembers_lookup] at hm
  obtain ⟨old, hold, rfl⟩ := Option.map_eq_some_iff.mp hm
  rw [if_neg (fun hlisted => by simp [h entityId old hold] at hlisted)]
  exact h entityId old hold

theorem removeMembers_other (s : SqliteStorage) {g other : String} (h : g ≠ other) (entityId : String) :
    (removeMembers s other).groupMembers.lookup (toLex (g, entityId)) =
      s.groupMembers.lookup (toLex (g, entityId)) := by
  rw [removeMembers_lookup]
  cases hm : s.groupMembers.lookup (toLex (g, entityId)) with
  | none => rfl
  | some m =>
    have hgroup : m.groupId = g := congrArg (fun k => (ofLex k).1) (Table.key_of_lookup hm)
    rw [Option.map_some, if_neg (fun hlisted => h (hgroup.symm.trans hlisted.1))]

end Members

section Report
variable [Sha256] [Ed25519]

def SameGroup (g : String) (db db' : SqliteStorage) : Prop :=
  db'.groups.lookup g = db.groups.lookup g ∧ ∀ entityId,
    db'.groupMembers.lookup (toLex (g, entityId)) = db.groupMembers.lookup (toLex (g, entityId))

omit [Sha256] [Ed25519] in
theorem SameGroup.trans {g : String} {db db' db'' : SqliteStorage} (h : SameGroup g db db')
    (h' : SameGroup g db' db'') : SameGroup g db db'' :=
  ⟨h'.1.trans h.1, fun entityId => (h'.2 entityId).trans (h.2 entityId)⟩

def reportOf (desc : GroupDescriptor) : MergeResult :=
  if desc.isTombstone then ⟨[], [desc.id]⟩ else ⟨[desc.id], []⟩

def withDescriptor (db : SqliteStorage) (now localName : String) (desc : GroupDescriptor) :
    SqliteStorage :=
  persistSignature (db.writeGroup now desc.id localName desc.culture "{}") desc

omit [Ed25519] in
theorem writeDescriptor_eq (db : SqliteStorage) (now localName : String) (desc : GroupDescriptor) :
    writeDescriptor db now localName desc =
      (reportOf desc, if desc.isTombstone then
        removeMembers (withDescriptor db now localName desc) desc.id
      else withDescriptor db now localName desc) := by
  unfold writeDescriptor reportOf withDescriptor
  rw [writeGroup_ok]
  dsimp only
  split_ifs <;> rfl

omit [Ed25519] in
theorem withDescriptor_groupMembers (db : SqliteStorage) (now localName : String)
    (desc : GroupDescriptor) :
    (withDescriptor db now localName desc).groupMembers = db.groupMembers := by
  unfold withDescriptor persistSignature
  cases signatureFields desc with
  | none => rfl
  | some fields =>
    change (SqliteStorage.writeGroupSignature _ _ _ _ _).groupMembers = _
    unfold SqliteStorage.writeGroupSignature
    split <;> rfl

section Step
variable (db : SqliteStorage) (now : String) {desc : GroupDescriptor} {g : String}

theorem mergeDescriptor_of_other (h : desc.id ≠ g) :
    SameGroup g db (mergeDescriptor db now desc).2 := by
  refine ⟨?_, fun entityId => ?_⟩
  · rw [mergeDescriptor_lookup, if_neg (fun hid => h hid.1)]
  by_cases hm : Merges desc (db.groups.lookup desc.id)
  · rw [mergeDescriptor_of_merges db now desc hm, writeDescriptor_eq]
    dsimp only
    split_ifs
    · rw [removeMembers_other _ (fun heq => h heq.symm), withDescriptor_groupMembers]
    · rw [withDescriptor_groupMembers]
  · rw [mergeDescriptor_otherwise db now desc hm]

theorem mergeDescriptor_unreported (hupserted : g ∉ (mergeDescriptor db now desc).1.upserted)
    (htombstoned : g ∉ (mergeDescriptor db now desc).1.tombstoned) :
    SameGroup g db (mergeDescriptor db now desc).2 := by
  by_cases hid : desc.id = g
  swap
  · exact mergeDescriptor_of_other db now hid
  by_cases hm : Merges desc (db.groups.lookup desc.id)
  · rw [mergeDescriptor_of_merges db now desc hm, writeDescriptor_eq] at hupserted htombstoned
    unfold reportOf at hupserted htombstoned
    split_ifs at hupserted htombstoned <;> simp [hid] at hupserted htombstoned
  · rw [mergeDescriptor_otherwise db now desc hm]
    exact ⟨rfl, fun _ => rfl⟩

theorem mergeDescriptor_tombstoned (h : g ∈ (mergeDescriptor db now desc).1.tombstoned) :
    Deserted (mergeDescriptor db now desc).2 g := by
  by_cases hm : Merges desc (db.groups.lookup desc.id)
  swap
  · rw [mergeDescriptor_otherwise db now desc hm] at h
    simp at h
  rw [mergeDescriptor_of_merges db now desc hm, writeDescriptor_eq] at h ⊢
  unfold reportOf at h
  dsimp only at h ⊢
  split_ifs at h ⊢
  · rw [List.mem_singleton.mp h]
    exact removeMembers_deserted _ _
  · simp at h

theorem Deserted.mergeDescriptor (h : Deserted db g) :
    Deserted (mergeDescriptor db now desc).2 g := by
  by_cases hm : Merges desc (db.groups.lookup desc.id)
  swap
  · rwa [mergeDescriptor_otherwise db now desc hm]
  have hwritten : ∀ localName, Deserted (withDescriptor db now localName desc) g := by
    intro localName entityId m hmember
    rw [withDescriptor_groupMembers] at hmember
    exact h entityId m hmember
  rw [mergeDescriptor_of_merges db now desc hm, writeDescriptor_eq]
  dsimp only
  split_ifs
  · exact (hwritten _).removeMembers desc.id
  · exact hwritten _

end Step

theorem mergeDescriptors_cons (db : SqliteStorage) (d : String × GroupDescriptor)
    (descriptors : List (String × GroupDescriptor)) :
    mergeDescriptors db (d :: descriptors) =
      ((mergeDescriptor db d.1 d.2).1.append
          (mergeDescriptors (mergeDescriptor db d.1 d.2).2 descriptors).1,
        (mergeDescriptors (mergeDescriptor db d.1 d.2).2 descriptors).2) := by
  have hfold : ∀ (descriptors : List (String × GroupDescriptor)) (acc : MergeResult × SqliteStorage),
      descriptors.foldl (fun acc d =>
          let merged := mergeDescriptor acc.2 d.1 d.2
          (acc.1.append merged.1, merged.2)) acc =
        (acc.1.append (mergeDescriptors acc.2 descriptors).1,
          (mergeDescriptors acc.2 descriptors).2) := by
    intro descriptors
    induction descriptors with
    | nil =>
      intro acc
      simp [mergeDescriptors, MergeResult.append]
    | cons d descriptors ih =>
      intro acc
      unfold mergeDescriptors
      rw [List.foldl_cons, List.foldl_cons, ih, ih]
      simp [MergeResult.append, List.append_assoc]
  unfold mergeDescriptors
  rw [List.foldl_cons, hfold]
  simp [MergeResult.append, mergeDescriptors]

variable {g : String}

theorem mergeDescriptors_unreported (db : SqliteStorage) (descriptors : List (String × GroupDescriptor))
    (hupserted : g ∉ (mergeDescriptors db descriptors).1.upserted)
    (htombstoned : g ∉ (mergeDescriptors db descriptors).1.tombstoned) :
    SameGroup g db (mergeDescriptors db descriptors).2 := by
  induction descriptors generalizing db with
  | nil => exact ⟨rfl, fun _ => rfl⟩
  | cons d descriptors ih =>
    rw [mergeDescriptors_cons] at hupserted htombstoned ⊢
    obtain ⟨hupserted, hupserted'⟩ := not_or.mp (fun h => hupserted (List.mem_append.mpr h))
    obtain ⟨htombstoned, htombstoned'⟩ := not_or.mp (fun h => htombstoned (List.mem_append.mpr h))
    exact (mergeDescriptor_unreported db d.1 hupserted htombstoned).trans
      (ih _ hupserted' htombstoned')

theorem Deserted.mergeDescriptors {db : SqliteStorage} (h : Deserted db g)
    (descriptors : List (String × GroupDescriptor)) :
    Deserted (mergeDescriptors db descriptors).2 g := by
  induction descriptors generalizing db with
  | nil => exact h
  | cons d descriptors ih =>
    rw [mergeDescriptors_cons]
    exact ih (h.mergeDescriptor db d.1)

theorem mergeDescriptors_tombstoned (db : SqliteStorage) (descriptors : List (String × GroupDescriptor))
    (h : g ∈ (mergeDescriptors db descriptors).1.tombstoned) :
    Deserted (mergeDescriptors db descriptors).2 g := by
  induction descriptors generalizing db with
  | nil => cases h
  | cons d descriptors ih =>
    rw [mergeDescriptors_cons] at h ⊢
    rcases List.mem_append.mp h with hfirst | hlater
    · exact (mergeDescriptor_tombstoned db d.1 hfirst).mergeDescriptors descriptors
    · exact ih _ hlater

/-- A descriptor that fails a test may as well not be in the list. -/
theorem mergeDescriptors_refused (db : SqliteStorage) (past coming : List (String × GroupDescriptor))
    {d : String × GroupDescriptor}
    (h : ¬ Merges d.2 ((mergeDescriptors db past).2.groups.lookup d.2.id)) :
    mergeDescriptors db (past ++ d :: coming) = mergeDescriptors db (past ++ coming) := by
  induction past generalizing db with
  | nil =>
    rw [List.nil_append, List.nil_append, mergeDescriptors_cons,
      mergeDescriptor_otherwise db d.1 d.2 h]
    rfl
  | cons p past ih =>
    rw [mergeDescriptors_cons] at h
    rw [List.cons_append, List.cons_append, mergeDescriptors_cons, mergeDescriptors_cons, ih _ h]

/-- The report of a merge says which groups it changed, and every tombstoned one is without
    visible members. -/
structure Faithful (db : SqliteStorage) (descriptors : List (String × GroupDescriptor)) : Prop where
  unreported : ∀ g, g ∉ (mergeDescriptors db descriptors).1.upserted →
    g ∉ (mergeDescriptors db descriptors).1.tombstoned →
      SameGroup g db (mergeDescriptors db descriptors).2
  tombstoned : ∀ g ∈ (mergeDescriptors db descriptors).1.tombstoned,
    (mergeDescriptors db descriptors).2.listMembers g = []
  refused : ∀ past d coming, descriptors = past ++ d :: coming →
    ¬ Merges d.2 ((mergeDescriptors db past).2.groups.lookup d.2.id) →
      mergeDescriptors db descriptors = mergeDescriptors db (past ++ coming)

theorem merge_reports_changes (db : SqliteStorage) (descriptors : List (String × GroupDescriptor)) :
    Faithful db descriptors where
  unreported _ := mergeDescriptors_unreported db descriptors
  tombstoned _ h := deserted_iff.mp (mergeDescriptors_tombstoned db descriptors h)
  refused past d coming hlist h := by
    rw [hlist]
    exact mergeDescriptors_refused db past coming h

end Report

section Local
variable [Sha256] [Ed25519]

/-- Only the replicated columns of the row may differ, and nothing else of the groups. -/
structure LocalKept (g : String) (row : GroupRow) (db db' : SqliteStorage) : Prop where
  row : ∃ merged, db'.groups.lookup g = some merged ∧ merged.name = row.name ∧
    merged.securityPolicy = row.securityPolicy ∧ merged.createdAt = row.createdAt
  members : db'.groupMembers = db.groupMembers
  others : ∀ other, other ≠ g → db'.groups.lookup other = db.groups.lookup other

omit [Sha256] [Ed25519] in
theorem mergedRow_local (row : GroupRow) (now : String) (desc : GroupDescriptor) :
    (mergedRow (some row) now desc).name = row.name ∧
      (mergedRow (some row) now desc).securityPolicy = "{}" ∧
      (mergedRow (some row) now desc).createdAt = row.createdAt := by
  unfold mergedRow withSignature
  cases signatureFields desc <;> exact ⟨rfl, rfl, rfl⟩

variable {db : SqliteStorage} {now : String} {desc : GroupDescriptor} {row : GroupRow}

theorem mergeDescriptors_one (db : SqliteStorage) (now : String) (desc : GroupDescriptor) :
    mergeDescriptors db [(now, desc)] = mergeDescriptor db now desc := by
  rw [mergeDescriptors_cons]
  simp [mergeDescriptors, MergeResult.append]

theorem accepted_of_upserted (h : desc.id ∈ (mergeDescriptor db now desc).1.upserted) :
    Merges desc (db.groups.lookup desc.id) ∧ desc.isTombstone = false := by
  by_cases hm : Merges desc (db.groups.lookup desc.id)
  · rw [mergeDescriptor_of_merges db now desc hm, writeDescriptor_eq] at h
    unfold reportOf at h
    refine ⟨hm, ?_⟩
    by_contra htomb
    rw [if_pos (by simpa using htomb)] at h
    cases h
  · rw [mergeDescriptor_otherwise db now desc hm] at h
    simp at h

theorem upserted_groupMembers (h : desc.id ∈ (mergeDescriptor db now desc).1.upserted) :
    (mergeDescriptor db now desc).2.groupMembers = db.groupMembers := by
  obtain ⟨hm, htomb⟩ := accepted_of_upserted h
  rw [mergeDescriptor_of_merges db now desc hm, writeDescriptor_eq]
  dsimp only
  rw [htomb, if_neg (by decide)]
  exact withDescriptor_groupMembers _ _ _ _

theorem upserted_lookup (hrow : db.groups.lookup desc.id = some row)
    (h : desc.id ∈ (mergeDescriptor db now desc).1.upserted) :
    (mergeDescriptor db now desc).2.groups.lookup desc.id = some (mergedRow (some row) now desc) := by
  rw [mergeDescriptor_lookup, if_pos ⟨rfl, (accepted_of_upserted h).1⟩, hrow]

/-- An accepted descriptor leaves the local columns, the members and the other groups alone
    exactly when the policy of its group is the empty one. -/
theorem local_columns_kept_iff (db : SqliteStorage) (now : String) (desc : GroupDescriptor)
    (row : GroupRow) (hrow : db.groups.lookup desc.id = some row)
    (haccepted : desc.id ∈ (mergeDescriptors db [(now, desc)]).1.upserted) :
    LocalKept desc.id row db (mergeDescriptors db [(now, desc)]).2 ↔
      row.securityPolicy = "{}" := by
  rw [mergeDescriptors_one] at haccepted ⊢
  have hmerged := upserted_lookup hrow haccepted
  obtain ⟨hname, hpolicy, hcreated⟩ := mergedRow_local row now desc
  constructor
  · rintro ⟨⟨merged, hlookup, -, hsame, -⟩, -, -⟩
    rw [hmerged] at hlookup
    cases hlookup
    exact hsame.symm.trans hpolicy
  · intro hempty
    refine ⟨⟨_, hmerged, hname, hpolicy.trans hempty.symm, hcreated⟩,
      upserted_groupMembers haccepted, fun other hother => ?_⟩
    exact (mergeDescriptor_of_other db now (fun heq => hother heq.symm)).1

end Local

section Example

def chattyOffer : GroupDescriptor where
  id := "seed-drill"
  culture := "chatty"
  updatedAt := "2026-02-02 00:00:00"
  checksum := @GroupDescriptor.computeChecksum knownDigests "seed-drill" "chatty"
  ownerId := none
  ownerPubkey := none
  signature := none

def storeWithPolicy (securityPolicy : String) : SqliteStorage :=
  createNew.writeGroup "2026-02-01 00:00:00" "seed-drill" "Seed drill" "taciturn" securityPolicy

def rowWithPolicy (securityPolicy : String) : GroupRow :=
  groupUpserted none "2026-02-01 00:00:00" "seed-drill" "Seed drill" "taciturn" securityPolicy

theorem storeWithPolicy_lookup (securityPolicy : String) :
    (storeWithPolicy securityPolicy).groups.lookup "seed-drill" =
      some (rowWithPolicy securityPolicy) :=
  (writeGroup_lookup createNew _ _ _ _ _ "seed-drill").trans (if_pos rfl)

theorem chattyOffer_upserted (securityPolicy : String) :
    let := knownDigests
    let := shortSignatures
    chattyOffer.id ∈
      (mergeDescriptors (storeWithPolicy securityPolicy) [("2026-02-03 00:00:00", chattyOffer)]).1.upserted := by
  intro _ _
  have hmerges : Merges chattyOffer
      ((storeWithPolicy securityPolicy).groups.lookup chattyOffer.id) := by
    refine ⟨⟨beq_self_eq_true _, .inl (by decide), rfl⟩, ?_⟩
    rw [show chattyOffer.id = "seed-drill" from rfl, storeWithPolicy_lookup]
    rintro row ⟨⟩
    exact ⟨rfl, (by decide : "2026-02-01 00:00:00" < "2026-02-02 00:00:00")⟩
  rw [mergeDescriptors_one, mergeDescriptor_of_merges _ _ _ hmerges, writeDescriptor_eq]
  exact List.mem_singleton.mpr rfl

/-- A culture from a peer takes the policy of the group with it. -/
theorem merge_clears_policy :
    let := knownDigests
    let := shortSignatures
    let db := storeWithPolicy "standard"
    let merged := mergeDescriptors db [("2026-02-03 00:00:00", chattyOffer)]
    db.groups.lookup chattyOffer.id = some (rowWithPolicy "standard") ∧
      chattyOffer.id ∈ merged.1.upserted ∧
      (merged.2.groups.lookup "seed-drill").map (·.securityPolicy) = some "{}" ∧
      ¬ LocalKept chattyOffer.id (rowWithPolicy "standard") db merged.2 := by
  intro _ _ db merged
  have hrow : db.groups.lookup chattyOffer.id = some (rowWithPolicy "standard") :=
    storeWithPolicy_lookup "standard"
  have hupserted : chattyOffer.id ∈ merged.1.upserted := chattyOffer_upserted "standard"
  have hmerged : merged.2.groups.lookup chattyOffer.id =
      some (mergedRow (some (rowWithPolicy "standard")) "2026-02-03 00:00:00" chattyOffer) := by
    have hone := mergeDescriptors_one db "2026-02-03 00:00:00" chattyOffer
    change (mergeDescriptors db _).2.groups.lookup _ = _
    rw [hone]
    exact upserted_lookup hrow (hone ▸ hupserted)
  refine ⟨hrow, hupserted, congrArg (Option.map (·.securityPolicy)) hmerged, fun h => ?_⟩
  obtain ⟨row, hlookup, -, hpolicy, -⟩ := h.row
  rw [hmerged] at hlookup
  cases hlookup
  exact absurd hpolicy (by decide)

theorem empty_policy_kept :
    let := knownDigests
    let := shortSignatures
    let db := storeWithPolicy "{}"
    LocalKept chattyOffer.id (rowWithPolicy "{}") db
        (mergeDescriptors db [("2026-02-03 00:00:00", chattyOffer)]).2 ↔
      (rowWithPolicy "{}").securityPolicy = "{}" := by
  intro _ _ db
  exact local_columns_kept_iff db _ chattyOffer (rowWithPolicy "{}") (storeWithPolicy_lookup "{}")
    (chattyOffer_upserted "{}")

end Example
end CordeliaCore.MergeFrame
