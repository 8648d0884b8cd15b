import CordeliaCore.StepRuns
import CordeliaCore.StorageSqlite
import CordeliaCore.SwarmDescriptors

set_option autoImplicit false

namespace CordeliaCore.Swarm
open CryptoPrimitives ProtocolMessages StorageRows StorageSqlite KeyedTable SqliteStorage

section Merge
variable [Sha256] [Ed25519]

def Sound (desc : GroupDescriptor) : Prop :=
  desc.verifyChecksum = true ∧ (desc.culture.utf8ByteSize ≤ 4096 ∨ desc.isTombstone = true) ∧
    signatureAccepted desc = true

def Replaces (desc : GroupDescriptor) (localRow : GroupRow) : Prop :=
  ownerAccepted localRow desc = true ∧ localRow.updatedAt < desc.updatedAt

def Merges (desc : GroupDescriptor) (localRow : Option GroupRow) : Prop :=
  Sound desc ∧ ∀ row ∈ localRow, Replaces desc row

instance (desc : GroupDescriptor) : Decidable (Sound desc) :=
  inferInstanceAs (Decidable (_ ∧ _ ∧ _))

instance (desc : GroupDescriptor) (localRow : GroupRow) : Decidable (Replaces desc localRow) :=
  inferInstanceAs (Decidable (_ ∧ _))

instance (desc : GroupDescriptor) (localRow : Option GroupRow) : Decidable (Merges desc localRow) :=
  inferInstanceAs (Decidable (_ ∧ _))

omit [Sha256] [Ed25519] in
theorem signatureFields_eq_some_iff {desc : GroupDescriptor} {fields : String × String × String} :
    signatureFields desc = some fields ↔ desc.ownerId = some fields.1 ∧
      desc.ownerPubkey = some fields.2.1 ∧ desc.signature = some fields.2.2 := by
  obtain ⟨oid, pk, sig⟩ := fields
  unfold signatureFields
  cases desc.ownerId <;> cases desc.ownerPubkey <;> cases desc.signature <;> simp

def withSignature (desc : GroupDescriptor) (row : GroupRow) : GroupRow :=
  match signatureFields desc with
  | some (oid, pk, sig) => groupSigned row oid pk sig
  | none => row

def mergedRow (localRow : Option GroupRow) (now : String) (desc : GroupDescriptor) : GroupRow :=
  withSignature desc
    (groupUpserted localRow now desc.id (localRow.elim desc.id (·.name)) desc.culture "{}")

omit [Sha256] [Ed25519] in
@[simp] theorem withSignature_culture (desc : GroupDescriptor) (row : GroupRow) :
    (withSignature desc row).culture = row.culture := by
  unfold withSignature
  cases signatureFields desc <;> rfl

omit [Sha256] [Ed25519] in
@[simp] theorem withSignature_updatedAt (desc : GroupDescriptor) (row : GroupRow) :
    (withSignature desc row).updatedAt = row.updatedAt := by
  unfold withSignature
  cases signatureFields desc <;> rfl

omit [Sha256] [Ed25519] in
@[simp] theorem mergedRow_culture (localRow : Option GroupRow) (now : String)
    (desc : GroupDescriptor) : (mergedRow localRow now desc).culture = desc.culture :=
  withSignature_culture desc _

omit [Sha256] [Ed25519] in
/-- A merge stamps the row with the local clock, not with the descriptor's time. -/
@[simp] theorem mergedRow_updatedAt (localRow : Option GroupRow) (now : String)
    (desc : GroupDescriptor) : (mergedRow localRow now desc).updatedAt = now :=
  withSignature_updatedAt desc _

omit [Ed25519] in
theorem persistSignature_lookup (db : SqliteStorage) (desc : GroupDescriptor) {row : GroupRow}
    (h : db.groups.lookup desc.id = some row) (g : String) :
    (persistSignature db desc).groups.lookup g =
      if desc.id = g then some (withSignature desc row) else db.groups.lookup g := by
  unfold persistSignature withSignature
  cases signatureFields desc with
  | some fields =>
    change (db.writeGroupSignature _ _ _ _).groups.lookup g = _
    rw [writeGroupSignature_lookup, h, Option.map_some]
  | none =>
    dsimp only
    split_ifs with hid
    · rw [← hid, h]
    · rfl

omit [Ed25519] in
theorem writeDescriptor_lookup (db : SqliteStorage) (now localName : String)
    (desc : GroupDescriptor) (g : String) :
    (writeDescriptor db now localName desc).2.groups.lookup g =
      if desc.id = g then
        some (withSignature desc
          (groupUpserted (db.groups.lookup desc.id) now desc.id localName desc.culture "{}"))
      else db.groups.lookup g := by
  have hwritten := writeGroup_lookup db now desc.id localName desc.culture "{}"
  have hself := (hwritten desc.id).trans (if_pos rfl)
  have hgroups : (writeDescriptor db now localName desc).2.groups =
      (persistSignature (db.writeGroup now desc.id localName desc.culture "{}") desc).groups := by
    unfold writeDescriptor
    rw [writeGroup_ok]
    dsimp only
    split_ifs
    · exact removeMembers_groups _ _
    · rfl
  rw [hgroups, persistSignature_lookup _ desc hself g, hwritten g]
  split_ifs <;> rfl

section Cases
variable (db : SqliteStorage) (now : String) (desc : GroupDescriptor)

theorem mergeDescriptor_of_sound (h : Sound desc) :
    mergeDescriptor db now desc =
      match db.groups.lookup desc.id with
      | some localRow =>
        if !ownerAccepted localRow desc then (⟨[], []⟩, db)
        else if localRow.updatedAt ≥ desc.updatedAt then (⟨[], []⟩, db)
        else writeDescriptor db now localRow.name desc
      | none => writeDescriptor db now desc.id desc := by
  obtain ⟨hsum, hsize, hsig⟩ := h
  have hsize' : ¬ (desc.culture.utf8ByteSize > 4096 ∧ (!desc.isTombstone) = true) := by
    rintro ⟨hbig, htomb⟩
    rcases hsize with hsmall | hyes
    · omega
    · simp [hyes] at htomb
  unfold mergeDescriptor
  rw [hsum, if_neg (by decide), if_neg hsize', hsig, if_neg (by decide), readGroup_ok]
  cases db.groups.lookup desc.id <;> rfl

theorem mergeDescriptor_of_unsound (h : ¬ Sound desc) :
    mergeDescriptor db now desc = (⟨[], []⟩, db) := by
  unfold mergeDescriptor
  split_ifs with hsum hsize hsig
  · rfl
  · rfl
  · rfl
  · refine absurd ⟨by simpa using hsum, ?_, by simpa using hsig⟩ h
    by_cases hsmall : desc.culture.utf8ByteSize ≤ 4096
    · exact .inl hsmall
    · by_contra hno
      exact hsize ⟨not_le.mp hsmall, by simpa [hsmall] using hno⟩

theorem mergeDescriptor_of_merges (h : Merges desc (db.groups.lookup desc.id)) :
    mergeDescriptor db now desc = writeDescriptor db now
      ((db.groups.lookup desc.id).elim desc.id (·.name)) desc := by
  rw [mergeDescriptor_of_sound db now desc h.1]
  cases hrow : db.groups.lookup desc.id with
  | none => rfl
  | some row =>
    obtain ⟨howner, hold⟩ := h.2 row (by simp [hrow])
    simp only [howner, Bool.not_true, Bool.false_eq_true, if_false, if_neg (not_le.mpr hold),
      Option.elim_some]

theorem mergeDescriptor_otherwise (h : ¬ Merges desc (db.groups.lookup desc.id)) :
    mergeDescriptor db now desc = (⟨[], []⟩, db) := by
  by_cases hsound : Sound desc
  swap
  · exact mergeDescriptor_of_unsound db now desc hsound
  rw [mergeDescriptor_of_sound db now desc hsound]
  cases hrow : db.groups.lookup desc.id with
  | none => exact absurd ⟨hsound, by simp [hrow]⟩ h
  | some row =>
    dsimp only
    split_ifs with howner hold
    · rfl
    · rfl
    · refine absurd ⟨hsound, ?_⟩ h
      rw [hrow]
      rintro r ⟨⟩
      exact ⟨by simpa using howner, not_le.mp hold⟩

theorem mergeDescriptor_lookup (g : String) :
    (mergeDescriptor db now desc).2.groups.lookup g =
      if desc.id = g ∧ Merges desc (db.groups.lookup g) then
        some (mergedRow (db.groups.lookup g) now desc)
      else db.groups.lookup g := by
  by_cases hid : desc.id = g
  · subst hid
    by_cases hm : Merges desc (db.groups.lookup desc.id)
    · rw [if_pos ⟨rfl, hm⟩, mergeDescriptor_of_merges db now desc hm, writeDescriptor_lookup,
        if_pos rfl]
      rfl
    · rw [if_neg (fun h => hm h.2), mergeDescriptor_otherwise db now desc hm]
  · rw [if_neg (fun h => hid h.1)]
    by_cases hm : Merges desc (db.groups.lookup desc.id)
    · rw [mergeDescriptor_of_merges db now desc hm, writeDescriptor_lookup, if_neg hid]
    · rw [mergeDescriptor_otherwise db now desc hm]

end Cases

def mergeStep (db : SqliteStorage) (d : String × GroupDescriptor) : SqliteStorage :=
  (mergeDescriptor db d.1 d.2).2

theorem mergeStep_lookup (db : SqliteStorage) (d : String × GroupDescriptor) (g : String) :
    (mergeStep db d).groups.lookup g =
      if d.2.id = g ∧ Merges d.2 (db.groups.lookup g) then
        some (mergedRow (db.groups.lookup g) d.1 d.2)
      else db.groups.lookup g :=
  mergeDescriptor_lookup db d.1 d.2 g

theorem mergeDescriptors_run (db : SqliteStorage) (descriptors : List (String × GroupDescriptor)) :
    (mergeDescriptors db descriptors).2 = StepRuns.run mergeStep db descriptors := by
  have hfold : ∀ acc : MergeResult × SqliteStorage,
      (descriptors.foldl (fun acc d =>
        let merged := mergeDescriptor acc.2 d.1 d.2
        (acc.1.append merged.1, merged.2)) acc).2 = StepRuns.run mergeStep acc.2 descriptors := by
    induction descriptors with
    | nil => exact fun _ => rfl
    | cons d descriptors ih => exact fun acc => ih _
  exact hfold _

end Merge
end CordeliaCore.Swarm
