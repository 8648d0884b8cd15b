import CordeliaCore.DescriptorAuthority
import CordeliaCore.DescriptorEmission
import CordeliaCore.StorageJournal

set_option autoImplicit false

namespace CordeliaCore.OwnerPinning
open CryptoPrimitives ProtocolMessages StorageRows StorageSqlite KeyedTable Swarm Api StepRuns
open SqliteStorage DescriptorAuthority DescriptorEmission StorageJournal

section Keys
variable [Sha256] [Ed25519] {identity : NodeIdentity}

def Paired (db : SqliteStorage) : Prop :=
  ∀ g row, db.groups.lookup g = some row → row.ownerPubkey.isSome → row.signature.isSome

omit [Sha256] [Ed25519] in
theorem paired_upserted {existing : Option GroupRow}
    (h : ∀ row, existing = some row → row.ownerPubkey.isSome → row.signature.isSome)
    (now id name culture policy : String) :
    (groupUpserted existing now id name culture policy).ownerPubkey.isSome →
      (groupUpserted existing now id name culture policy).signature.isSome := by
  cases existing with
  | none => simp [groupUpserted]
  | some row => exact h row rfl

theorem step_merge_storage (s : AppState SqliteStorage) (now : String) (desc : GroupDescriptor) :
    (step identity s (.merge now desc)).storage = mergeStep s.storage (now, desc) :=
  mergeDescriptors_run s.storage [(now, desc)]

/-- A property of the groups that writes, merges and lazy signatures keep is kept by
    every operation. -/
theorem step_keeps {I : SqliteStorage → Prop}
    (hcongr : ∀ db db', db'.groups = db.groups → I db → I db')
    (hwrite : ∀ db now id name culture policy, I db → I (db.writeGroup now id name culture policy))
    (hmerge : ∀ db d, I db → I (mergeStep db d))
    (hbuild : ∀ db entityId, I db → I (buildDescriptors db identity entityId).2)
    {s : AppState SqliteStorage} (h : I s.storage) (op : Operation) :
    I (step identity s op).storage := by
  cases op with
  | create authorization now req =>
    have hgroups := groupsCreate_groups s authorization now req
    split_ifs at hgroups
    · exact hcongr _ _ hgroups (hwrite _ _ _ _ _ _ h)
    · exact hcongr _ _ hgroups h
  | delete authorization now groupId =>
    have hgroups := groupsDelete_groups s authorization now groupId
    split_ifs at hgroups
    · exact hcongr _ _ hgroups (hwrite _ _ _ _ _ _ h)
    · exact hcongr _ _ hgroups h
  | addMember authorization now req =>
    exact hcongr _ _ (groupsAddMember_groups s authorization now req) h
  | merge now desc =>
    rw [step_merge_storage]
    exact hmerge s.storage (now, desc) h
  | build => exact hbuild s.storage s.entityId h

theorem paired_mergeStep (db : SqliteStorage) (d : String × GroupDescriptor) (h : Paired db) :
    Paired (mergeStep db d) := by
  intro g row hrow
  rw [mergeStep_lookup] at hrow
  split_ifs at hrow
  · cases hrow
    unfold mergedRow withSignature
    cases signatureFields d.2 with
    | some fields => simp [groupSigned]
    | none => exact paired_upserted (fun row hrow => h g row hrow) _ _ _ _ _
  · exact h g row hrow

theorem paired_buildDescriptor (db : SqliteStorage) (entityId : String) (g : GroupRow)
    (h : Paired db) : Paired (buildDescriptor db identity entityId g).2 := by
  intro k row hrow
  rw [buildDescriptor_lookup] at hrow
  split_ifs at hrow
  · obtain ⟨old, -, rfl⟩ := Option.map_eq_some_iff.mp hrow
    simp [groupSigned]
  · exact h k row hrow
  · exact h k row hrow

theorem paired_buildAll {groups : List GroupRow} {db : SqliteStorage} (entityId : String)
    (h : Paired db) : Paired (buildAll identity entityId db groups).2 := by
  induction groups generalizing db with
  | nil => exact h
  | cons g groups ih => exact ih (paired_buildDescriptor db entityId g h)

theorem step_paired {s : AppState SqliteStorage} (h : Paired s.storage) (op : Operation) :
    Paired (step identity s op).storage := by
  refine step_keeps (fun db db' hgroups hdb => ?_) (fun db now id name culture policy hdb => ?_)
    paired_mergeStep (fun db entityId hdb => ?_) h op
  · unfold Paired
    rw [hgroups]
    exact hdb
  · intro g row hrow
    rw [writeGroup_lookup] at hrow
    split_ifs at hrow
    · cases hrow
      exact paired_upserted (fun row hrow => hdb id row hrow) _ _ _ _ _
    · exact hdb g row hrow
  · rw [buildDescriptors_eq]
    split_ifs
    · exact hdb
    · exact paired_buildAll entityId hdb

theorem signedUnder_buildAll {groups : List GroupRow} {db : SqliteStorage} {g key : String}
    (entityId : String) (h : SignedUnder g key db)
    (hlisted : ∀ row ∈ groups, row.id = g → row.signature.isSome) :
    SignedUnder g key (buildAll identity entityId db groups).2 := by
  induction groups generalizing db with
  | nil => exact h
  | cons listed groups ih =>
    have hkept : (buildDescriptor db identity entityId listed).2.groups.lookup g =
        db.groups.lookup g := by
      rw [buildDescriptor_lookup]
      split_ifs with hsign hid
      · have hsome := hlisted listed (by simp) hid
        rw [Bool.and_eq_true, Option.isNone_iff_eq_none] at hsign
        rw [hsign.2] at hsome
        cases hsome
      · rfl
      · rfl
    have hnext : SignedUnder g key (buildDescriptor db identity entityId listed).2 := by
      unfold SignedUnder
      rw [hkept]
      exact h
    exact ih hnext (fun row hrow => hlisted row (by simp [hrow]))

theorem step_signedUnder {g key : String} {s : AppState SqliteStorage}
    (h : SignedUnder g key s.storage) (op : Operation) :
    SignedUnder g key (step identity s op).storage := by
  refine step_keeps (fun db db' hgroups hdb => ?_) (fun db now id name culture policy hdb => ?_)
    (fun db d hdb => signedUnder_mergeStep db d hdb) (fun db entityId hdb => ?_) h op
  · unfold SignedUnder
    rw [hgroups]
    exact hdb
  · obtain ⟨row, hrow, hsig, hkey⟩ := hdb
    unfold SignedUnder
    rw [writeGroup_lookup]
    split_ifs with hid
    · rw [hid, hrow]
      exact ⟨_, rfl, hsig, hkey⟩
    · exact ⟨row, hrow, hsig, hkey⟩
  · rw [buildDescriptors_eq]
    split_ifs
    · exact hdb
    · refine signedUnder_buildAll entityId hdb (fun listed hlisted hid => ?_)
      obtain ⟨row, hrow, hsig, -⟩ := hdb
      have hlookup := mem_listGroups.mp hlisted
      rw [hid, hrow] at hlookup
      cases hlookup
      exact hsig

end Keys

section Journal
variable {σ : Type} [Storage σ]

theorem removeMembers_signatureWrites (s : Journaled σ) (groupId : String) :
    (removeMembers s groupId).signatureWrites = s.signatureWrites := by
  unfold removeMembers
  cases Storage.listMembers s groupId with
  | error e => rfl
  | ok members =>
    dsimp only
    induction members generalizing s with
    | nil => rfl
    | cons m members ih =>
      rw [List.foldl_cons, ih]
      cases hupdate : Storage.updateMemberPosture s groupId m.entityId "removed" with
      | error e => rfl
      | ok updated =>
        obtain ⟨changed, t⟩ := updated
        obtain ⟨db, -, rfl⟩ := Journaled.updateMemberPosture_eq_ok hupdate
        rfl

/-- A merge that reaches the store writes the signature fields of its descriptor, if
    it has all three. -/
theorem writeDescriptor_signatureWrites (s : Journaled σ) (now localName : String)
    (desc : GroupDescriptor) :
    ∃ new, (writeDescriptor s now localName desc).2.signatureWrites = new ++ s.signatureWrites ∧
      ∀ w ∈ new, w.id = desc.id ∧ signatureFields desc = some (w.ownerId, w.ownerPubkey, w.signature) := by
  have hpersist (t : Journaled σ) : ∃ new,
      (persistSignature t desc).signatureWrites = new ++ t.signatureWrites ∧
        ∀ w ∈ new, w.id = desc.id ∧
          signatureFields desc = some (w.ownerId, w.ownerPubkey, w.signature) := by
    unfold persistSignature
    cases hfields : signatureFields desc with
    | none => exact ⟨[], rfl, by simp⟩
    | some fields =>
      obtain ⟨oid, pk, sig⟩ := fields
      dsimp only
      cases hwrite : Storage.writeGroupSignature t desc.id oid pk sig with
      | error e => exact ⟨[], rfl, by simp⟩
      | ok t' =>
        obtain ⟨db, -, rfl⟩ := Journaled.writeGroupSignature_eq_ok hwrite
        exact ⟨[⟨desc.id, oid, pk, sig⟩], rfl, by simp⟩
  unfold writeDescriptor
  cases hwrite : Storage.writeGroup s now desc.id localName desc.culture "{}" with
  | error e => exact ⟨[], rfl, by simp⟩
  | ok t =>
    obtain ⟨db, -, rfl⟩ := Journaled.writeGroup_eq_ok hwrite
    dsimp only
    split_ifs
    · rw [removeMembers_signatureWrites]
      exact hpersist _
    · exact hpersist _

variable [Sha256] [Ed25519]

/-- The signature was checked over the id, culture and stamp of a descriptor of these. -/
def VerifiedBy (descriptors : List (String × GroupDescriptor)) (w : SignatureWrite) : Prop :=
  ∃ d ∈ descriptors, d.2.id = w.id ∧
    verifyDescriptorSignature d.2 w.ownerPubkey w.signature = true

theorem mergeDescriptor_verified (s : Journaled σ) (now : String) (desc : GroupDescriptor) :
    ∃ new, (mergeDescriptor s now desc).2.signatureWrites = new ++ s.signatureWrites ∧
      ∀ w ∈ new, VerifiedBy [(now, desc)] w := by
  have hwritten (haccepted : signatureAccepted desc = true) (localName : String) : ∃ new,
      (writeDescriptor s now localName desc).2.signatureWrites = new ++ s.signatureWrites ∧
        ∀ w ∈ new, VerifiedBy [(now, desc)] w := by
    obtain ⟨new, hnew, hfields⟩ := writeDescriptor_signatureWrites s now localName desc
    refine ⟨new, hnew, fun w hw => ⟨(now, desc), by simp, (hfields w hw).1.symm, ?_⟩⟩
    obtain ⟨-, hpk, hsig⟩ := signatureFields_eq_some_iff.mp (hfields w hw).2
    simpa only [signatureAccepted, hpk, hsig] using haccepted
  have hsame : ∃ new, s.signatureWrites = new ++ s.signatureWrites ∧
      ∀ w ∈ new, VerifiedBy [(now, desc)] w := ⟨[], rfl, by simp⟩
  unfold mergeDescriptor
  split_ifs with hsum hsize haccepted
  · exact hsame
  · exact hsame
  · exact hsame
  rw [Bool.not_eq_true', Bool.not_eq_false] at haccepted
  split
  · split_ifs
    · exact hsame
    · exact hsame
    · exact hwritten haccepted _
  · exact hwritten haccepted _

/-- Every pair that `merge_descriptors` writes was verified over its descriptor. -/
theorem mergeDescriptors_verified (s : Journaled σ) (descriptors : List (String × GroupDescriptor)) :
    ∃ new, (mergeDescriptors s descriptors).2.signatureWrites = new ++ s.signatureWrites ∧
      ∀ w ∈ new, VerifiedBy descriptors w := by
  unfold mergeDescriptors
  generalize (⟨[], []⟩ : MergeResult) = result
  induction descriptors generalizing s result with
  | nil => exact ⟨[], rfl, by simp⟩
  | cons d descriptors ih =>
    obtain ⟨first, hfirst, hverified⟩ := mergeDescriptor_verified s d.1 d.2
    obtain ⟨rest, hrest, hverified'⟩ := ih (mergeDescriptor s d.1 d.2).2
      (result.append (mergeDescriptor s d.1 d.2).1)
    refine ⟨rest ++ first, ?_, fun w hw => ?_⟩
    · rw [List.foldl_cons, hrest, hfirst, List.append_assoc]
    · rcases List.mem_append.mp hw with hw | hw
      · obtain ⟨d', hd', hchecked⟩ := hverified' w hw
        exact ⟨d', by simp [hd'], hchecked⟩
      · obtain ⟨d', hd', hchecked⟩ := hverified w hw
        rw [List.mem_singleton] at hd'
        subst hd'
        exact ⟨d, by simp, hchecked⟩

end Journal

/-- From an empty store: a group that has an owner key has a signature and keeps the key
    and a signature through any operations; and every key and signature that a merge
    writes to any store were verified over a descriptor it was given. -/
theorem owner_key_pinned [Sha256] [Ed25519] (identity : NodeIdentity) (s : AppState SqliteStorage)
    (past coming : List Operation) :
    let now := run (step identity) { s with storage := createNew } past
    (∀ g row key, now.storage.groups.lookup g = some row → row.ownerPubkey = some key →
      row.signature.isSome ∧ Along (step identity) (fun t op => ∃ row',
        (step identity t op).storage.groups.lookup g = some row' ∧
          row'.signature.isSome ∧ row'.ownerPubkey = some key) now coming) ∧
      ∀ (db : Journaled SqliteStorage) (descriptors : List (String × GroupDescriptor)),
        ∃ new, (mergeDescriptors db descriptors).2.signatureWrites = new ++ db.signatureWrites ∧
          ∀ w ∈ new, VerifiedBy descriptors w := by
  intro now
  have hpaired : Paired now.storage := by
    refine invariant_run (I := fun t : AppState SqliteStorage => Paired t.storage)
      (G := fun _ _ => True)
      (fun t op ht _ => step_paired ht op) ?_ (along_of_mem (fun _ _ _ => trivial) _)
    rintro g row ⟨⟩
  refine ⟨fun g row key hrow hkey => ?_, mergeDescriptors_verified⟩
  have hsig : row.signature.isSome := hpaired g row hrow (by simp [hkey])
  refine ⟨hsig, ?_⟩
  exact along_of_guard (I := fun t : AppState SqliteStorage => SignedUnder g key t.storage)
    (G := fun _ _ => True)
    (fun t op ht _ => step_signedUnder ht op) (fun t op ht _ => step_signedUnder ht op)
    ⟨row, hrow, hsig, hkey⟩ (along_of_mem (fun _ _ _ => trivial) _)

section Example

theorem merged_owner_lookup (s : AppState SqliteStorage) :
    (run (@step knownDigests knownSignatures ownerIdentity) { s with storage := createNew }
      [.merge "2026-02-01 00:00:05" ownersDescriptor]).storage.groups.lookup "seed-drill" =
        some (mergedRow none "2026-02-01 00:00:05" ownersDescriptor) := by
  let := knownDigests
  let := knownSignatures
  have hnone : createNew.groups.lookup "seed-drill" = none := rfl
  rw [run_cons, run_nil, step_merge_storage, mergeStep_lookup, hnone,
    if_pos ⟨rfl, ownersDescriptor_merges⟩]

/-- Deleted here, the group still keeps that key. -/
theorem merged_owner_stays_pinned :
    ∃ s : AppState SqliteStorage, @Along _ _ (@step knownDigests knownSignatures ownerIdentity)
      (fun t op => ∃ row', (@step knownDigests knownSignatures ownerIdentity t
          op).storage.groups.lookup "seed-drill" = some row' ∧ row'.signature.isSome ∧
        row'.ownerPubkey = some (hexEncode ownerPublicKey))
      (run (@step knownDigests knownSignatures ownerIdentity) { s with storage := createNew }
        [.merge "2026-02-01 00:00:05" ownersDescriptor])
      [.delete (some "Bearer token") "2026-02-02 00:00:00" "seed-drill", .build] := by
  have hkey : (mergedRow none "2026-02-01 00:00:05" ownersDescriptor).ownerPubkey =
      some (hexEncode ownerPublicKey) := by
    unfold mergedRow withSignature
    rfl
  have hpinned := @owner_key_pinned knownDigests knownSignatures ownerIdentity peerNode
    [.merge "2026-02-01 00:00:05" ownersDescriptor]
    [.delete (some "Bearer token") "2026-02-02 00:00:00" "seed-drill", .build]
  exact ⟨peerNode, (hpinned.1 "seed-drill" _ _ (merged_owner_lookup peerNode) hkey).2⟩

end Example
end CordeliaCore.OwnerPinning
