import CordeliaCore.ApiEffect
import CordeliaCore.DescriptorEffect

set_option autoImplicit false

/-!
# Validity of the signed descriptors a node emits

A signature covers the id, the culture and the stamp of a group. The store
keeps the three with the signature in one row, and several operations rewrite
some of them. What `build_descriptors` emits is valid exactly as long as every
write leaves a signature that covers the row as written.
-/
namespace CordeliaCore.DescriptorEmission
open CryptoPrimitives ProtocolMessages StorageRows StorageSqlite KeyedTable Swarm Api StepRuns
open SqliteStorage

inductive Operation where
  | create (authorization : Option String) (now : String) (req : GroupCreateRequest)
  | delete (authorization : Option String) (now groupId : String)
  | addMember (authorization : Option String) (now : String) (req : GroupAddMemberRequest)
  /-- A call with several descriptors acts on the store as one call for each. -/
  | merge (now : String) (desc : GroupDescriptor)
  | build

section Emission
variable [Sha256] [Ed25519] (identity : NodeIdentity)

def step (s : AppState SqliteStorage) : Operation → AppState SqliteStorage
  | .create authorization now req => (groupsCreate s authorization now req).2
  | .delete authorization now groupId => (groupsDelete s authorization now groupId).2
  | .addMember authorization now req => (groupsAddMember s authorization now req).2
  | .merge now desc => { s with storage := (mergeDescriptors s.storage [(now, desc)]).2 }
  | .build => { s with storage := (buildDescriptors s.storage identity s.entityId).2 }

def ValidDescriptor (desc : GroupDescriptor) : Prop :=
  ∀ sig, desc.signature = some sig → desc.verifyChecksum = true ∧
    ∃ pk, desc.ownerPubkey = some pk ∧ verifyDescriptorSignature desc pk sig = true

/-- Everything `build_descriptors` emits in this state is valid. -/
def EmitsValid (s : AppState SqliteStorage) : Prop :=
  ∀ descs, (buildDescriptors s.storage identity s.entityId).1 = some descs →
    ∀ desc ∈ descs, ValidDescriptor desc

def payloadVerifies (id culture updatedAt pubkeyHex sigHex : String) : Bool :=
  verifyDescriptorSignature ⟨id, culture, updatedAt, "", none, none, none⟩ pubkeyHex sigHex

/-- If a row is stored with a signature, that signature covers the id, the
    culture and the stamp of a write over it. -/
def SignatureCovers (row : Option GroupRow) (id culture now : String) : Prop :=
  ∀ r, row = some r → ∀ sig, r.signature = some sig →
    ∃ pk, r.ownerPubkey = some pk ∧ payloadVerifies id culture now pk sig = true

/-- A write is covered by the signature the row will hold: that of a fully
    signed descriptor, otherwise the one already stored. -/
def WriteCovered (s : AppState SqliteStorage) : Operation → Prop
  | .create authorization now req => checkAuth s authorization = none →
    SignatureCovers (s.storage.groups.lookup req.groupId) req.groupId req.culture now
  | .delete authorization now groupId => checkAuth s authorization = none →
    SignatureCovers (s.storage.groups.lookup groupId) groupId groupTombstoneCulture now
  | .addMember _ _ _ => True
  | .merge now desc => Merges desc (s.storage.groups.lookup desc.id) →
    match signatureFields desc with
    | some (_, pk, sig) => payloadVerifies desc.id desc.culture now pk sig = true
    | none => SignatureCovers (s.storage.groups.lookup desc.id) desc.id desc.culture now
  | .build => True

def Covered (row : GroupRow) : Prop :=
  ∀ sig, row.signature = some sig →
    ∃ pk, row.ownerPubkey = some pk ∧ payloadVerifies row.id row.culture row.updatedAt pk sig = true

def AllCovered (db : SqliteStorage) : Prop := ∀ g row, db.groups.lookup g = some row → Covered row

section Build
variable {identity}

omit [Sha256] in
theorem verifyDescriptorSignature_hexEncode (desc : GroupDescriptor) (publicKey signature : Bytes) :
    verifyDescriptorSignature desc (hexEncode publicKey) (hexEncode signature) =
      Ed25519.verify publicKey desc.signingPayload signature := by
  unfold verifyDescriptorSignature
  rw [hexDecode_hexEncode, hexDecode_hexEncode]

omit [Sha256] in
theorem payloadVerifies_sign (id culture updatedAt : String) (desc : GroupDescriptor)
    (hid : desc.id = id) (hculture : desc.culture = culture) (hstamp : desc.updatedAt = updatedAt) :
    payloadVerifies id culture updatedAt (hexEncode identity.publicKey)
      (hexEncode (identity.sign desc.signingPayload)) = true := by
  subst hid hculture hstamp
  unfold payloadVerifies
  rw [verifyDescriptorSignature_hexEncode]
  exact identity.genuine desc.signingPayload

theorem buildDescriptor_valid {g : GroupRow} (h : Covered g) (db : SqliteStorage) (entityId : String) :
    ValidDescriptor (buildDescriptor db identity entityId g).1 := by
  unfold buildDescriptor
  dsimp only
  split_ifs
  · intro sig hsig
    cases hsig
    exact ⟨beq_self_eq_true _, _, rfl, payloadVerifies_sign _ _ _ (descriptorOf g) rfl rfl rfl⟩
  · intro sig hsig
    exact ⟨beq_self_eq_true _, h sig hsig⟩

theorem buildDescriptor_of_signed {g : GroupRow} (h : g.signature.isSome) (db : SqliteStorage)
    (entityId : String) : (buildDescriptor db identity entityId g).1 = descriptorOf g := by
  unfold buildDescriptor
  dsimp only
  rw [if_neg]
  cases hs : g.signature with
  | none => simp [hs] at h
  | some sig => simp

theorem buildAll_valid {groups : List GroupRow} (h : ∀ g ∈ groups, Covered g) (db : SqliteStorage)
    (entityId : String) :
    ∀ desc ∈ (buildAll identity entityId db groups).1, ValidDescriptor desc := by
  induction groups generalizing db with
  | nil => simp [buildAll]
  | cons g groups ih =>
    intro desc hdesc
    rcases List.mem_cons.mp hdesc with rfl | hdesc
    · exact buildDescriptor_valid (h g (by simp)) db entityId
    · exact ih (fun g' hg' => h g' (by simp [hg'])) _ desc hdesc

theorem covered_of_valid {g : GroupRow} (h : ValidDescriptor (descriptorOf g)) : Covered g :=
  fun sig hsig => (h sig hsig).2

theorem buildAll_covers {groups : List GroupRow} {db : SqliteStorage} {entityId : String}
    (h : ∀ desc ∈ (buildAll identity entityId db groups).1, ValidDescriptor desc) :
    ∀ g ∈ groups, Covered g := by
  induction groups generalizing db with
  | nil => simp
  | cons g groups ih =>
    intro g' hg'
    rcases List.mem_cons.mp hg' with rfl | hg'
    · intro sig hsig
      have hvalid := h (buildDescriptor db identity entityId g').1 List.mem_cons_self
      rw [buildDescriptor_of_signed (by simp [hsig])] at hvalid
      exact covered_of_valid hvalid sig hsig
    · exact ih (fun desc hdesc => h desc (List.mem_cons_of_mem _ hdesc)) g' hg'

theorem buildDescriptors_eq (db : SqliteStorage) (entityId : String) :
    buildDescriptors db identity entityId =
      if db.listGroups = [] then (none, db)
      else (some (buildAll identity entityId db db.listGroups).1,
        (buildAll identity entityId db db.listGroups).2) := by
  unfold buildDescriptors
  rw [show Storage.listGroups db = .ok db.listGroups from rfl]
  cases db.listGroups with
  | nil => rfl
  | cons g groups => rfl

omit [Sha256] [Ed25519] in
theorem mem_listGroups {db : SqliteStorage} {g : GroupRow} :
    g ∈ db.listGroups ↔ db.groups.lookup g.id = some g := by
  unfold SqliteStorage.listGroups
  rw [List.mem_insertionSort, Table.lookup_eq_some_iff]
  exact (and_iff_left rfl).symm

omit [Sha256] in
theorem allCovered_iff_listGroups {db : SqliteStorage} :
    AllCovered db ↔ ∀ g ∈ db.listGroups, Covered g := by
  constructor
  · exact fun h g hg => h g.id g (mem_listGroups.mp hg)
  · intro h g row hrow
    have hid : row.id = g := Table.key_of_lookup hrow
    exact h row (mem_listGroups.mpr (hid ▸ hrow))

/-- Emission is valid exactly when every stored signature covers its row. -/
theorem emitsValid_iff {s : AppState SqliteStorage} :
    EmitsValid identity s ↔ AllCovered s.storage := by
  unfold EmitsValid
  rw [allCovered_iff_listGroups, buildDescriptors_eq]
  by_cases hempty : s.storage.listGroups = []
  · simp [hempty]
  · rw [if_neg hempty]
    simp only [Option.some.injEq, forall_eq']
    exact ⟨buildAll_covers, fun h => buildAll_valid h s.storage s.entityId⟩

def Mirrors (db : SqliteStorage) (g : GroupRow) : Prop :=
  ∃ row, db.groups.lookup g.id = some row ∧ row.culture = g.culture ∧ row.updatedAt = g.updatedAt

theorem buildDescriptor_lookup (db : SqliteStorage) (entityId : String) (g : GroupRow) (k : String) :
    (buildDescriptor db identity entityId g).2.groups.lookup k =
      if weOwnIt db entityId g && g.signature.isNone then
        if g.id = k then
          (db.groups.lookup g.id).map (fun row => groupSigned row entityId
            (hexEncode identity.publicKey) (hexEncode (identity.sign (descriptorOf g).signingPayload)))
        else db.groups.lookup k
      else db.groups.lookup k := by
  unfold buildDescriptor
  dsimp only
  split_ifs with hsign hid
  · rw [writeGroupSignature_ok, Except.toOption, Option.getD_some, writeGroupSignature_lookup,
      if_pos hid]
  · rw [writeGroupSignature_ok, Except.toOption, Option.getD_some, writeGroupSignature_lookup,
      if_neg hid]
  · rfl

theorem buildDescriptor_mirrors {db : SqliteStorage} {g' : GroupRow} (h : Mirrors db g')
    (entityId : String) (g : GroupRow) : Mirrors (buildDescriptor db identity entityId g).2 g' := by
  obtain ⟨row, hrow, hcontent⟩ := h
  unfold Mirrors
  rw [buildDescriptor_lookup]
  split_ifs with hsign hid
  · rw [hid, hrow]
    exact ⟨_, rfl, hcontent⟩
  · exact ⟨row, hrow, hcontent⟩
  · exact ⟨row, hrow, hcontent⟩

theorem buildDescriptor_allCovered {db : SqliteStorage} {g : GroupRow} (h : AllCovered db)
    (hg : Mirrors db g) (entityId : String) :
    AllCovered (buildDescriptor db identity entityId g).2 := by
  obtain ⟨stored, hstored, hculture, hstamp⟩ := hg
  intro k row hrow
  rw [buildDescriptor_lookup, hstored] at hrow
  split_ifs at hrow with hsign hid
  · cases hrow
    intro sig hsig
    cases hsig
    have hkey : stored.id = g.id := Table.key_of_lookup hstored
    exact ⟨_, rfl, payloadVerifies_sign _ _ _ (descriptorOf g) hkey.symm hculture.symm hstamp.symm⟩
  · exact h k row hrow
  · exact h k row hrow

theorem buildAll_allCovered {groups : List GroupRow} {db : SqliteStorage} (h : AllCovered db)
    (hg : ∀ g ∈ groups, Mirrors db g) (entityId : String) :
    AllCovered (buildAll identity entityId db groups).2 := by
  induction groups generalizing db with
  | nil => exact h
  | cons g groups ih =>
    exact ih (buildDescriptor_allCovered h (hg g (by simp)) entityId)
      (fun g' hg' => buildDescriptor_mirrors (hg g' (by simp [hg'])) entityId g)

theorem buildDescriptors_allCovered {db : SqliteStorage} (h : AllCovered db) (entityId : String) :
    AllCovered (buildDescriptors db identity entityId).2 := by
  rw [buildDescriptors_eq]
  split_ifs
  · exact h
  · exact buildAll_allCovered h
      (fun g hg => ⟨g, mem_listGroups.mp hg, rfl, rfl⟩) entityId

end Build

section Writes

omit [Sha256] in
theorem allCovered_congr {db db' : SqliteStorage} (h : db'.groups = db.groups) :
    AllCovered db' ↔ AllCovered db := by
  unfold AllCovered
  rw [h]

omit [Sha256] in
theorem allCovered_written {db db' : SqliteStorage} {g : String} {written : GroupRow}
    (h : AllCovered db)
    (hlookup : ∀ k, db'.groups.lookup k = if g = k then some written else db.groups.lookup k) :
    AllCovered db' ↔ Covered written := by
  constructor
  · intro hall
    exact hall g written (by rw [hlookup, if_pos rfl])
  · intro hw k row hrow
    rw [hlookup] at hrow
    split_ifs at hrow
    · cases hrow
      exact hw
    · exact h k row hrow

omit [Sha256] in
/-- A write keeps the signature of the row it replaces. -/
theorem covered_upserted_iff (existing : Option GroupRow) (now id name culture policy : String) :
    Covered (groupUpserted existing now id name culture policy) ↔
      SignatureCovers existing id culture now := by
  cases existing with
  | none =>
    constructor
    · rintro _ r ⟨⟩
    · rintro _ sig ⟨⟩
  | some r =>
    constructor
    · rintro h r' ⟨⟩ sig hsig
      exact h sig hsig
    · exact fun h sig hsig => h r rfl sig hsig

omit [Sha256] in
theorem covered_merged_iff (localRow : Option GroupRow) (now : String) (desc : GroupDescriptor) :
    Covered (mergedRow localRow now desc) ↔
      match signatureFields desc with
      | some (_, pk, sig) => payloadVerifies desc.id desc.culture now pk sig = true
      | none => SignatureCovers localRow desc.id desc.culture now := by
  unfold mergedRow withSignature
  cases signatureFields desc with
  | none => exact covered_upserted_iff _ _ _ _ _ _
  | some fields =>
    constructor
    · intro h
      obtain ⟨pk, hpk, hverify⟩ := h fields.2.2 rfl
      cases hpk
      exact hverify
    · intro h sig hsig
      cases hsig
      exact ⟨_, rfl, h⟩

omit [Sha256] in
theorem allCovered_writeGroup_iff {db : SqliteStorage} (h : AllCovered db)
    (now id name culture policy : String) :
    AllCovered (db.writeGroup now id name culture policy) ↔
      SignatureCovers (db.groups.lookup id) id culture now :=
  (allCovered_written h (db.writeGroup_lookup now id name culture policy)).trans
    (covered_upserted_iff _ _ _ _ _ _)

theorem allCovered_merge_iff {db : SqliteStorage} (h : AllCovered db) (now : String)
    (desc : GroupDescriptor) :
    AllCovered (mergeDescriptors db [(now, desc)]).2 ↔
      (Merges desc (db.groups.lookup desc.id) →
        match signatureFields desc with
        | some (_, pk, sig) => payloadVerifies desc.id desc.culture now pk sig = true
        | none => SignatureCovers (db.groups.lookup desc.id) desc.id desc.culture now) := by
  have hone : (mergeDescriptors db [(now, desc)]).2 = (mergeDescriptor db now desc).2 :=
    mergeDescriptors_run db [(now, desc)]
  rw [hone]
  by_cases hm : Merges desc (db.groups.lookup desc.id)
  · rw [← covered_merged_iff, forall_prop_of_true hm]
    refine allCovered_written h (g := desc.id) (fun k => ?_)
    rw [mergeDescriptor_lookup]
    by_cases hk : desc.id = k
    · subst hk
      rw [if_pos ⟨rfl, hm⟩, if_pos rfl]
    · rw [if_neg (fun hboth => hk hboth.1), if_neg hk]
  · rw [mergeDescriptor_otherwise db now desc hm]
    exact ⟨fun _ hyes => absurd hyes hm, fun _ => h⟩

end Writes

theorem emitsValid_step_iff {s : AppState SqliteStorage} (h : AllCovered s.storage)
    (op : Operation) : EmitsValid identity (step identity s op) ↔ WriteCovered s op := by
  rw [emitsValid_iff]
  cases op with
  | create authorization now req =>
    have hgroups := groupsCreate_groups s authorization now req
    by_cases hauth : checkAuth s authorization = none
    · rw [if_pos hauth] at hgroups
      exact (allCovered_congr hgroups).trans ((allCovered_writeGroup_iff h _ _ _ _ _).trans
        ⟨fun hc _ => hc, fun hc => hc hauth⟩)
    · rw [if_neg hauth] at hgroups
      exact ⟨fun _ hyes => absurd hyes hauth, fun _ => (allCovered_congr hgroups).mpr h⟩
  | delete authorization now groupId =>
    have hgroups := groupsDelete_groups s authorization now groupId
    by_cases hboth : checkAuth s authorization = none ∧ (s.storage.groups.lookup groupId).isSome
    · rw [if_pos hboth] at hgroups
      exact (allCovered_congr hgroups).trans ((allCovered_writeGroup_iff h _ _ _ _ _).trans
        ⟨fun hc _ => hc, fun hc => hc hboth.1⟩)
    · rw [if_neg hboth] at hgroups
      refine ⟨fun _ hauth r hr => ?_, fun _ => (allCovered_congr hgroups).mpr h⟩
      exact absurd ⟨hauth, by simp [hr]⟩ hboth
  | addMember authorization now req =>
    have hgroups := groupsAddMember_groups s authorization now req
    exact ⟨fun _ => trivial, fun _ => (allCovered_congr hgroups).mpr h⟩
  | merge now desc => exact allCovered_merge_iff h now desc
  | build => exact ⟨fun _ => trivial, fun _ => buildDescriptors_allCovered h s.entityId⟩

/-- From an empty store, everything emitted along a run is valid exactly when
    every write is covered. -/
theorem emitsValid_along_iff (s : AppState SqliteStorage) (ops : List Operation) :
    Along (step identity) (fun s op => EmitsValid identity (step identity s op))
        { s with storage := createNew } ops ↔
      Along (step identity) WriteCovered { s with storage := createNew } ops := by
  have hstart : AllCovered createNew := by
    rintro g row ⟨⟩
  exact along_congr (I := fun s => AllCovered s.storage) (fun s op _ hp => emitsValid_iff.mp hp)
    (fun s op hs => emitsValid_step_iff identity hs op) hstart

end Emission

section Example

def peerNode : AppState SqliteStorage := ⟨createNew, "alice", "token", none, none, none⟩

def ownersDescriptor : GroupDescriptor where
  id := "seed-drill"
  culture := "chatty"
  updatedAt := "2026-02-01 00:00:00"
  checksum := @GroupDescriptor.computeChecksum knownDigests "seed-drill" "chatty"
  ownerId := some "russell"
  ownerPubkey := some (hexEncode ownerPublicKey)
  signature := some (hexEncode ownerSignature)

theorem ownersDescriptor_payload : ownersDescriptor.signingPayload = signedText := by
  decide +kernel

theorem ownersDescriptor_merges :
    @Merges knownDigests knownSignatures ownersDescriptor none := by
  let := knownDigests
  let := knownSignatures
  refine ⟨⟨beq_self_eq_true _, .inl (by decide), ?_⟩, by simp⟩
  change verifyDescriptorSignature ownersDescriptor (hexEncode ownerPublicKey)
    (hexEncode ownerSignature) = true
  rw [verifyDescriptorSignature_hexEncode, ownersDescriptor_payload]
  exact owner_signed

/-- Five seconds on the way are enough to emit it with a signature that fails. -/
theorem ownersDescriptor_restamped :
    ¬ @Along _ _ (@step knownDigests knownSignatures ownerIdentity)
      (fun s op => @EmitsValid knownDigests knownSignatures ownerIdentity
        (@step knownDigests knownSignatures ownerIdentity s op)) peerNode
      [.merge "2026-02-01 00:00:05" ownersDescriptor] := by
  let := knownDigests
  let := knownSignatures
  rintro ⟨hvalid, _⟩
  have hcovered := (emitsValid_step_iff ownerIdentity (s := peerNode) (by rintro g row ⟨⟩) _).mp hvalid
  have hfields : signatureFields ownersDescriptor = some ("russell", hexEncode ownerPublicKey,
      hexEncode ownerSignature) := rfl
  unfold WriteCovered at hcovered
  dsimp only at hcovered
  rw [hfields] at hcovered
  have hverify := hcovered ownersDescriptor_merges
  dsimp only at hverify
  unfold payloadVerifies at hverify
  rw [verifyDescriptorSignature_hexEncode, owner_signed_only (by decide +kernel)] at hverify
  cases hverify

end Example
end CordeliaCore.DescriptorEmission
