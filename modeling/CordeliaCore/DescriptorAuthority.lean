import CordeliaCore.DescriptorEffect

set_option autoImplicit false

namespace CordeliaCore.DescriptorAuthority
open CryptoPrimitives ProtocolMessages StorageRows StorageSqlite KeyedTable Swarm StepRuns
open SqliteStorage

def SignedUnder (g key : String) (db : SqliteStorage) : Prop :=
  ∃ row, db.groups.lookup g = some row ∧ row.signature.isSome ∧ row.ownerPubkey = some key

def cultureOf (db : SqliteStorage) (g : String) : Option String :=
  (db.groups.lookup g).map GroupRow.culture

theorem ownerAccepted_iff {row : GroupRow} {key : String} (hsig : row.signature.isSome)
    (hkey : row.ownerPubkey = some key) (desc : GroupDescriptor) :
    ownerAccepted row desc = true ↔
      desc.signature.isSome ∧ ∀ pk, desc.ownerPubkey = some pk → key = pk := by
  unfold ownerAccepted
  rw [hsig, hkey]
  cases hs : desc.signature with
  | none => simp
  | some sig =>
    cases hp : desc.ownerPubkey with
    | none => simp
    | some pk => simp

section Authority
variable [Sha256] [Ed25519]

def VerifiesUnder (key : String) (desc : GroupDescriptor) : Prop :=
  ∃ sig, desc.signature = some sig ∧ verifyDescriptorSignature desc key sig = true

/-- If this descriptor changes the culture of `g`, it is a descriptor of `g`
    with a signature under `key`. -/
def Authorised (g key : String) (db : SqliteStorage) (d : String × GroupDescriptor) : Prop :=
  cultureOf (mergeStep db d) g ≠ cultureOf db g → d.2.id = g ∧ VerifiesUnder key d.2

/-- A newer descriptor of the group with another culture, whose signature comes
    without a key and does not verify under the stored one. -/
def KeylessOverride (g key : String) (db : SqliteStorage) (d : String × GroupDescriptor) : Prop :=
  d.2.id = g ∧ d.2.ownerPubkey = none ∧ d.2.signature.isSome ∧ ¬ VerifiesUnder key d.2 ∧
    d.2.verifyChecksum = true ∧ (d.2.culture.utf8ByteSize ≤ 4096 ∨ d.2.isTombstone = true) ∧
    ∃ row, db.groups.lookup g = some row ∧ row.updatedAt < d.2.updatedAt ∧
      row.culture ≠ d.2.culture

theorem cultureOf_mergeStep (db : SqliteStorage) (d : String × GroupDescriptor) (g : String) :
    cultureOf (mergeStep db d) g =
      if d.2.id = g ∧ Merges d.2 (db.groups.lookup g) then some d.2.culture
      else cultureOf db g := by
  unfold cultureOf
  rw [mergeStep_lookup]
  split_ifs
  · rw [Option.map_some, mergedRow_culture]
  · rfl

theorem signedUnder_mergeStep {g key : String} (db : SqliteStorage) (d : String × GroupDescriptor)
    (h : SignedUnder g key db) : SignedUnder g key (mergeStep db d) := by
  obtain ⟨row, hrow, hsig, hkey⟩ := h
  unfold SignedUnder
  rw [mergeStep_lookup, hrow]
  split_ifs with hm
  swap
  · exact ⟨row, rfl, hsig, hkey⟩
  have howner := ((hm.2.2 row rfl).1)
  rw [ownerAccepted_iff hsig hkey] at howner
  refine ⟨_, rfl, ?_⟩
  unfold mergedRow withSignature
  cases hf : signatureFields d.2 with
  | none => exact ⟨hsig, hkey⟩
  | some fields =>
    have hpk := (signatureFields_eq_some_iff.mp hf).2.1
    exact ⟨rfl, by rw [howner.2 _ hpk]; rfl⟩

section Signed
variable {g key : String} {db : SqliteStorage} {row : GroupRow}
  (hrow : db.groups.lookup g = some row) (hsig : row.signature.isSome)
  (hkey : row.ownerPubkey = some key) {d : String × GroupDescriptor}
include hrow hsig hkey

/-- Without a key there is nothing for the owner checks to compare. -/
theorem merges_of_keylessOverride (h : KeylessOverride g key db d) :
    Merges d.2 (db.groups.lookup g) := by
  obtain ⟨_, hnokey, hsigned, _, hsum, hsize, row', hrow', hnewer, _⟩ := h
  refine ⟨⟨hsum, hsize, by simp [signatureAccepted, hnokey]⟩, ?_⟩
  intro r hr
  obtain rfl : r = row := Option.some.inj (hr.symm.trans hrow)
  obtain rfl : row' = r := Option.some.inj (hrow'.symm.trans hrow)
  exact ⟨(ownerAccepted_iff hsig hkey d.2).mpr ⟨hsigned, by simp [hnokey]⟩, hnewer⟩

/-- With a key, the signature was checked under it and it is the stored one. -/
theorem verifiesUnder_of_merges (h : Merges d.2 (db.groups.lookup g)) {pk : String}
    (hpk : d.2.ownerPubkey = some pk) : VerifiesUnder key d.2 := by
  obtain ⟨⟨_, _, haccepted⟩, hreplace⟩ := h
  obtain ⟨hsigned, hsame⟩ := (ownerAccepted_iff hsig hkey d.2).mp (hreplace row hrow).1
  obtain ⟨sig, hs⟩ := Option.isSome_iff_exists.mp hsigned
  refine ⟨sig, hs, ?_⟩
  rw [hsame pk hpk]
  simpa only [signatureAccepted, hpk, hs] using haccepted

end Signed

theorem authorised_iff {g key : String} (db : SqliteStorage) (d : String × GroupDescriptor)
    (h : SignedUnder g key db) : Authorised g key db d ↔ ¬ KeylessOverride g key db d := by
  obtain ⟨row, hrow, hsig, hkey⟩ := h
  have hbefore : cultureOf db g = some row.culture := by
    unfold cultureOf
    rw [hrow, Option.map_some]
  unfold Authorised
  rw [cultureOf_mergeStep, hbefore]
  constructor
  · intro hauth hover
    have hmerges := merges_of_keylessOverride hrow hsig hkey hover
    obtain ⟨hid, _, _, hnot, _, _, row', hrow', _, hculture⟩ := hover
    obtain rfl : row' = row := Option.some.inj (hrow'.symm.trans hrow)
    rw [if_pos ⟨hid, hmerges⟩] at hauth
    exact hnot (hauth (fun he => hculture (Option.some.inj he).symm)).2
  · intro hno hchange
    by_cases hm : d.2.id = g ∧ Merges d.2 (db.groups.lookup g)
    swap
    · rw [if_neg hm] at hchange
      exact absurd rfl hchange
    rw [if_pos hm] at hchange
    refine ⟨hm.1, ?_⟩
    by_contra hnot
    cases hpk : d.2.ownerPubkey with
    | some pk => exact hnot (verifiesUnder_of_merges hrow hsig hkey hm.2 hpk)
    | none =>
      obtain ⟨hid, ⟨hsum, hsize, _⟩, hreplace⟩ := hm
      obtain ⟨howner, hnewer⟩ := hreplace row hrow
      have hsigned := ((ownerAccepted_iff hsig hkey d.2).mp howner).1
      exact hno ⟨hid, hpk, hsigned, hnot, hsum, hsize, row, hrow, hnewer,
        fun he => hchange (congrArg some he.symm)⟩

def mergeCall (db : SqliteStorage) (descriptors : List (String × GroupDescriptor)) :
    SqliteStorage :=
  (mergeDescriptors db descriptors).2

theorem mergeCall_eq_run : mergeCall = run mergeStep := by
  funext db descriptors
  exact mergeDescriptors_run db descriptors

/-- Over any calls, every culture change of a signed group is authorised by its
    owner exactly when no descriptor met on the way is a keyless override. -/
theorem culture_authorised_iff {g key : String} {db : SqliteStorage} (h : SignedUnder g key db)
    (calls : List (List (String × GroupDescriptor))) :
    Along mergeCall (Along mergeStep (Authorised g key)) db calls ↔
      Along mergeCall (Along mergeStep (fun s d => ¬ KeylessOverride g key s d)) db calls := by
  rw [mergeCall_eq_run, ← along_flatten, ← along_flatten]
  exact along_congr (fun s d hs _ => signedUnder_mergeStep s d hs)
    (fun s d hs => authorised_iff s d hs) h

end Authority

section Example

def signedGroup : GroupRow where
  id := "seed-drill"
  name := "Seed Drill"
  culture := "chatty"
  securityPolicy := "{}"
  createdAt := "2026-02-01 00:00:00"
  updatedAt := "2026-02-01 00:00:00"
  ownerId := some "russell"
  ownerPubkey := some "aa"
  signature := some "bb"

def signedGroupStore : SqliteStorage :=
  { createNew with groups := Table.empty.put signedGroup trivial }

theorem signedGroupStore_lookup : signedGroupStore.groups.lookup "seed-drill" = some signedGroup :=
  Table.empty.lookup_put_self signedGroup trivial

theorem signedGroupStore_signed : SignedUnder "seed-drill" "aa" signedGroupStore :=
  ⟨signedGroup, signedGroupStore_lookup, rfl, rfl⟩

def keylessTombstone [Sha256] : GroupDescriptor where
  id := "seed-drill"
  culture := "__deleted__"
  updatedAt := "2026-02-02T00:00:00Z"
  checksum := GroupDescriptor.computeChecksum "seed-drill" "__deleted__"
  ownerId := none
  ownerPubkey := none
  signature := some "00"

theorem keylessTombstone_unverified [Sha256] [Ed25519] :
    ¬ VerifiesUnder "aa" keylessTombstone := by
  rintro ⟨sig, hsig, hverify⟩
  cases hsig
  have hkey : hexDecode "aa" = some [0xaa] := by decide
  have hbytes : hexDecode "00" = some [0] := by decide
  unfold verifyDescriptorSignature at hverify
  rw [hkey, hbytes] at hverify
  exact absurd (Ed25519.length_of_verify _ _ _ hverify) (by decide)

/-- Anyone can delete the signed group. -/
theorem keylessTombstone_applied : ¬ ∃ (_ : Sha256) (_ : Ed25519),
    SignedUnder "seed-drill" "aa" signedGroupStore →
      Along mergeCall (Along mergeStep (Authorised "seed-drill" "aa")) signedGroupStore
        [[("2026-02-03 00:00:00", keylessTombstone)]] := by
  rintro ⟨_, _, h⟩
  obtain ⟨⟨hauth, _⟩, _⟩ := h signedGroupStore_signed
  refine (authorised_iff _ _ signedGroupStore_signed).mp hauth ?_
  exact ⟨rfl, rfl, rfl, keylessTombstone_unverified, beq_self_eq_true _,
    .inr (by decide : (groupTombstoneCulture == groupTombstoneCulture) = true), signedGroup,
    signedGroupStore_lookup, (by decide : "2026-02-01 00:00:00" < "2026-02-02T00:00:00Z"),
    (by decide : "chatty" ≠ "__deleted__")⟩

/-- A tombstone that carries the owner's key next to a forged signature is refused. -/
theorem forgedTombstone_refused :
    @Along _ _ (@mergeCall knownDigests shortSignatures)
      (@Along _ _ (@mergeStep knownDigests shortSignatures)
        (@Authorised knownDigests shortSignatures "seed-drill" "aa")) signedGroupStore
      [[("2026-02-03 00:00:00", { @keylessTombstone knownDigests with ownerPubkey := some "aa" })]] := by
  let := knownDigests
  let := shortSignatures
  refine (culture_authorised_iff signedGroupStore_signed _).mpr ?_
  refine ⟨⟨?_, trivial⟩, trivial⟩
  rintro ⟨_, hkey, _⟩
  cases hkey

end Example
end CordeliaCore.DescriptorAuthority
