import CordeliaCore.DescriptorEffect
import Mathlib.Data.Finset.Max

set_option autoImplicit false

namespace CordeliaCore.DescriptorConvergence
open CryptoPrimitives ProtocolMessages StorageRows StorageSqlite KeyedTable Swarm StepRuns
open SqliteStorage

section Convergence
variable [Sha256] [Ed25519]

def ValidUnsigned (g : String) (desc : GroupDescriptor) : Prop :=
  desc.id = g ∧ desc.signature = none ∧ desc.verifyChecksum = true ∧
    (desc.culture.utf8ByteSize ≤ 4096 ∨ desc.isTombstone = true)

/-- Valid unsigned descriptors of one group, different ones with different
    stamps, in any order and with any repetition, at non-decreasing clock
    readings. -/
structure Schedule (g : String) (schedule : List (String × GroupDescriptor)) : Prop where
  valid : ∀ d ∈ schedule, ValidUnsigned g d.2
  distinct : ∀ d ∈ schedule, ∀ e ∈ schedule, d.2.updatedAt = e.2.updatedAt → d.2 = e.2
  clock : schedule.Pairwise (fun d e => d.1 ≤ e.1)

def Newest (schedule : List (String × GroupDescriptor)) (desc : GroupDescriptor) : Prop :=
  desc ∈ schedule.map Prod.snd ∧ ∀ e ∈ schedule, e.2.updatedAt ≤ desc.updatedAt

/-- After the merges the stored culture is that of the newest descriptor, and to
    merge any of the descriptors again changes nothing. -/
def Settled (g : String) (db : SqliteStorage) (schedule : List (String × GroupDescriptor)) : Prop :=
  (∀ m, Newest schedule m →
      ((mergeDescriptors db schedule).2.groups.lookup g).map GroupRow.culture = some m.culture) ∧
    ∀ e ∈ schedule, ∀ now, (∀ f ∈ schedule, f.1 ≤ now) →
      (mergeDescriptors (mergeDescriptors db schedule).2 [(now, e.2)]).2 =
        (mergeDescriptors db schedule).2

def BringsIn (g : String) (m : GroupDescriptor) (db : SqliteStorage)
    (d : String × GroupDescriptor) : Prop :=
  (∀ row, db.groups.lookup g = some row → row.updatedAt < d.2.updatedAt) ∧
    m.updatedAt ≤ d.1 ∧ d.2.culture = m.culture

section Rows
variable {g : String} {db : SqliteStorage}

def Unsigned (g : String) (db : SqliteStorage) : Prop :=
  ∀ row, db.groups.lookup g = some row → row.signature = none ∧ row.ownerPubkey = none

theorem merges_of_newer {desc : GroupDescriptor} (hdesc : ValidUnsigned g desc)
    (hdb : Unsigned g db)
    (h : ∀ row, db.groups.lookup g = some row → row.updatedAt < desc.updatedAt) :
    Merges desc (db.groups.lookup g) := by
  obtain ⟨_, hsig, hsum, hsize⟩ := hdesc
  have hsigned : signatureAccepted desc = true := by
    cases hkey : desc.ownerPubkey <;> simp [signatureAccepted, hsig, hkey]
  refine ⟨⟨hsum, hsize, hsigned⟩, fun row he => ⟨?_, h row he⟩⟩
  obtain ⟨hs, hk⟩ := hdb row he
  simp [ownerAccepted, hs, hk]

theorem mergeStep_of_newer {d : String × GroupDescriptor} (hd : ValidUnsigned g d.2)
    (hdb : Unsigned g db)
    (h : ∀ row, db.groups.lookup g = some row → row.updatedAt < d.2.updatedAt) :
    (mergeStep db d).groups.lookup g = some (mergedRow (db.groups.lookup g) d.1 d.2) := by
  rw [mergeStep_lookup, if_pos ⟨hd.1, merges_of_newer hd hdb h⟩]

theorem mergeStep_of_older {row : GroupRow} (hrow : db.groups.lookup g = some row)
    {d : String × GroupDescriptor} (hid : d.2.id = g) (h : d.2.updatedAt ≤ row.updatedAt) :
    mergeStep db d = db := by
  refine congrArg Prod.snd (mergeDescriptor_otherwise db d.1 d.2 (fun hm => ?_))
  rw [hid] at hm
  exact absurd (hm.2 row hrow).2 (not_lt.mpr h)

theorem unsigned_step (hdb : Unsigned g db) {d : String × GroupDescriptor}
    (hd : ValidUnsigned g d.2) : Unsigned g (mergeStep db d) := by
  intro row hrow
  rw [mergeStep_lookup] at hrow
  split_ifs at hrow
  · have hnone : signatureFields d.2 = none := by
      cases hf : signatureFields d.2 with
      | none => rfl
      | some fields => exact absurd (signatureFields_eq_some_iff.mp hf).2.2 (by simp [hd.2.1])
    unfold mergedRow withSignature at hrow
    rw [hnone] at hrow
    cases hlocal : db.groups.lookup g with
    | none =>
      rw [hlocal] at hrow
      cases hrow
      exact ⟨rfl, rfl⟩
    | some old =>
      rw [hlocal] at hrow
      cases hrow
      exact hdb old hlocal
  · exact hdb row hrow

end Rows

section Runs
variable {g : String} {db : SqliteStorage} {schedule : List (String × GroupDescriptor)}

theorem unsigned_run (hvalid : ∀ d ∈ schedule, ValidUnsigned g d.2)
    (habsent : db.groups.lookup g = none) : Unsigned g (run mergeStep db schedule) := by
  have hstart : Unsigned g db := by
    intro row hrow
    cases habsent.symm.trans hrow
  have hguard : Along mergeStep (fun _ d => ValidUnsigned g d.2) db schedule :=
    along_of_mem (fun d hd _ => hvalid d hd) db
  exact invariant_run (I := Unsigned g) (fun s d hs hd => unsigned_step hs hd) hstart hguard

theorem kept_run {row : GroupRow} (hrow : db.groups.lookup g = some row)
    (h : ∀ d ∈ schedule, d.2.id = g ∧ d.2.updatedAt ≤ row.updatedAt) :
    (run mergeStep db schedule).groups.lookup g = some row := by
  refine invariant_run (I := fun s : SqliteStorage => s.groups.lookup g = some row)
    (fun s d hs hd => ?_) hrow (along_of_mem (fun d hd _ => h d hd) db)
  rw [mergeStep_of_older hs hd.1 hd.2]
  exact hs

theorem last_merge (habsent : db.groups.lookup g = none) {row : GroupRow}
    (hrow : (run mergeStep db schedule).groups.lookup g = some row) :
    ∃ past d coming, schedule = past ++ d :: coming ∧
      (∀ r, (run mergeStep db past).groups.lookup g = some r → r.updatedAt < d.2.updatedAt) ∧
      row.culture = d.2.culture ∧ row.updatedAt = d.1 := by
  have hskip : ∀ (s : SqliteStorage) (d : String × GroupDescriptor),
      ¬ (d.2.id = g ∧ Merges d.2 (s.groups.lookup g)) →
        (mergeStep s d).groups.lookup g = s.groups.lookup g := by
    intro s d hno
    rw [mergeStep_lookup, if_neg hno]
  rcases run_last_write (fun s : SqliteStorage => s.groups.lookup g) hskip db schedule with
    hsame | ⟨past, d, coming, hsplit, hmerges, hlast⟩
  · cases habsent.symm.trans (hsame.symm.trans hrow)
  · refine ⟨past, d, coming, hsplit, fun r hr => (hmerges.2.2 r hr).2, ?_⟩
    rw [hrow, mergeStep_lookup, if_pos hmerges] at hlast
    rw [Option.some.inj hlast]
    exact ⟨mergedRow_culture _ _ _, mergedRow_updatedAt _ _ _⟩

/-- A descriptor that changes nothing when merged at a later reading is not
    newer than the row. -/
theorem not_newer_of_idle {row : GroupRow} (hrow : db.groups.lookup g = some row)
    (hdb : Unsigned g db) {now : String} (hnow : row.updatedAt < now) {desc : GroupDescriptor}
    (hdesc : ValidUnsigned g desc) (hidle : mergeStep db (now, desc) = db) :
    desc.updatedAt ≤ row.updatedAt := by
  by_contra hnewer
  have hmerged := mergeStep_of_newer (d := (now, desc)) hdesc hdb (by
    intro r hr
    cases hrow.symm.trans hr
    exact not_le.mp hnewer)
  rw [hidle, hrow] at hmerged
  have hstamp : row.updatedAt = now := by
    rw [Option.some.inj hmerged]
    exact mergedRow_updatedAt _ _ _
  exact hnow.ne hstamp

omit [Sha256] [Ed25519] in
theorem lt_append_digit (s : String) : s < s ++ "0" := by
  rw [String.lt_iff_toList_lt, String.toList_append]
  have hlt : s.toList ++ [] < s.toList ++ "0".toList := List.append_left_lt (by decide)
  rwa [List.append_nil] at hlt

omit [Sha256] [Ed25519] in
theorem exists_later (schedule : List (String × GroupDescriptor)) :
    ∃ now, ∀ e ∈ schedule, e.1 < now := by
  induction schedule with
  | nil => exact ⟨"", by simp⟩
  | cons d schedule ih =>
    obtain ⟨now, hnow⟩ := ih
    refine ⟨max (d.1 ++ "0") now, fun e he => ?_⟩
    rcases List.mem_cons.mp he with rfl | he
    · exact (lt_append_digit e.1).trans_le (le_max_left _ _)
    · exact (hnow e he).trans_le (le_max_right _ _)

omit [Sha256] [Ed25519] in
theorem exists_newest {e : String × GroupDescriptor} (he : e ∈ schedule) :
    ∃ m, Newest schedule m := by
  obtain ⟨d, hd, hmax⟩ := schedule.toFinset.exists_max_image (fun d => d.2.updatedAt)
    ⟨e, List.mem_toFinset.mpr he⟩
  rw [List.mem_toFinset] at hd
  exact ⟨d.2, List.mem_map_of_mem hd, fun f hf => hmax f (List.mem_toFinset.mpr hf)⟩

/-- Once a descriptor is brought in at a reading not behind the newest, its row
    is the final one. -/
theorem row_of_bringsIn (hvalid : ∀ d ∈ schedule, ValidUnsigned g d.2)
    (habsent : db.groups.lookup g = none) {m : GroupDescriptor} (hm : Newest schedule m)
    {past coming : List (String × GroupDescriptor)} {d : String × GroupDescriptor}
    (hsplit : schedule = past ++ d :: coming) (h : BringsIn g m (run mergeStep db past) d) :
    ∃ row, (run mergeStep db schedule).groups.lookup g = some row ∧
      m.updatedAt ≤ row.updatedAt ∧ row.culture = m.culture := by
  obtain ⟨hnewer, hclock, hculture⟩ := h
  subst hsplit
  have hbefore := unsigned_run (fun e he => hvalid e (List.mem_append_left _ he)) habsent
  have hwritten := mergeStep_of_newer (hvalid d (by simp)) hbefore hnewer
  refine ⟨mergedRow ((run mergeStep db past).groups.lookup g) d.1 d.2, ?_, ?_, ?_⟩
  · rw [run_append, run_cons]
    apply kept_run hwritten
    intro e he
    have hmem : e ∈ past ++ d :: coming := by simp [he]
    rw [mergedRow_updatedAt]
    exact ⟨(hvalid e hmem).1, (hm.2 e hmem).trans hclock⟩
  · rw [mergedRow_updatedAt]
    exact hclock
  · rw [mergedRow_culture]
    exact hculture

end Runs

/-- Without a local row at the start, the merges settle exactly when the culture
    of the newest descriptor is brought in at a reading not behind it. -/
theorem settled_iff_broughtIn {g : String} {db : SqliteStorage}
    {schedule : List (String × GroupDescriptor)} (h : Schedule g schedule)
    (habsent : db.groups.lookup g = none) :
    Settled g db schedule ↔ ∀ m, Newest schedule m →
      ∃ past d coming, schedule = past ++ d :: coming ∧
        BringsIn g m (mergeDescriptors db past).2 d := by
  unfold Settled
  simp only [mergeDescriptors_run]
  constructor
  · rintro ⟨hculture, hidle⟩ m hm
    obtain ⟨row, hrow, hsame⟩ := Option.map_eq_some_iff.mp (hculture m hm)
    obtain ⟨past, d, coming, hsplit, hnewer, hbrought, hstamp⟩ := last_merge habsent hrow
    refine ⟨past, d, coming, hsplit, hnewer, ?_, hbrought.symm.trans hsame⟩
    obtain ⟨e, he, rfl⟩ := List.mem_map.mp hm.1
    obtain ⟨now, hnow⟩ := exists_later schedule
    have hlater : row.updatedAt < now := by
      rw [hstamp]
      exact hnow d (by simp [hsplit])
    rw [← hstamp]
    exact not_newer_of_idle hrow (unsigned_run h.valid habsent) hlater (h.valid e he)
      (hidle e he now (fun f hf => (hnow f hf).le))
  · intro hbrought
    constructor
    · intro m hm
      obtain ⟨past, d, coming, hsplit, hin⟩ := hbrought m hm
      obtain ⟨row, hrow, _, hculture⟩ := row_of_bringsIn h.valid habsent hm hsplit hin
      rw [hrow, Option.map_some, hculture]
    · intro e he now _
      obtain ⟨m, hm⟩ := exists_newest he
      obtain ⟨past, d, coming, hsplit, hin⟩ := hbrought m hm
      obtain ⟨row, hrow, hstamp, _⟩ := row_of_bringsIn h.valid habsent hm hsplit hin
      exact mergeStep_of_older hrow (h.valid e he).1 ((hm.2 e he).trans hstamp)

end Convergence

section Example

def cultureDescriptor [Sha256] (culture updatedAt : String) : GroupDescriptor where
  id := "seed-drill"
  culture := culture
  updatedAt := updatedAt
  checksum := GroupDescriptor.computeChecksum "seed-drill" culture
  ownerId := none
  ownerPubkey := none
  signature := none

theorem cultureDescriptor_valid [Sha256] {culture : String} (h : culture.utf8ByteSize ≤ 4096)
    (updatedAt : String) : ValidUnsigned "seed-drill" (cultureDescriptor culture updatedAt) :=
  ⟨rfl, rfl, beq_self_eq_true _, .inl h⟩

def cultureChange [Sha256] (firstClock secondClock : String) : List (String × GroupDescriptor) :=
  [(firstClock, cultureDescriptor "chatty" "2026-02-01 00:00:00"),
    (secondClock, cultureDescriptor "taciturn" "2026-02-02 00:00:00")]

theorem cultureChange_schedule [Sha256] {firstClock secondClock : String}
    (h : firstClock ≤ secondClock) :
    Schedule "seed-drill" (cultureChange firstClock secondClock) where
  valid d hd := by
    simp only [cultureChange, List.mem_cons, List.not_mem_nil, or_false] at hd
    rcases hd with rfl | rfl
    · exact cultureDescriptor_valid (by decide) _
    · exact cultureDescriptor_valid (by decide) _
  distinct d hd e he hs := by
    have hne : "2026-02-01 00:00:00" ≠ "2026-02-02 00:00:00" := by decide
    simp only [cultureChange, List.mem_cons, List.not_mem_nil, or_false] at hd he
    rcases hd with rfl | rfl <;> rcases he with rfl | rfl
    · rfl
    · exact absurd hs hne
    · exact absurd hs.symm hne
    · rfl
  clock := by simpa [cultureChange] using h

theorem firstMerge_lookup [Sha256] [Ed25519] (clock : String) :
    (mergeStep createNew (clock, cultureDescriptor "chatty" "2026-02-01 00:00:00")).groups.lookup
        "seed-drill" =
      some (mergedRow none clock (cultureDescriptor "chatty" "2026-02-01 00:00:00")) := by
  have hempty : Unsigned "seed-drill" createNew := by
    intro row hrow
    cases hrow
  apply mergeStep_of_newer (cultureDescriptor_valid (by decide) _) hempty
  intro row hrow
  cases hrow

/-- Both descriptors arrive after the second was written, the older one first. -/
theorem cultureChange_lost : ¬ ∃ (_ : Sha256) (_ : Ed25519),
    Schedule "seed-drill" (cultureChange "2026-02-10 00:00:00" "2026-02-10 00:00:01") →
      Settled "seed-drill" createNew
        (cultureChange "2026-02-10 00:00:00" "2026-02-10 00:00:01") := by
  rintro ⟨_, _, h⟩
  have hsettled := h (cultureChange_schedule (by decide))
  have hfirst := firstMerge_lookup "2026-02-10 00:00:00"
  have hsecond := mergeStep_of_older hfirst
    (d := ("2026-02-10 00:00:01", cultureDescriptor "taciturn" "2026-02-02 00:00:00")) rfl
    (by decide : "2026-02-02 00:00:00" ≤ "2026-02-10 00:00:00")
  have hculture := hsettled.1 (cultureDescriptor "taciturn" "2026-02-02 00:00:00") (by
    refine ⟨by simp [cultureChange], fun e he => ?_⟩
    simp only [cultureChange, List.mem_cons, List.not_mem_nil, or_false] at he
    rcases he with rfl | rfl
    · exact (by decide : "2026-02-01 00:00:00" ≤ "2026-02-02 00:00:00")
    · exact le_rfl)
  rw [mergeDescriptors_run, cultureChange, run_cons, run_cons, hsecond, run_nil, hfirst] at hculture
  exact absurd hculture (by decide : some "chatty" ≠ some "taciturn")

/-- Each descriptor arrives within the second it was written in or the next. -/
theorem cultureChange_settled :
    @Settled knownDigests shortSignatures "seed-drill" createNew
      (@cultureChange knownDigests "2026-02-01 00:00:00" "2026-02-02 00:00:01") := by
  let := knownDigests
  let := shortSignatures
  refine (settled_iff_broughtIn (cultureChange_schedule (by decide)) rfl).mpr ?_
  rintro m ⟨hmem, hmax⟩
  simp only [cultureChange, List.map_cons, List.map_nil, List.mem_cons, List.not_mem_nil,
    or_false] at hmem
  rcases hmem with rfl | rfl
  · exact absurd (hmax ("2026-02-02 00:00:01", cultureDescriptor "taciturn" "2026-02-02 00:00:00")
      (by simp [cultureChange])) (by decide : ¬ "2026-02-02 00:00:00" ≤ "2026-02-01 00:00:00")
  · refine ⟨[("2026-02-01 00:00:00", cultureDescriptor "chatty" "2026-02-01 00:00:00")], _, [], rfl,
      fun row hrow => ?_, by decide, rfl⟩
    rw [mergeDescriptors_run, run_cons, run_nil, firstMerge_lookup] at hrow
    cases hrow
    exact (by decide : "2026-02-01 00:00:00" < "2026-02-02 00:00:00")

end Example
end CordeliaCore.DescriptorConvergence
