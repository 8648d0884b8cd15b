import CordeliaCore.ApiEffect
import CordeliaCore.GroupEvents
import CordeliaCore.StepRuns
import CordeliaCore.StorageJournal

set_option autoImplicit false

namespace CordeliaCore.CopyOnWrite
open CryptoPrimitives ProtocolMessages StorageRows StorageSqlite StorageJournal KeyedTable
open Api GroupEvents Timestamps StepRuns Relation SqliteStorage

section Rows

/-- Every key that is in the groups or the members is still there. -/
structure KeepsRows (db db' : SqliteStorage) : Prop where
  groups : ∀ g, (db.groups.lookup g).isSome → (db'.groups.lookup g).isSome
  members : ∀ k, (db.groupMembers.lookup k).isSome → (db'.groupMembers.lookup k).isSome

theorem KeepsRows.trans {db db' db'' : SqliteStorage} (h : KeepsRows db db')
    (h' : KeepsRows db' db'') : KeepsRows db db'' :=
  ⟨fun g hg => h'.groups g (h.groups g hg), fun k hk => h'.members k (h.members k hk)⟩

theorem keepsRows_of_groups {db db' : SqliteStorage} (hgroups : db'.groups = db.groups)
    (hmembers : ∀ k, (db.groupMembers.lookup k).isSome → (db'.groupMembers.lookup k).isSome) :
    KeepsRows db db' :=
  ⟨fun g hg => by rwa [hgroups], hmembers⟩

theorem writeGroup_keepsRows (db : SqliteStorage) (now id name culture policy : String) :
    KeepsRows db (db.writeGroup now id name culture policy) := by
  refine ⟨fun g hg => ?_, fun k hk => hk⟩
  rw [writeGroup_lookup]
  split_ifs
  · rfl
  · exact hg

theorem writeGroupSignature_keepsRows (db : SqliteStorage)
    (id ownerId ownerPubkey signature : String) :
    KeepsRows db (db.writeGroupSignature id ownerId ownerPubkey signature) := by
  refine ⟨fun g hg => ?_, fun k hk => ?_⟩
  · rw [writeGroupSignature_lookup]
    split_ifs with hid
    · rwa [Option.isSome_map, hid]
    · exact hg
  · unfold SqliteStorage.writeGroupSignature
    split <;> exact hk

theorem addMember_keepsRows (db : SqliteStorage) (now groupId entityId role : String) :
    KeepsRows db (db.addMember now groupId entityId role).2 := by
  refine keepsRows_of_groups (addMember_groups now db groupId entityId role) (fun k hk => ?_)
  have hstub : (db.ensureL1Stub now entityId).groupMembers = db.groupMembers := by
    unfold ensureL1Stub
    split <;> rfl
  unfold SqliteStorage.addMember
  dsimp only
  rw [← hstub] at hk
  split_ifs with hcheck
  · exact Table.isSome_lookup_put hcheck hk
  · exact hk
  · exact hk

theorem updateMemberPosture_keepsRows {db db' : SqliteStorage} {groupId entityId posture : String}
    {changed : Bool} (h : db.updateMemberPosture groupId entityId posture = .ok (changed, db')) :
    KeepsRows db db' := by
  refine keepsRows_of_groups (updateMemberPosture_groups db h) (fun k hk => ?_)
  unfold SqliteStorage.updateMemberPosture at h
  split at h
  · cases h
    exact hk
  · dsimp only at h
    split_ifs at h with hcheck
    cases h
    exact Table.isSome_lookup_put hcheck hk

theorem removeMember_keepsRows {db db' : SqliteStorage} {groupId entityId : String} {changed : Bool}
    (h : db.removeMember groupId entityId = .ok (changed, db')) :
    db'.groups = db.groups ∧ KeepsRows db db' := by
  unfold SqliteStorage.removeMember at h
  split at h
  · cases h
    exact ⟨rfl, ⟨fun _ hg => hg, fun _ hk => hk⟩⟩
  · exact ⟨updateMemberPosture_groups db h, updateMemberPosture_keepsRows h⟩

end Rows

section History
variable [Sha256]

/-- Every group has the stamp of its last write, which the clock gave. -/
def Stamped (s : Journaled SqliteStorage) : Prop :=
  ∀ g row, s.db.groups.lookup g = some row →
    ∃ i : Instant, s.lastWrite g = some i.datetime ∧ row.updatedAt = i.datetime

omit [Sha256] in
theorem stamped_of_groups {s t : Journaled SqliteStorage} (h : Stamped s)
    (hgroups : t.db.groups = s.db.groups) (hwrites : t.groupWrites = s.groupWrites) : Stamped t := by
  intro g row hrow
  rw [hgroups] at hrow
  unfold Journaled.lastWrite
  rw [hwrites]
  exact h g row hrow

omit [Sha256] in
theorem stamped_writeGroup {s : Journaled SqliteStorage} (hs : Stamped s) (now : Instant)
    (id name culture policy : String) :
    Stamped { s with
      db := s.db.writeGroup now.datetime id name culture policy
      groupWrites := (id, now.datetime) :: s.groupWrites } := by
  intro g row hrow
  rw [writeGroup_lookup] at hrow
  split_ifs at hrow with hid
  · cases hrow
    exact ⟨now, by simp [Journaled.lastWrite, hid], rfl⟩
  · obtain ⟨i, hi, hstamp⟩ := hs g row hrow
    have hne : (g == id) = false := by simpa using fun heq => hid heq.symm
    exact ⟨i, by simpa [Journaled.lastWrite, List.lookup_cons, hne] using hi, hstamp⟩

theorem writes_keep {s t : Journaled SqliteStorage} (h : Writes s t) (hs : Stamped s) :
    Stamped t ∧ KeepsRows s.db t.db := by
  cases h with
  | @writeGroup now id name culture policy _ h =>
    obtain ⟨db, hdb, rfl⟩ := Journaled.writeGroup_eq_ok h
    rw [writeGroup_ok] at hdb
    cases hdb
    exact ⟨stamped_writeGroup hs now id name culture policy,
      writeGroup_keepsRows s.db now.datetime id name culture policy⟩
  | @writeGroupSignature id ownerId ownerPubkey signature _ h =>
    obtain ⟨db, hdb, rfl⟩ := Journaled.writeGroupSignature_eq_ok h
    rw [writeGroupSignature_ok] at hdb
    cases hdb
    refine ⟨fun g row hrow => ?_, writeGroupSignature_keepsRows s.db id ownerId ownerPubkey signature⟩
    change (s.db.writeGroupSignature _ _ _ _).groups.lookup g = some row at hrow
    rw [writeGroupSignature_lookup] at hrow
    split_ifs at hrow with hid
    · obtain ⟨old, hold, rfl⟩ := Option.map_eq_some_iff.mp hrow
      exact hs g old (hid ▸ hold)
    · exact hs g row hrow
  | @addMember now groupId entityId role =>
    exact ⟨stamped_of_groups hs (addMember_groups now s.db groupId entityId role) rfl,
      addMember_keepsRows s.db now groupId entityId role⟩
  | updateMemberPosture h =>
    obtain ⟨db, hdb, rfl⟩ := Journaled.updateMemberPosture_eq_ok h
    exact ⟨stamped_of_groups hs (updateMemberPosture_groups s.db hdb) rfl,
      updateMemberPosture_keepsRows hdb⟩
  | removeMember h =>
    obtain ⟨db, hdb, rfl⟩ := Journaled.removeMember_eq_ok h
    have hkept := removeMember_keepsRows hdb
    exact ⟨stamped_of_groups hs hkept.1 rfl, hkept.2⟩
  | logAccess h =>
    obtain ⟨db, hdb, rfl⟩ := Journaled.logAccess_eq_ok h
    rw [logAccess_ok] at hdb
    cases hdb
    exact ⟨stamped_of_groups hs rfl rfl, ⟨fun _ hg => hg, fun _ hk => hk⟩⟩

theorem evolves_keep {s t : Journaled SqliteStorage} (h : Evolves s t) (hs : Stamped s) :
    Stamped t ∧ KeepsRows s.db t.db := by
  induction h with
  | refl => exact ⟨hs, ⟨fun _ hg => hg, fun _ hk => hk⟩⟩
  | tail _ hstep ih =>
    obtain ⟨hstamped, hkept⟩ := writes_keep hstep ih.1
    exact ⟨hstamped, ih.2.trans hkept⟩

end History

section Purge
variable (db : SqliteStorage) (membersCutoff groupsCutoff culture : String)

theorem purge_groups (g : String) :
    (db.purgeDeletedGroups membersCutoff groupsCutoff culture).2.groups.lookup g =
        db.groups.lookup g ∨
      (db.purgeDeletedGroups membersCutoff groupsCutoff culture).2.groups.lookup g = none ∧
        ∀ row, db.groups.lookup g = some row → purgeable culture groupsCutoff row = true := by
  unfold SqliteStorage.purgeDeletedGroups
  dsimp only
  split_ifs
  · exact .inl rfl
  · dsimp only
    rw [Table.lookup_keep]
    cases hrow : db.groups.lookup g with
    | none => exact .inl rfl
    | some row =>
      cases hp : purgeable culture groupsCutoff row with
      | false => exact .inl (by simp [hp])
      | true => exact .inr ⟨by simp [hp], by simp [hp]⟩

theorem purge_members {k : String ×ₗ String} {m : GroupMemberRow}
    (hm : db.groupMembers.lookup k = some m)
    (hgone : (db.purgeDeletedGroups membersCutoff groupsCutoff culture).2.groupMembers.lookup k =
      none) :
    ∃ row, db.groups.lookup m.groupId = some row ∧ purgeable culture membersCutoff row = true := by
  have hmembers : (db.purgeDeletedGroups membersCutoff groupsCutoff culture).2.groupMembers =
      db.groupMembers.keep (fun m =>
        !(db.groups.lookup m.groupId).any (purgeable culture membersCutoff)) := by
    unfold SqliteStorage.purgeDeletedGroups
    dsimp only
    split_ifs <;> rfl
  rw [hmembers, Table.lookup_keep, hm] at hgone
  have hany : (db.groups.lookup m.groupId).any (purgeable culture membersCutoff) = true := by
    simpa [Option.filter] using hgone
  cases hrow : db.groups.lookup m.groupId with
  | none => simp [hrow] at hany
  | some row => exact ⟨row, rfl, by simpa [hrow] using hany⟩

end Purge

section Runs
variable [Sha256] [Ed25519] [EarlyDates]

/-- The last write of the group is more than so many days before `now`: whatever instant
    its stamp was read at, and there is one. -/
def Expired (s : Journaled SqliteStorage) (g : String) (now : Instant) (days : UInt32) : Prop :=
  ∃ stamp, s.lastWrite g = some stamp ∧ (∃ i : Instant, i.datetime = stamp) ∧
    ∀ i : Instant, i.datetime = stamp →
      i.nanos + days.toNat * secsPerDay * nanosPerSec < now.nanos

theorem handle_gcTick_db (s : AppState (Journaled SqliteStorage)) (members groups : Instant)
    (days : UInt32) :
    (handle s (.gcTick members groups days)).storage.db = (s.storage.db.purgeDeletedGroups
      (daysAgo members days.toNat) (daysAgo groups days.toNat) groupTombstoneCulture).2 := rfl

omit [Sha256] [Ed25519] in
theorem expired_of_purgeable {s : Journaled SqliteStorage} (hs : Stamped s) {g : String}
    {row : GroupRow} (hrow : s.db.groups.lookup g = some row) {now : Instant} {days : UInt32}
    (h : purgeable groupTombstoneCulture (daysAgo now days.toNat) row = true) :
    row.culture = groupTombstoneCulture ∧ Expired s g now days := by
  obtain ⟨i, hi, hstamp⟩ := hs g row hrow
  have hboth : row.culture = groupTombstoneCulture ∧ row.updatedAt < daysAgo now days.toNat := by
    simpa [purgeable] using h
  refine ⟨hboth.1, i.datetime, hi, ⟨i, rfl⟩, fun j hj => ?_⟩
  have hlt := hboth.2
  rw [hstamp, ← hj, datetime_lt_daysAgo_iff] at hlt
  -- whole seconds of the stamp against whole seconds of the clock
  unfold Instant.second nanosPerSec at hlt
  unfold nanosPerSec
  omega

def RemovesOnlyExpired (s : AppState (Journaled SqliteStorage)) (event : GroupEvent) : Prop :=
  (∀ g row, s.storage.db.groups.lookup g = some row →
    (handle s event).storage.db.groups.lookup g = none →
      ∃ members groups days, event = .gcTick members groups days ∧
        row.culture = groupTombstoneCulture ∧ Expired s.storage g groups days) ∧
  ∀ k m, s.storage.db.groupMembers.lookup k = some m →
    (handle s event).storage.db.groupMembers.lookup k = none →
      ∃ members groups days, event = .gcTick members groups days ∧
        ∃ row, s.storage.db.groups.lookup m.groupId = some row ∧
          row.culture = groupTombstoneCulture ∧ Expired s.storage m.groupId members days

theorem handle_keeps {s : AppState (Journaled SqliteStorage)} (hs : Stamped s.storage)
    (event : GroupEvent) : RemovesOnlyExpired s event ∧ Stamped (handle s event).storage := by
  by_cases hgc : ∃ members groups days, event = .gcTick members groups days
  · obtain ⟨members, groups, days, rfl⟩ := hgc
    have hdb := handle_gcTick_db s members groups days
    refine ⟨⟨fun g row hrow hgone => ?_, fun k m hm hgone => ?_⟩, fun g row hrow => ?_⟩
    · rw [hdb] at hgone
      refine ⟨members, groups, days, rfl, ?_⟩
      rcases purge_groups s.storage.db (daysAgo members days.toNat) (daysAgo groups days.toNat)
        groupTombstoneCulture g with hsame | ⟨-, hpurged⟩
      · rw [hsame, hrow] at hgone
        cases hgone
      · exact expired_of_purgeable hs hrow (hpurged row hrow)
    · rw [hdb] at hgone
      obtain ⟨row, hrow, hpurgeable⟩ := purge_members _ _ _ _ hm hgone
      exact ⟨members, groups, days, rfl, row, hrow, expired_of_purgeable hs hrow hpurgeable⟩
    · rw [hdb] at hrow
      rcases purge_groups s.storage.db (daysAgo members days.toNat) (daysAgo groups days.toNat)
        groupTombstoneCulture g with hsame | ⟨hnone, -⟩
      · exact hs g row (hsame ▸ hrow)
      · rw [hnone] at hrow
        cases hrow
  · have hother : ∀ members groups days, event ≠ .gcTick members groups days :=
      fun members groups days heq => hgc ⟨members, groups, days, heq⟩
    obtain ⟨hstamped, hkept⟩ := evolves_keep (handle_evolves s hother) hs
    refine ⟨⟨fun g row hrow hgone => ?_, fun k m hm hgone => ?_⟩, hstamped⟩
    · have hsome := hkept.groups g (by simp [hrow])
      rw [hgone] at hsome
      cases hsome
    · have hsome := hkept.members k (by simp [hm])
      rw [hgone] at hsome
      cases hsome

/-- From an empty store, over every run: a row of the groups or the members is removed only
    by the collection, when its group is a tombstone whose last write is older than the
    retention time. -/
theorem removed_only_when_expired (s : AppState (Journaled SqliteStorage))
    (events : List GroupEvent) :
    Along handle RemovesOnlyExpired { s with storage := ⟨createNew, [], []⟩ } events := by
  refine along_of_guard (I := fun t : AppState (Journaled SqliteStorage) => Stamped t.storage)
    (G := fun _ _ => True) (fun t event ht _ => (handle_keeps ht event).2)
    (fun t event ht _ => (handle_keeps ht event).1) ?_ (along_of_mem (fun _ _ _ => trivial) _)
  rintro g row ⟨⟩

end Runs

section Example

def aliceNode : AppState (Journaled SqliteStorage) :=
  ⟨⟨createNew, [], []⟩, "alice", "token", none, none, none⟩

def madeAndDeleted : List GroupEvent :=
  [.create (some "Bearer token") .tenOClock ⟨"seed-drill", "seed-drill", "chatty", "{}"⟩,
    .delete (some "Bearer token") .tenOClock "seed-drill"]

/-- The collection of the eighth day after, with a week of retention. -/
theorem deleted_group_collected :
    let := knownDigests
    let := shortSignatures
    let := nullDates
    let deleted := run handle aliceNode madeAndDeleted
    let collect := GroupEvent.gcTick .eightDaysLater .eightDaysLater 7
    (deleted.storage.db.groups.lookup "seed-drill").isSome ∧
      (handle deleted collect).storage.db.groups.lookup "seed-drill" = none ∧
      Expired deleted.storage "seed-drill" .eightDaysLater 7 := by
  intro _ _ _ deleted collect
  let row : GroupRow :=
    { id := "seed-drill", name := "seed-drill", culture := groupTombstoneCulture,
      securityPolicy := "{}", createdAt := Instant.tenOClock.datetime,
      updatedAt := Instant.tenOClock.datetime, ownerId := none, ownerPubkey := none,
      signature := none }
  have hrow : deleted.storage.db.groups.lookup "seed-drill" = some row := rfl
  have hold : purgeable groupTombstoneCulture (daysAgo .eightDaysLater 7) row = true := by
    have hlater : row.updatedAt < daysAgo .eightDaysLater 7 :=
      (datetime_lt_daysAgo_iff _ _ _).mpr (by decide)
    simp [purgeable, row, hlater]
  have hgone : (handle deleted collect).storage.db.groups.lookup "seed-drill" = none := by
    have hmembers : deleted.storage.db.groupMembers.rows = [] := rfl
    rw [handle_gcTick_db]
    unfold SqliteStorage.purgeDeletedGroups
    dsimp only
    rw [if_neg (by simp [Table.keep, hmembers])]
    change (deleted.storage.db.groups.keep _).lookup "seed-drill" = none
    rw [Table.lookup_keep, hrow]
    simp [hold]
  have hruns := removed_only_when_expired aliceNode (madeAndDeleted ++ [collect])
  obtain ⟨hgroups, -⟩ := ((along_append handle _ _ _ _).mp hruns).2.1
  obtain ⟨members, groups, days, hevent, -, hexpired⟩ := hgroups "seed-drill" row hrow hgone
  obtain ⟨-, rfl, rfl⟩ := GroupEvent.gcTick.inj hevent
  exact ⟨rfl, hgone, hexpired⟩

end Example
end CordeliaCore.CopyOnWrite
