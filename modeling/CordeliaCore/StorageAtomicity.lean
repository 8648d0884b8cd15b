import CordeliaCore.StorageSqlite

set_option autoImplicit false

namespace CordeliaCore.StorageSqlite
open StorageRows KeyedTable

/-- A failed call has left the tables alone. -/
def Atomic {β : Type} (db : SqliteStorage) (result : Except StorageError β × SqliteStorage) : Prop :=
  ∀ e, result.1 = .error e →
    result.2.l1Hot = db.l1Hot ∧ result.2.groups = db.groups ∧ result.2.groupMembers = db.groupMembers

namespace SqliteStorage

section AddMember
variable (db : SqliteStorage) (now groupId entityId role : String)

theorem ensureL1Stub_l1Hot_iff :
    (db.ensureL1Stub now entityId).l1Hot = db.l1Hot ↔ (db.l1Hot.lookup entityId).isSome = true := by
  unfold ensureL1Stub
  cases hrow : db.l1Hot.lookup entityId with
  | some row => simp
  | none =>
    refine iff_of_false (fun hsame => ?_) (by simp)
    have hlookup := congrArg (fun t => Table.lookup t entityId) hsame
    simp only [Table.lookup_put, if_true, hrow] at hlookup
    cases hlookup

theorem ensureL1Stub_rest : (db.ensureL1Stub now entityId).groups = db.groups ∧
    (db.ensureL1Stub now entityId).groupMembers = db.groupMembers := by
  unfold ensureL1Stub
  split <;> exact ⟨rfl, rfl⟩

theorem memberUpserted_checks (existing : Option GroupMemberRow) :
    MemberChecks (memberUpserted existing now groupId entityId role) ↔ role ∈ memberRoles := by
  unfold MemberChecks memberUpserted
  simp [memberPostures]

/-- An unknown role or group makes the second statement fail, after the stub. -/
theorem addMember_cases : (∃ after, db.addMember now groupId entityId role = (.ok (), after)) ∧
      role ∈ memberRoles ∧ (db.groups.lookup groupId).isSome = true ∨
    (∃ e, db.addMember now groupId entityId role = (.error e, db.ensureL1Stub now entityId)) ∧
      ¬ (role ∈ memberRoles ∧ (db.groups.lookup groupId).isSome = true) := by
  obtain ⟨hgroups, -⟩ := ensureL1Stub_rest db now entityId
  unfold addMember
  dsimp only
  by_cases hrole : role ∈ memberRoles
  · rw [dif_pos ((memberUpserted_checks now groupId entityId role _).mpr hrole), hgroups]
    by_cases hgroup : (db.groups.lookup groupId).isSome = true
    · rw [if_pos hgroup]
      exact .inl ⟨⟨_, rfl⟩, hrole, hgroup⟩
    · rw [if_neg hgroup]
      exact .inr ⟨⟨_, rfl⟩, fun h => hgroup h.2⟩
  · rw [dif_neg (fun h => hrole ((memberUpserted_checks now groupId entityId role _).mp h))]
    exact .inr ⟨⟨_, rfl⟩, fun h => hrole h.1⟩

theorem addMember_atomic_iff : Atomic db (db.addMember now groupId entityId role) ↔
    (db.l1Hot.lookup entityId).isSome = true ∨
      role ∈ memberRoles ∧ (db.groups.lookup groupId).isSome = true := by
  rcases addMember_cases db now groupId entityId role with ⟨⟨after, heq⟩, hvalid⟩ | ⟨⟨e, heq⟩, hfails⟩
  · rw [heq]
    refine iff_of_true ?_ (.inr hvalid)
    rintro e ⟨⟩
  · obtain ⟨hgroups, hmembers⟩ := ensureL1Stub_rest db now entityId
    rw [heq, or_iff_left hfails, ← ensureL1Stub_l1Hot_iff db now entityId]
    constructor
    · intro hatomic
      exact (hatomic e rfl).1
    · rintro hl1 _ -
      exact ⟨hl1, hgroups, hmembers⟩

end AddMember

section DeleteGroup

theorem deleteGroup_atomic (db : SqliteStorage) (id : String) : Atomic db (db.deleteGroup id) := by
  have hnone : ∀ m ∈ (db.groupMembers.keep (fun m => m.groupId ≠ id)).rows, ¬ m.groupId = id := by
    intro m hm
    exact of_decide_eq_true (List.mem_filter.mp hm).2
  unfold deleteGroup
  dsimp only
  rw [if_neg]
  · rintro e ⟨⟩
  · rintro ⟨-, hany⟩
    obtain ⟨m, hm, hid⟩ := List.any_eq_true.mp hany
    exact hnone m hm (of_decide_eq_true hid)

end DeleteGroup

section Purge
variable (db : SqliteStorage) (membersCutoff groupsCutoff culture : String)

def due (culture cutoff : String) (m : GroupMemberRow) : Bool :=
  (db.groups.lookup m.groupId).any (purgeable culture cutoff)

/-- The second statement finds a member of a group that has become due in between. -/
theorem purge_fails_iff :
    (db.groupMembers.keep (fun m => !db.due culture membersCutoff m)).rows.any
        (db.due culture groupsCutoff) = true ↔
      ∃ m ∈ db.groupMembers.rows,
        db.due culture groupsCutoff m = true ∧ db.due culture membersCutoff m = false := by
  rw [List.any_eq_true]
  constructor
  · rintro ⟨m, hm, hdue⟩
    obtain ⟨hrow, hkept⟩ := List.mem_filter.mp hm
    exact ⟨m, hrow, hdue, by simpa using hkept⟩
  · rintro ⟨m, hrow, hdue, hnot⟩
    exact ⟨m, List.mem_filter.mpr ⟨hrow, by simp [hnot]⟩, hdue⟩

theorem purge_atomic_iff : Atomic db (db.purgeDeletedGroups membersCutoff groupsCutoff culture) ↔
    ¬ ((∃ m ∈ db.groupMembers.rows, db.due culture membersCutoff m = true) ∧
      ∃ m ∈ db.groupMembers.rows,
        db.due culture groupsCutoff m = true ∧ db.due culture membersCutoff m = false) := by
  have hpurge : db.purgeDeletedGroups membersCutoff groupsCutoff culture =
      let kept := db.groupMembers.keep (fun m => !db.due culture membersCutoff m)
      if kept.rows.any (db.due culture groupsCutoff) then
        (.error (.sqlite "FOREIGN KEY constraint failed"), { db with groupMembers := kept })
      else (.ok (db.groups.rows.countP (purgeable culture groupsCutoff)),
        { db with
          groupMembers := kept
          groups := db.groups.keep (fun row => !purgeable culture groupsCutoff row) }) := rfl
  rw [hpurge]
  dsimp only
  by_cases hfails : (db.groupMembers.keep (fun m => !db.due culture membersCutoff m)).rows.any
      (db.due culture groupsCutoff) = true
  · rw [if_pos hfails, and_iff_left ((purge_fails_iff db _ _ _).mp hfails)]
    have hkept : db.groupMembers.keep (fun m => !db.due culture membersCutoff m) = db.groupMembers ↔
        ¬ ∃ m ∈ db.groupMembers.rows, db.due culture membersCutoff m = true := by
      rw [Table.keep_eq_self_iff]
      simp
    rw [← hkept]
    constructor
    · intro hatomic
      exact (hatomic _ rfl).2.2
    · rintro hsame _ -
      exact ⟨rfl, rfl, hsame⟩
  · rw [if_neg hfails]
    refine iff_of_true ?_ (fun h => hfails ((purge_fails_iff db _ _ _).mpr h.2))
    rintro e ⟨⟩

/-- Which calls leave the tables alone when they fail: an addition for a user that is known,
    every deletion, and a purge that purges no members or overtakes none. -/
theorem storage_atomic_iff (now groupId entityId role id : String) :
    (Atomic db (db.addMember now groupId entityId role) ↔
        (db.l1Hot.lookup entityId).isSome = true ∨
          role ∈ memberRoles ∧ (db.groups.lookup groupId).isSome = true) ∧
      Atomic db (db.deleteGroup id) ∧
      (Atomic db (db.purgeDeletedGroups membersCutoff groupsCutoff culture) ↔
        ¬ ((∃ m ∈ db.groupMembers.rows, db.due culture membersCutoff m = true) ∧
          ∃ m ∈ db.groupMembers.rows,
            db.due culture groupsCutoff m = true ∧ db.due culture membersCutoff m = false)) :=
  ⟨addMember_atomic_iff db now groupId entityId role, deleteGroup_atomic db id,
    purge_atomic_iff db membersCutoff groupsCutoff culture⟩

end Purge

section Example

def tombstone (id updatedAt : String) : GroupRow :=
  ⟨id, id, "__deleted__", "", "", updatedAt, none, none, none⟩

def leaver (groupId : String) : GroupMemberRow := ⟨groupId, "ann", "member", some "removed", ""⟩

theorem leaver_checks (groupId : String) : MemberChecks (leaver groupId) :=
  (by decide : "member" ∈ memberRoles ∧ ∀ p ∈ some "removed", p ∈ memberPostures)

def twoDeleted : SqliteStorage :=
  { createNew with
    l1Hot := Table.empty.put ⟨"ann", [], "", ""⟩ trivial
    groups := (Table.empty.put (tombstone "g1" "2026-01-01 00:00:00") trivial).put
      (tombstone "g2" "2026-01-08 00:00:00") trivial
    groupMembers := (Table.empty.put (leaver "g1") (leaver_checks "g1")).put (leaver "g2")
      (leaver_checks "g2") }

/-- A member of an unknown group leaves a stub behind, and a purge during which the second
    group becomes due leaves the first group without its member. -/
theorem failed_calls_change_tables :
    let added := createNew.addMember "2026-01-15 00:00:00" "unknown" "eve" "member"
    let purged := twoDeleted.purgeDeletedGroups "2026-01-08 00:00:00" "2026-01-08 00:00:01" "__deleted__"
    added.1 = .error (.sqlite "FOREIGN KEY constraint failed") ∧
      createNew.l1Hot.rows.length = 0 ∧ added.2.l1Hot.rows.length = 1 ∧
      purged.1 = .error (.sqlite "FOREIGN KEY constraint failed") ∧
      twoDeleted.groupMembers.rows = [leaver "g1", leaver "g2"] ∧
      purged.2.groupMembers.rows = [leaver "g2"] ∧ purged.2.groups.rows.length = 2 := by
  refine ⟨rfl, rfl, rfl, rfl, ?_, ?_, rfl⟩
  · decide +kernel
  · decide +kernel

end Example
end SqliteStorage
end CordeliaCore.StorageSqlite
