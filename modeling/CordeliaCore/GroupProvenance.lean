import CordeliaCore.GroupRegistry

set_option autoImplicit false

namespace CordeliaCore.GroupProvenance
open CryptoPrimitives ProtocolMessages StorageRows StorageSqlite KeyedTable StepRuns
open SqliteStorage Swarm Api GroupRegistry

/-- The group leaves the list as soon as the work in progress is done. -/
def Leaving (s : Registry) (g : String) : Prop := g ∈ s.merging ∨ Task.remove g ∈ s.tasks

def Deleted (db : SqliteStorage) (g : String) : Prop :=
  ∃ row ∈ db.groups.lookup g, row.culture = groupTombstoneCulture

/-- The rule of the list. Where nothing is in progress, no listed group is deleted. -/
def Provenance (configGroups : List String) (s : Registry) : Prop :=
  ∀ g ∈ s.sharedGroups, (g ∈ s.created ∨ g ∈ configGroups) ∧ (Deleted s.storage g → Leaving s g)

def KeepsRule (configGroups : List String) (s : Registry) : Event → Prop
  | .createWrites _ req =>
    req.culture = groupTombstoneCulture → req.groupId ∈ s.sharedGroups → Leaving s req.groupId
  | .runs _ (.add g) => Task.add g ∈ s.tasks → Deleted s.storage g → Leaving s g
  | .restart _ => ∀ row ∈ s.storage.groups.rows,
    (row.id ∈ s.created ∨ row.id ∈ configGroups) ∧ row.culture ≠ groupTombstoneCulture
  | _ => True

structure Inv (configGroups : List String) (s : Registry) : Prop where
  rule : Provenance configGroups s
  adds : ∀ g, Task.add g ∈ s.tasks → g ∈ s.created

theorem Provenance.not_deleted {configGroups : List String} {s : Registry}
    (h : Provenance configGroups s) (htasks : s.tasks = []) (hmerging : s.merging = []) :
    ∀ g ∈ s.sharedGroups, ¬ Deleted s.storage g := by
  intro g hg hdeleted
  rcases (h g hg).2 hdeleted with hm | hr
  · rw [hmerging] at hm
    cases hm
  · rw [htasks] at hr
    cases hr

section Table
variable [Sha256]

theorem seedGroup_lookup (now : String) (db : SqliteStorage) (id g : String) :
    (seedGroup now db id).groups.lookup g =
      (db.groups.lookup g).or
        (if id = g then some (groupUpserted none now g g seededCulture "{}") else none) := by
  unfold seedGroup
  rw [readGroup_ok, writeGroup_ok]
  change (if (db.groups.lookup id).isSome then db
    else db.writeGroup now id id seededCulture "{}").groups.lookup g = _
  cases hid : db.groups.lookup id with
  | some row =>
    rw [if_pos Option.isSome_some]
    by_cases heq : id = g
    · rw [← heq, hid]
      rfl
    · rw [if_neg heq, Option.or_none]
  | none =>
    rw [if_neg (by simp), writeGroup_lookup, hid]
    by_cases heq : id = g
    · subst heq
      rw [if_pos rfl, if_pos rfl, hid]
      rfl
    · rw [if_neg heq, if_neg heq, Option.or_none]

theorem seedGroups_lookup (now : String) (db : SqliteStorage) (groups : List String) (g : String) :
    (seedGroups now db groups).groups.lookup g =
      (db.groups.lookup g).or
        (if g ∈ groups then some (groupUpserted none now g g seededCulture "{}") else none) := by
  induction groups generalizing db with
  | nil => exact (Option.or_none).symm
  | cons id groups ih =>
    change (seedGroups now (seedGroup now db id) groups).groups.lookup g = _
    rw [ih, seedGroup_lookup, Option.or_assoc]
    congr 1
    by_cases hid : id = g
    · simp [hid]
    · have hne : g ≠ id := fun h => hid h.symm
      simp [hid, hne]

theorem mem_initialGroups {db : SqliteStorage} {g : String} :
    g ∈ initialGroups db ↔ (db.groups.lookup g).isSome := by
  change g ∈ db.listGroups.map GroupRow.id ↔ _
  rw [List.mem_map, Option.isSome_iff_exists]
  refine exists_congr (fun row => ?_)
  rw [db.groups.lookup_eq_some_iff]
  unfold SqliteStorage.listGroups
  rw [List.mem_insertionSort]

omit [Sha256] in
theorem deleted_writeGroup {db : SqliteStorage} {now id name culture policy g : String} :
    Deleted (db.writeGroup now id name culture policy) g ↔
      if id = g then culture = groupTombstoneCulture else Deleted db g := by
  unfold Deleted
  rw [writeGroup_lookup]
  split_ifs <;> simp [groupUpserted]

variable [Ed25519]

/-- A merged tombstone is reported, so that its group leaves the list. -/
theorem deleted_mergeDescriptor {db : SqliteStorage} {now : String} {desc : GroupDescriptor}
    {g : String} (h : Deleted (mergeDescriptor db now desc).2 g) :
    Deleted db g ∨ g ∈ (mergeDescriptor db now desc).1.tombstoned := by
  unfold Deleted at h
  rw [mergeDescriptor_lookup] at h
  split_ifs at h with hmerge
  · obtain ⟨row, hrow, hculture⟩ := h
    cases hrow
    rw [mergedRow_culture] at hculture
    obtain ⟨rfl, hmerges⟩ := hmerge
    have htomb : desc.isTombstone = true := beq_iff_eq.mpr hculture
    right
    rw [mergeDescriptor_of_merges db now desc hmerges]
    unfold writeDescriptor
    rw [writeGroup_ok]
    dsimp only
    rw [if_pos htomb]
    exact List.mem_singleton.mpr rfl
  · exact .inl h

end Table

section Tasks
variable [Sha256] {configGroups : List String} {s : Registry} (hs : Inv configGroups s)
include hs

theorem add_keeps_iff (now g : String) (hmem : Task.add g ∈ s.tasks) :
    Provenance configGroups (runTask s now (.add g)) ↔
      (Deleted s.storage g → Leaving s g) := by
  have hleaving : ∀ k, Leaving (runTask s now (.add g)) k ↔ Leaving s k := by
    intro k
    change k ∈ s.merging ∨ Task.remove k ∈ s.tasks.erase (.add g) ↔ _
    rw [List.mem_erase_of_ne (by simp)]
    rfl
  have hlisted : ∀ k, k ∈ (runTask s now (.add g)).sharedGroups ↔ k ∈ s.sharedGroups ∨ k = g := by
    intro k
    change k ∈ addShared s.sharedGroups g ↔ _
    unfold addShared
    split_ifs with hin
    · refine ⟨.inl, fun h => h.elim id ?_⟩
      rintro rfl
      simpa using hin
    · simp
  constructor
  · intro h hdeleted
    exact (hleaving g).mp ((h g ((hlisted g).mpr (.inr rfl))).2 hdeleted)
  · intro h k hk
    rcases (hlisted k).mp hk with hold | rfl
    · obtain ⟨hfrom, hgone⟩ := hs.rule k hold
      exact ⟨hfrom, fun hdeleted => (hleaving k).mpr (hgone hdeleted)⟩
    · exact ⟨.inl (hs.adds k hmem), fun hdeleted => (hleaving k).mpr (h hdeleted)⟩

omit hs in
theorem deleted_tombstone (s : Registry) (now g : String) :
    Deleted (runTask s now (.tombstone g)).storage g := by
  refine ⟨groupUpserted (s.storage.groups.lookup g) now g g groupTombstoneCulture "{}", ?_, rfl⟩
  change (removeMembers (s.storage.writeGroup now g g groupTombstoneCulture "{}") g).groups.lookup g = _
  rw [removeMembers_groups, writeGroup_lookup, if_pos rfl]

theorem tombstone_keeps (now g : String) :
    Provenance configGroups (runTask s now (.tombstone g)) := by
  intro k hk
  obtain ⟨hfrom, hgone⟩ := hs.rule k hk
  refine ⟨hfrom, fun hdeleted => ?_⟩
  by_cases heq : k = g
  · exact .inr (List.mem_append_right _ (by rw [heq]; exact List.mem_singleton.mpr rfl))
  · have hbefore : Deleted s.storage k := by
      unfold Deleted at hdeleted ⊢
      change ∃ row ∈ (removeMembers (s.storage.writeGroup now g g groupTombstoneCulture "{}")
        g).groups.lookup k, _ at hdeleted
      rwa [removeMembers_groups, writeGroup_lookup, if_neg (fun h => heq h.symm)] at hdeleted
    refine (hgone hbefore).imp_right (fun hr => List.mem_append_left _ ?_)
    exact (List.mem_erase_of_ne (by simp)).mpr hr

theorem remove_keeps (now g : String) : Provenance configGroups (runTask s now (.remove g)) := by
  intro k hk
  obtain ⟨hold, hne⟩ := List.mem_filter.mp hk
  obtain ⟨hfrom, hgone⟩ := hs.rule k hold
  refine ⟨hfrom, fun hdeleted => (hgone hdeleted).imp_right (fun hr => ?_)⟩
  exact (List.mem_erase_of_ne (by simpa using hne)).mpr hr

end Tasks

section Steps
variable [Sha256] [Ed25519] {configGroups : List String} {s : Registry} (hs : Inv configGroups s)
include hs

omit hs in
theorem adds_step (h : ∀ g, Task.add g ∈ s.tasks → g ∈ s.created) (e : Event) (g : String)
    (hg : Task.add g ∈ (step configGroups s e).tasks) : g ∈ (step configGroups s e).created := by
  cases e with
  | createWrites now req =>
    rcases List.mem_append.mp hg with hold | hnew
    · exact List.mem_append_left _ (h g hold)
    · cases List.mem_singleton.mp hnew
      exact List.mem_append_right _ (List.mem_singleton.mpr rfl)
  | deleteReads id =>
    by_cases hexists : (s.storage.groups.lookup id).isSome
    · rw [step_deleteReads_of_exists configGroups hexists] at hg ⊢
      rcases List.mem_append.mp hg with hold | hnew
      · exact h g hold
      · cases List.mem_singleton.mp hnew
    · rw [step_deleteReads_of_absent configGroups hexists] at hg ⊢
      exact h g hg
  | runs now task =>
    by_cases hmem : task ∈ s.tasks
    · rw [step_runs_of_mem configGroups hmem] at hg ⊢
      cases task with
      | add id => exact h g (List.mem_of_mem_erase hg)
      | remove id => exact h g (List.mem_of_mem_erase hg)
      | tombstone id =>
        rcases List.mem_append.mp hg with hold | hnew
        · exact h g (List.mem_of_mem_erase hold)
        · cases List.mem_singleton.mp hnew
    · rw [step_runs_of_not_mem configGroups hmem] at hg ⊢
      exact h g hg
  | mergeOne now desc => exact h g hg
  | mergeEnds => exact h g hg
  | restart now => cases hg

theorem createWrites_keeps_iff (now : String) (req : GroupCreateRequest) :
    Provenance configGroups (step configGroups s (.createWrites now req)) ↔
      KeepsRule configGroups s (.createWrites now req) := by
  have hleaving : ∀ g, Leaving (step configGroups s (.createWrites now req)) g ↔ Leaving s g := by
    intro g
    change g ∈ s.merging ∨ Task.remove g ∈ s.tasks ++ [.add req.groupId] ↔ _
    simp [Leaving]
  constructor
  · intro h hculture hshared
    refine (hleaving _).mp ((h req.groupId hshared).2 ?_)
    exact deleted_writeGroup.mpr (by rw [if_pos rfl]; exact hculture)
  · intro h g hg
    obtain ⟨hfrom, hgone⟩ := hs.rule g hg
    refine ⟨hfrom.imp_left (List.mem_append_left _), fun hdeleted => (hleaving g).mpr ?_⟩
    rw [show Deleted (step configGroups s (.createWrites now req)).storage g ↔ _ from
      deleted_writeGroup] at hdeleted
    split_ifs at hdeleted with hid
    · subst hid
      exact h hdeleted hg
    · exact hgone hdeleted

theorem runs_keeps_iff (now : String) (task : Task) :
    Provenance configGroups (step configGroups s (.runs now task)) ↔
      KeepsRule configGroups s (.runs now task) := by
  by_cases hmem : task ∈ s.tasks
  · rw [step_runs_of_mem configGroups hmem]
    cases task with
    | add g =>
      rw [add_keeps_iff hs now g hmem]
      exact ⟨fun h _ => h, fun h => h hmem⟩
    | tombstone g => exact iff_of_true (tombstone_keeps hs now g) trivial
    | remove g => exact iff_of_true (remove_keeps hs now g) trivial
  · rw [step_runs_of_not_mem configGroups hmem]
    refine iff_of_true hs.rule ?_
    cases task with
    | add g => exact fun h => absurd h hmem
    | tombstone g => trivial
    | remove g => trivial

theorem mergeOne_keeps (now : String) (desc : GroupDescriptor) :
    Provenance configGroups (step configGroups s (.mergeOne now desc)) := by
  intro g hg
  obtain ⟨hfrom, hgone⟩ := hs.rule g hg
  refine ⟨hfrom, fun hdeleted => ?_⟩
  rcases deleted_mergeDescriptor hdeleted with hbefore | hreported
  · exact (hgone hbefore).imp_left (List.mem_append_left _)
  · exact .inl (List.mem_append_right _ hreported)

theorem mergeEnds_keeps : Provenance configGroups (step configGroups s .mergeEnds) := by
  intro g hg
  obtain ⟨hold, hnot⟩ := List.mem_filter.mp hg
  obtain ⟨hfrom, hgone⟩ := hs.rule g hold
  refine ⟨hfrom, fun hdeleted => .inr ((hgone hdeleted).resolve_left ?_)⟩
  simpa using hnot

omit hs [Ed25519] in
theorem restart_keeps_iff (now : String) :
    Provenance configGroups (restart configGroups s now) ↔
      ∀ row ∈ s.storage.groups.rows,
        (row.id ∈ s.created ∨ row.id ∈ configGroups) ∧ row.culture ≠ groupTombstoneCulture := by
  have hlookup := seedGroups_lookup now s.storage configGroups
  have hleaving : ∀ g, ¬ Leaving (restart configGroups s now) g := by
    intro g h
    rcases h with h | h <;> cases h
  constructor
  · intro h row hrow
    have hstored := s.storage.groups.lookup_key hrow
    have hseeded := (hlookup row.id).trans (by rw [hstored, Option.some_or])
    have hlisted : row.id ∈ (restart configGroups s now).sharedGroups :=
      mem_initialGroups.mpr (by rw [hseeded]; rfl)
    obtain ⟨hfrom, hgone⟩ := h row.id hlisted
    exact ⟨hfrom, fun hculture => hleaving row.id (hgone ⟨row, hseeded, hculture⟩)⟩
  · intro h g hg
    have hsome := mem_initialGroups.mp (show g ∈ initialGroups (seedGroups now s.storage configGroups)
      from hg)
    unfold Deleted
    change _ ∧ ((∃ row ∈ (seedGroups now s.storage configGroups).groups.lookup g, _) → _)
    rw [hlookup] at hsome ⊢
    cases hstored : s.storage.groups.lookup g with
    | some row =>
      have hid : row.id = g := Table.key_of_lookup hstored
      obtain ⟨hfrom, hculture⟩ := h row (Table.mem_of_lookup hstored)
      rw [hid] at hfrom
      refine ⟨hfrom, ?_⟩
      rintro ⟨_, ⟨⟩, hdeleted⟩
      exact absurd hdeleted hculture
    | none =>
      rw [hstored, Option.none_or] at hsome
      rw [Option.none_or]
      split_ifs at hsome ⊢ with hconfig
      · refine ⟨.inr hconfig, ?_⟩
        rintro ⟨_, ⟨⟩, hdeleted⟩
        exact absurd hdeleted (by decide : seededCulture ≠ groupTombstoneCulture)
      · cases hsome

theorem step_keeps_iff (e : Event) :
    Provenance configGroups (step configGroups s e) ↔ KeepsRule configGroups s e := by
  cases e with
  | createWrites now req => exact createWrites_keeps_iff hs now req
  | runs now task => exact runs_keeps_iff hs now task
  | restart now => exact restart_keeps_iff now
  | mergeOne now desc => exact iff_of_true (mergeOne_keeps hs now desc) trivial
  | mergeEnds => exact iff_of_true (mergeEnds_keeps hs) trivial
  | deleteReads g =>
    refine iff_of_true ?_ trivial
    by_cases hexists : (s.storage.groups.lookup g).isSome
    · rw [step_deleteReads_of_exists configGroups hexists]
      intro k hk
      obtain ⟨hfrom, hgone⟩ := hs.rule k hk
      exact ⟨hfrom, fun hdeleted => (hgone hdeleted).imp_right (List.mem_append_left _)⟩
    · rw [step_deleteReads_of_absent configGroups hexists]
      exact hs.rule

end Steps

section Runs
variable [Sha256] [Ed25519] (configGroups : List String)

omit [Ed25519] in
theorem start_inv (now : String) : Inv configGroups (start configGroups now) := by
  refine ⟨(restart_keeps_iff now).mpr ?_, fun g hg => by cases hg⟩
  intro row hrow
  cases hrow

theorem step_inv {s : Registry} (hs : Inv configGroups s) {e : Event}
    (hrule : Provenance configGroups (step configGroups s e)) :
    Inv configGroups (step configGroups s e) :=
  ⟨hrule, adds_step hs.adds e⟩

/-- In every run from the first start, the rule holds after every step just when no
    step breaks it: no create with the tombstone culture over a listed group, no late
    list update of a create for a deleted group, and no restart on a table with a
    deleted group or one that only peers know. A state with nothing in progress then
    lists no deleted group. -/
theorem provenance_along_iff (now : String) (events : List Event) :
    (Along (step configGroups) (fun s e => Provenance configGroups (step configGroups s e))
        (start configGroups now) events ↔
      Along (step configGroups) (KeepsRule configGroups) (start configGroups now) events) ∧
    (Along (step configGroups) (KeepsRule configGroups) (start configGroups now) events →
      let final := run (step configGroups) (start configGroups now) events
      final.tasks = [] → final.merging = [] → ∀ g ∈ final.sharedGroups,
        (g ∈ final.created ∨ g ∈ configGroups) ∧ ¬ Deleted final.storage g) := by
  constructor
  · exact along_congr (I := Inv configGroups) (fun s e hs hrule => step_inv configGroups hs hrule)
      (fun s e hs => step_keeps_iff hs e) (start_inv configGroups now)
  · intro h final htasks hmerging g hg
    have hfinal : Inv configGroups final :=
      invariant_run (I := Inv configGroups)
        (fun s e hs hkeep => step_inv configGroups hs ((step_keeps_iff hs e).mpr hkeep))
        (start_inv configGroups now) h
    exact ⟨(hfinal.rule g hg).1, hfinal.rule.not_deleted htasks hmerging g hg⟩

end Runs

section Example

def deletedThenRestarted : List Event :=
  [.createWrites "2026-02-01 00:00:00" ⟨"seed-drill", "Seed Drill", "chatty", "{}"⟩,
    .runs "2026-02-01 00:00:00" (.add "seed-drill"), .deleteReads "seed-drill",
    .runs "2026-02-02 00:00:00" (.tombstone "seed-drill"),
    .runs "2026-02-02 00:00:00" (.remove "seed-drill"), .restart "2026-02-03 00:00:00"]

def peersDescriptor [Sha256] : GroupDescriptor where
  id := "elsewhere"
  culture := "chatty"
  updatedAt := "2026-02-01 00:00:00"
  checksum := GroupDescriptor.computeChecksum "elsewhere" "chatty"
  ownerId := none
  ownerPubkey := none
  signature := none

def mergedThenRestarted [Sha256] : List Event :=
  [.mergeOne "2026-02-02 00:00:00" peersDescriptor, .mergeEnds, .restart "2026-02-03 00:00:00"]

theorem peersDescriptor_merges [Sha256] [Ed25519] : Merges peersDescriptor none :=
  ⟨⟨beq_self_eq_true _, .inl (by decide : "chatty".utf8ByteSize ≤ 4096), rfl⟩, by simp⟩

/-- The deleted group and the peer's group are both on the list after the restart. -/
theorem restart_lists_deleted_and_foreign_groups :
    ¬ ∃ (_ : Sha256) (_ : Ed25519),
      Along (step []) (fun s e => Provenance [] (step [] s e)) (start [] "2026-01-31 00:00:00")
          deletedThenRestarted ∨
        Along (step []) (fun s e => Provenance [] (step [] s e)) (start [] "2026-01-31 00:00:00")
          mergedThenRestarted := by
  rintro ⟨_, _, hdeleted | hmerged⟩
  · have hrows := (restart_keeps_iff _).mp hdeleted.2.2.2.2.2.1
    have hgone : Deleted (run (step []) (start [] "2026-01-31 00:00:00")
        (deletedThenRestarted.take 5)).storage "seed-drill" :=
      deleted_tombstone (run (step []) (start [] "2026-01-31 00:00:00")
        (deletedThenRestarted.take 3)) "2026-02-02 00:00:00" "seed-drill"
    obtain ⟨row, hrow, hculture⟩ := hgone
    exact (hrows row (Table.mem_of_lookup hrow)).2 hculture
  · have hrows := (restart_keeps_iff _).mp hmerged.2.2.1
    have hrow : (mergeDescriptor (start [] "2026-01-31 00:00:00").storage "2026-02-02 00:00:00"
        peersDescriptor).2.groups.lookup "elsewhere" =
          some (mergedRow none "2026-02-02 00:00:00" peersDescriptor) := by
      rw [mergeDescriptor_lookup]
      exact if_pos ⟨rfl, peersDescriptor_merges⟩
    have hid : (mergedRow none "2026-02-02 00:00:00" peersDescriptor).id = "elsewhere" :=
      Table.key_of_lookup hrow
    obtain ⟨hfrom, _⟩ := hrows _ (Table.mem_of_lookup hrow)
    rcases hfrom with hfrom | hfrom <;> cases hfrom

end Example
end CordeliaCore.GroupProvenance
