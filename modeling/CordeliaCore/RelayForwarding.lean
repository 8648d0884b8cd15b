import CordeliaCore.PushEffect

set_option autoImplicit false

namespace CordeliaCore.RelayForwarding
open CryptoPrimitives ProtocolMessages StorageRows StorageSqlite KeyedTable
open Replication ReplicationEngine SqliteStorage Swarm

theorem forall_split_concat {α : Type} {P : List α → α → Prop} {items : List α} {last : α} :
    (∀ past item coming, items ++ [last] = past ++ item :: coming → P past item) ↔
      (∀ past item coming, items = past ++ item :: coming → P past item) ∧ P items last := by
  constructor
  · intro h
    refine ⟨fun past item coming hsplit => ?_, h items last [] rfl⟩
    exact h past item (coming ++ [last]) (by rw [hsplit, List.append_assoc, List.cons_append])
  · rintro ⟨hitems, hlast⟩ past item coming hsplit
    rcases List.eq_nil_or_concat' coming with rfl | ⟨front, final, rfl⟩
    · obtain ⟨rfl, hsame⟩ := List.append_inj' hsplit rfl
      cases hsame
      exact hlast
    · rw [← List.cons_append, ← List.append_assoc] at hsplit
      exact hitems past item front (List.append_inj' hsplit rfl).1

variable [Sha256]

/-- The item changes the store: a deletion of a row, or a write. -/
def Applies (ctx : PushContext) (db : SqliteStorage) (item : FetchedItem) : Prop :=
  Erases ctx.sharedGroups ctx.relayAccepts item ∧ (db.l2Items.lookup item.itemId).isSome ∨
    Writes ctx.sharedGroups ctx.relayAccepts item (db.l2Items.lookup item.itemId)

def storedItems (ctx : PushContext) (db : SqliteStorage) (now : String)
    (request : MemoryPushRequest) : List FetchedItem :=
  ((outcomes now ctx.sharedGroups ctx.relayAccepts db request.items).filter
    (fun x => x.2 = .stored)).map Prod.fst

/-- Every forwarded item was itself stored in the request it came with. -/
def ForwardsOnlyStored (ctx : PushContext) (db : SqliteStorage) (now peer : String)
    (request : MemoryPushRequest) : Prop :=
  ∀ sent ∈ (receivePush ctx db now peer request).forwarded,
    sent.2.items.Subperm (storedItems ctx db now request)

def lastUnder (id : String) (items : List FetchedItem) : Option FetchedItem :=
  items.reverse.find? (fun item => item.itemId = id)

/-- The item changes what the last item before it under its id leaves when stored, or
    else the row of the store. -/
def AppliesAfter (ctx : PushContext) (db : SqliteStorage) (past : List FetchedItem)
    (item : FetchedItem) : Prop :=
  match lastUnder item.itemId past with
  | none => Applies ctx db item
  | some prev =>
    Admitted ctx.sharedGroups ctx.relayAccepts item ∧
      (item.itemType = tombstoneType ∧ prev.itemType ≠ tombstoneType ∨
        WellFormed item ∧ (prev.itemType ≠ tombstoneType →
          prev.checksum ≠ item.checksum ∧ prev.updatedAt < item.updatedAt))

section Forwarding
variable (ctx : PushContext) (db : SqliteStorage) (now peer : String) (request : MemoryPushRequest)

theorem mem_forwarded {sent : String × MemoryPushRequest} :
    sent ∈ (receivePush ctx db now peer request).forwarded ↔
      ctx.relayPosture.isSome ∧ (∃ item ∈ request.items, Applies ctx db item) ∧
        sent.1 ∈ ctx.activePeers ∧ sent.1 ≠ peer ∧ sent.2 = ⟨request.items⟩ := by
  have hstored : 0 < (handlePushRequest db now request ctx.sharedGroups ctx.relayAccepts).1.stored ↔
      ∃ item ∈ request.items, Applies ctx db item := by
    rw [Nat.pos_iff_ne_zero, ne_eq, handlePush_stored_eq_zero]
    simp only [ne_eq, not_forall, not_not, exists_prop, onReceive_stored_iff]
    rfl
  obtain ⟨receiver, sentItems⟩ := sent
  unfold receivePush
  dsimp only
  split_ifs with hrelay <;> rw [gt_iff_lt, hstored] at hrelay
  · simp only [List.mem_map, List.mem_filter, decide_eq_true_eq, Prod.mk.injEq, hrelay, true_and]
    constructor
    · rintro ⟨p, ⟨hmem, hne⟩, rfl, rfl⟩
      exact ⟨hmem, hne, rfl⟩
    · rintro ⟨hmem, hne, rfl⟩
      exact ⟨receiver, ⟨hmem, hne⟩, rfl, rfl⟩
  · simp only [List.not_mem_nil, false_iff]
    exact fun h => hrelay ⟨h.1, h.2.1⟩

theorem applies_iff_stored {item : FetchedItem} :
    Applies ctx db item ↔
      (onReceive db now item ctx.sharedGroups ctx.relayAccepts).1 = .stored :=
  (onReceive_stored_iff db now item ctx.sharedGroups ctx.relayAccepts).symm

section Turns

omit [Sha256] in
theorem lastUnder_concat (id : String) (items : List FetchedItem) (item : FetchedItem) :
    lastUnder id (items ++ [item]) = if item.itemId = id then some item else lastUnder id items := by
  unfold lastUnder
  rw [List.reverse_append, List.reverse_singleton, List.singleton_append, List.find?_cons]
  split_ifs with h <;> simp [h]

def AllStored (items : List FetchedItem) : Prop :=
  ∀ past item coming, items = past ++ item :: coming →
    Applies ctx (receiveAll db now past ctx.sharedGroups ctx.relayAccepts) item

/-- Once all items were stored, a row is as the last item under its id left it. -/
theorem lookup_of_allStored {items : List FetchedItem} (h : AllStored ctx db now items)
    (id : String) :
    (lastUnder id items = none ∧
      (receiveAll db now items ctx.sharedGroups ctx.relayAccepts).l2Items.lookup id =
        db.l2Items.lookup id) ∨
    ∃ prev, lastUnder id items = some prev ∧
      (prev.itemType = tombstoneType ∧
        (receiveAll db now items ctx.sharedGroups ctx.relayAccepts).l2Items.lookup id = none ∨
      WellFormed prev ∧ ∃ existing,
        (receiveAll db now items ctx.sharedGroups ctx.relayAccepts).l2Items.lookup id =
          some (receivedRow existing now prev)) := by
  induction items using List.reverseRecOn with
  | nil => exact .inl ⟨rfl, rfl⟩
  | append_singleton items item ih =>
    obtain ⟨hitems, hlast⟩ := forall_split_concat.mp h
    have hone : receiveAll db now (items ++ [item]) ctx.sharedGroups ctx.relayAccepts =
        (onReceive (receiveAll db now items ctx.sharedGroups ctx.relayAccepts) now item
          ctx.sharedGroups ctx.relayAccepts).2 :=
      receiveAll_append now ctx.sharedGroups ctx.relayAccepts db items [item]
    rw [hone, lastUnder_concat, onReceive_lookup]
    by_cases hid : item.itemId = id
    · subst hid
      rw [if_pos rfl, if_pos rfl]
      refine .inr ⟨item, rfl, ?_⟩
      rcases hlast with ⟨herase, _⟩ | hwrites
      · exact .inl ⟨herase.2, if_pos herase⟩
      · refine .inr ⟨hwrites.2.1,
          (receiveAll db now items ctx.sharedGroups ctx.relayAccepts).l2Items.lookup item.itemId, ?_⟩
        rw [if_neg (fun he => hwrites.2.1.not_tombstone he.2), if_pos hwrites]
    · rw [if_neg hid, if_neg (fun h => hid h.symm)]
      exact ih hitems

theorem applies_iff_after {past : List FetchedItem} (h : AllStored ctx db now past)
    (item : FetchedItem) :
    Applies ctx (receiveAll db now past ctx.sharedGroups ctx.relayAccepts) item ↔
      AppliesAfter ctx db past item := by
  unfold AppliesAfter
  rcases lookup_of_allStored ctx db now h item.itemId with
    ⟨hnone, hrow⟩ | ⟨prev, hprev, ⟨htomb, hrow⟩ | ⟨hwell, existing, hrow⟩⟩
  · rw [hnone]
    unfold Applies
    rw [hrow]
  · -- after a tombstone any storable version goes in, and no tombstone counts
    rw [hprev]
    unfold Applies Erases Writes
    rw [hrow]
    simp [htomb]
  · have hsum : (receivedRow existing now prev).checksum = some prev.checksum :=
      congrArg some (beq_iff_eq.mp hwell.1)
    have hsupersedes : Supersedes item (receivedRow existing now prev) ↔
        prev.checksum ≠ item.checksum ∧ prev.updatedAt < item.updatedAt := by
      unfold Supersedes
      rw [hsum, ne_eq, Option.some.injEq]
      exact Iff.rfl
    rw [hprev]
    unfold Applies Erases Writes
    rw [hrow]
    simp only [Option.isSome_some, and_true, Option.mem_def, Option.some.injEq, forall_eq',
      hsupersedes, hwell.not_tombstone, ne_eq, not_false_eq_true, true_implies]
    rw [and_or_left]

theorem allStored_iff (items : List FetchedItem) :
    AllStored ctx db now items ↔
      ∀ past item coming, items = past ++ item :: coming → AppliesAfter ctx db past item := by
  induction items using List.reverseRecOn with
  | nil =>
    constructor <;> intro _ past item coming hsplit <;> simp at hsplit
  | append_singleton items item ih =>
    unfold AllStored at ih ⊢
    rw [forall_split_concat, forall_split_concat, ← ih]
    exact and_congr_right (fun hitems => applies_iff_after ctx db now hitems item)

theorem storedItems_subperm_iff :
    request.items.Subperm (storedItems ctx db now request) ↔
      AllStored ctx db now request.items := by
  have hitems := outcomes_items now ctx.sharedGroups ctx.relayAccepts db request.items
  have hall : AllStored ctx db now request.items ↔
      ∀ x ∈ outcomes now ctx.sharedGroups ctx.relayAccepts db request.items, x.2 = .stored := by
    constructor
    · rintro h ⟨item, outcome⟩ hx
      obtain ⟨past, coming, hsplit, rfl⟩ :=
        (mem_outcomes_iff now ctx.sharedGroups ctx.relayAccepts).mp hx
      exact (applies_iff_stored ctx _ now).mp (h past item coming hsplit)
    · intro h past item coming hsplit
      refine (applies_iff_stored ctx _ now).mpr (h (item, _) ?_)
      exact (mem_outcomes_iff now ctx.sharedGroups ctx.relayAccepts).mpr
        ⟨past, coming, hsplit, rfl⟩
  rw [hall]
  unfold storedItems
  constructor
  · intro h x hx
    -- as many items as came in are stored
    have hlength := h.length_le
    rw [List.length_map, ← hitems, List.length_map, hitems] at hlength
    have hkept := List.filter_sublist.eq_of_length_le hlength
    rw [← hkept] at hx
    exact of_decide_eq_true (List.mem_filter.mp hx).2
  · intro h
    rw [List.filter_eq_self.mpr (fun x hx => decide_eq_true (h x hx)), hitems]

end Turns

/-- A request is forwarded as it should be just when nothing is forwarded or each of its
    items is accepted and follows on the item before it under its id, or on the row. -/
theorem forwards_only_stored_iff :
    ForwardsOnlyStored ctx db now peer request ↔
      ctx.relayPosture = none ∨ (∀ p ∈ ctx.activePeers, p = peer) ∨
        (∀ item ∈ request.items, ¬ Applies ctx db item) ∨
        ∀ past item coming, request.items = past ++ item :: coming →
          AppliesAfter ctx db past item := by
  rw [← allStored_iff ctx db now, ← storedItems_subperm_iff]
  constructor
  · intro h
    by_contra hnot
    simp only [not_or, not_forall, not_not] at hnot
    obtain ⟨hrelay, ⟨p, hp, hne⟩, ⟨first, hfirst, happlies⟩, hall⟩ := hnot
    have hsent : (p, (⟨request.items⟩ : MemoryPushRequest)) ∈
        (receivePush ctx db now peer request).forwarded :=
      (mem_forwarded ctx db now peer request).mpr
        ⟨Option.isSome_iff_ne_none.mpr hrelay, ⟨first, hfirst, happlies⟩, hp, hne, rfl⟩
    exact hall (h _ hsent)
  · intro h sent hsent
    obtain ⟨hrelay, ⟨first, hfirst, happlies⟩, hp, hne, hitems⟩ :=
      (mem_forwarded ctx db now peer request).mp hsent
    rw [hitems]
    rcases h with hnone | halone | hidle | hall
    · rw [hnone] at hrelay
      cases hrelay
    · exact absurd (halone _ hp) hne
    · exact absurd happlies (hidle first hfirst)
    · exact hall

theorem not_applies_of_blocked {item : FetchedItem} (hrelay : ctx.relayPosture.isSome)
    (h : item.groupId ∈ ctx.relayBlockedGroups) : ¬ Applies ctx db item := by
  obtain ⟨posture, hposture⟩ := Option.isSome_iff_exists.mp hrelay
  have hrefused : groupAccepted ctx.sharedGroups ctx.relayAccepts item.groupId = false := by
    unfold PushContext.relayAccepts groupAccepted relayCheck
    rw [hposture]
    simp [h]
  rintro (⟨⟨⟨_, hgroup⟩, _⟩, _⟩ | ⟨⟨_, hgroup⟩, _⟩)
  · exact Bool.false_ne_true (hrefused.symm.trans hgroup)
  · exact Bool.false_ne_true (hrefused.symm.trans hgroup)

end Forwarding

def denyingRelay : PushContext where
  sharedGroups := []
  relayPosture := some .transparent
  relayAcceptedGroups := none
  lockHeld := false
  relayBlockedGroups := ["blacklisted"]
  activePeers := ["writer", "reader"]

def mixedBatch : MemoryPushRequest :=
  ⟨[noteVersion "a" "2026-02-01 00:00:00",
    { noteVersion "" "2026-02-01 00:00:00" with itemId := "note-2", groupId := "blacklisted" }]⟩

omit [Sha256] in
/-- The blocked note is refused and forwarded all the same. -/
theorem blocked_note_is_forwarded :
    ¬ ∃ _ : Sha256, ForwardsOnlyStored denyingRelay createNew "2026-02-02 00:00:00" "writer"
      mixedBatch := by
  rintro ⟨_, h⟩
  have hopen : Applies denyingRelay createNew (noteVersion "a" "2026-02-01 00:00:00") := by
    have hsize : (asBytes "a").length ≤ maxItemBytes := by decide
    have hgroup : groupAccepted denyingRelay.sharedGroups denyingRelay.relayAccepts "seed-drill" =
        true := by decide
    refine .inr ⟨⟨hsize, hgroup⟩, noteVersion_wellFormed _ _, ?_⟩
    intro e he
    cases he
  have hsent : ("reader", (⟨mixedBatch.items⟩ : MemoryPushRequest)) ∈
      (receivePush denyingRelay createNew "2026-02-02 00:00:00" "writer" mixedBatch).forwarded := by
    rw [mem_forwarded]
    have hpeer : "reader" ∈ denyingRelay.activePeers ∧ "reader" ≠ "writer" := by decide
    exact ⟨rfl, ⟨_, List.mem_cons_self, hopen⟩, hpeer.1, hpeer.2, rfl⟩
  have hsecret := (h _ hsent).subset (List.mem_cons_of_mem _ List.mem_cons_self)
  obtain ⟨⟨item, outcome⟩, hmem, rfl⟩ := List.mem_map.mp hsecret
  obtain ⟨houtcome, hstored⟩ := List.mem_filter.mp hmem
  obtain ⟨past, coming, _, rfl⟩ := (mem_outcomes_iff _ _ _).mp houtcome
  have happlies := (applies_iff_stored denyingRelay _ _).mpr (of_decide_eq_true hstored)
  have hblocked : "blacklisted" ∈ denyingRelay.relayBlockedGroups := by decide
  exact not_applies_of_blocked denyingRelay _ rfl hblocked happlies

end CordeliaCore.RelayForwarding
