import CordeliaCore.LoopEffect

set_option autoImplicit false

namespace CordeliaCore.RetryQueue
open CryptoPrimitives ProtocolMessages StorageRows Replication ReplicationEngine Api ReplicationLoop
open StepRuns

section Slots

/-- Between the slots `k` and `k + 1` lies at least the gap `k`. -/
def Spaced (gap : ℕ → ℕ) (slots : List ℕ) : Prop :=
  ∀ k t u, slots[k]? = some t → slots[k + 1]? = some u → t + gap k ≤ u

variable {gap : ℕ → ℕ}

theorem spaced_singleton (t : ℕ) : Spaced gap [t] := by
  intro k _ _ _ hnext
  simp at hnext

theorem Spaced.snoc {slots : List ℕ} (h : Spaced gap slots) {k t u : ℕ}
    (hlength : slots.length = k + 1) (hlast : slots[k]? = some t) (hgap : t + gap k ≤ u) :
    Spaced gap (slots ++ [u]) := by
  intro i a b ha hb
  have hi : i + 1 < slots.length + 1 := by
    have := (List.getElem?_eq_some_iff.mp hb).1
    simpa using this
  rw [List.getElem?_append_left (by omega)] at ha
  by_cases hold : i + 1 < slots.length
  · rw [List.getElem?_append_left hold] at hb
    exact h i a b ha hb
  · have hik : i = k := by omega
    subst hik
    rw [List.getElem?_append_right (by omega), hlength, Nat.sub_self] at hb
    simp only [List.getElem?_cons_zero, Option.some.injEq] at hb
    rw [hlast, Option.some.injEq] at ha
    omega

end Slots

section Entries

/-- A pending push with the instants of its slots so far: its flush and the retries that
    found it due. -/
structure Entry where
  push : PendingPush
  slots : List ℕ

def Entry.slotsAfter (env : Surroundings) (e : Entry) : List ℕ :=
  if env.instant < e.push.nextAt then e.slots else e.slots ++ [env.instant]

def Entry.kept (env : Surroundings) (e : Entry) : Option Entry :=
  (retryPush env e.push).2.map (fun push => ⟨push, e.slotsAfter env⟩)

def Entry.dropped (env : Surroundings) (e : Entry) : Option Entry :=
  if (retryPush env e.push).2 = none then some ⟨e.push, e.slotsAfter env⟩ else none

def heldItems (entries : List Entry) : List FetchedItem := entries.flatMap (fun e => e.push.items)

theorem Entry.retry_cases (env : Surroundings) (e : Entry) :
    (e.kept env = some e ∧ e.dropped env = none) ∨
    (e.push.nextAt ≤ env.instant ∧ e.push.attempt + 1 < era0.pushRetryCount ∧
      e.kept env = some ⟨{ e.push with
        attempt := e.push.attempt + 1
        nextAt := env.instant + retryBackoff (e.push.attempt + 1) }, e.slots ++ [env.instant]⟩ ∧
      e.dropped env = none) ∨
    (e.push.nextAt ≤ env.instant ∧ era0.pushRetryCount ≤ e.push.attempt + 1 ∧
      e.kept env = none ∧ e.dropped env = some ⟨e.push, e.slots ++ [env.instant]⟩) := by
  unfold Entry.kept Entry.dropped Entry.slotsAfter retryPush
  by_cases hearly : env.instant < e.push.nextAt
  · simp [hearly]
  · by_cases hlast : e.push.attempt + 1 ≥ era0.pushRetryCount
    · simp [hearly, hlast, not_lt.mp hearly]
    · simp [hearly, hlast, not_lt.mp hearly, not_le.mp hlast]

/-- One slot for the flush and one for each attempt, and the next one after its backoff. -/
structure Entry.Paced (e : Entry) : Prop where
  inBounds : e.push.attempt < era0.pushRetryCount
  length : e.slots.length = e.push.attempt + 1
  spaced : Spaced retryBackoff e.slots
  next : ∃ t, e.slots[e.push.attempt]? = some t ∧
    e.push.nextAt = t + retryBackoff e.push.attempt

/-- One slot for the flush and one for each of the retries. -/
structure Entry.Exhausted (e : Entry) : Prop where
  length : e.slots.length = era0.pushRetryCount + 1
  spaced : Spaced retryBackoff e.slots

theorem Entry.Paced.due {env : Surroundings} {e : Entry} (h : e.Paced)
    (hdue : e.push.nextAt ≤ env.instant) : Spaced retryBackoff (e.slots ++ [env.instant]) := by
  obtain ⟨t, hlast, hnext⟩ := h.next
  exact h.spaced.snoc h.length hlast (by omega)

theorem Entry.Paced.kept {env : Surroundings} {e e' : Entry} (h : e.Paced)
    (hkept : e.kept env = some e') : e'.Paced := by
  rcases e.retry_cases env with ⟨hsame, -⟩ | ⟨hdue, hmore, hnext, -⟩ | ⟨-, -, hnone, -⟩
  · rw [hkept, Option.some.injEq] at hsame
    exact hsame ▸ h
  · rw [hkept, Option.some.injEq] at hnext
    subst hnext
    have hlength := h.length
    exact ⟨hmore, by simp [hlength], h.due hdue, env.instant, by simp [← hlength], rfl⟩
  · rw [hkept] at hnone
    cases hnone

theorem Entry.Paced.dropped {env : Surroundings} {e e' : Entry} (h : e.Paced)
    (hdropped : e.dropped env = some e') : e'.Exhausted := by
  have hlength := h.length
  have hbounds := h.inBounds
  rcases e.retry_cases env with ⟨-, hnone⟩ | ⟨-, -, -, hnone⟩ | ⟨hdue, hlast, -, hsome⟩
  · rw [hdropped] at hnone
    cases hnone
  · rw [hdropped] at hnone
    cases hnone
  · rw [hdropped, Option.some.injEq] at hsome
    subst hsome
    exact ⟨by simp only [List.length_append, List.length_singleton]; omega, h.due hdue⟩

theorem kept_pushes (env : Surroundings) (entries : List Entry) :
    (entries.filterMap (Entry.kept env)).map Entry.push =
      (entries.map Entry.push).filterMap (fun push => (retryPush env push).2) := by
  rw [List.map_filterMap, List.filterMap_map]
  apply List.filterMap_congr
  intro e _
  simp [Entry.kept, Option.map_map, Function.comp_def]

/-- A retry tick moves every item to the queue it leaves or to what it gives up. -/
theorem count_heldItems (env : Surroundings) (entries : List Entry) (item : FetchedItem) :
    (heldItems entries).count item = (heldItems (entries.filterMap (Entry.kept env))).count item +
      (heldItems (entries.filterMap (Entry.dropped env))).count item := by
  induction entries with
  | nil => rfl
  | cons e entries ih =>
    rcases e.retry_cases env with ⟨hkept, hdropped⟩ | ⟨-, -, hkept, hdropped⟩ |
      ⟨-, -, hkept, hdropped⟩
    all_goals
      simp only [heldItems, List.filterMap_cons, hkept, hdropped, List.flatMap_cons,
        List.count_append] at ih ⊢
      omega

end Entries

section Buffer
variable {buffer : List (String × List FetchedItem)} {groupId : String} {item : FetchedItem}

theorem pushBuffered_keys : (pushBuffered buffer groupId item).map Prod.fst =
    if groupId ∈ buffer.map Prod.fst then buffer.map Prod.fst
    else buffer.map Prod.fst ++ [groupId] := by
  have hany : buffer.any (fun entry => entry.1 = groupId) = true ↔ groupId ∈ buffer.map Prod.fst := by
    simp
  unfold pushBuffered
  by_cases hmem : groupId ∈ buffer.map Prod.fst
  · rw [if_pos (hany.mpr hmem), if_pos hmem, List.map_map]
    apply List.map_congr_left
    intro entry _
    dsimp only [Function.comp]
    split_ifs <;> rfl
  · rw [if_neg (mt hany.mp hmem), if_neg hmem, List.map_append]
    rfl

theorem nodup_pushBuffered (hkeys : (buffer.map Prod.fst).Nodup) :
    ((pushBuffered buffer groupId item).map Prod.fst).Nodup := by
  rw [pushBuffered_keys]
  split_ifs with hmem
  · exact hkeys
  · exact hkeys.append (List.nodup_singleton groupId) (by simpa using hmem)

variable (groupId item)

theorem count_pushBuffered (hkeys : (buffer.map Prod.fst).Nodup) (x : FetchedItem) :
    ((pushBuffered buffer groupId item).flatMap Prod.snd).count x =
      (buffer.flatMap Prod.snd).count x + [item].count x := by
  unfold pushBuffered
  split_ifs with hany
  · induction buffer with
    | nil => simp at hany
    | cons entry buffer ih =>
      obtain ⟨hfresh, hkeys⟩ := List.nodup_cons.mp hkeys
      by_cases hgroup : entry.1 = groupId
      · have hrest : buffer.map (fun entry => if entry.1 = groupId then
            (entry.1, entry.2 ++ [item]) else entry) = buffer := by
          conv_rhs => rw [← List.map_id buffer]
          apply List.map_congr_left
          intro other hother
          have hne : other.1 ≠ groupId := by
            intro hsame
            exact hfresh (hgroup.trans hsame.symm ▸ List.mem_map_of_mem hother)
          simp [hne]
        simp only [List.map_cons, hgroup, if_true, hrest, List.flatMap_cons, List.count_append]
        omega
      · have htail : buffer.any (fun entry => entry.1 = groupId) = true := by
          simpa [hgroup] using hany
        simp only [List.map_cons, hgroup, if_false, List.flatMap_cons, List.count_append,
          ih hkeys htail]
        omega
  · simp

theorem flush_pending (env : Surroundings) (buffer : List (String × List FetchedItem)) :
    (buffer.filterMap (fun entry => (flushEntry env entry).2)).flatMap PendingPush.items =
      buffer.flatMap Prod.snd := by
  induction buffer with
  | nil => rfl
  | cons entry buffer ih =>
    by_cases hempty : entry.2 = []
    · simp [flushEntry, hempty] at ih ⊢
      exact ih
    · simp [flushEntry, hempty] at ih ⊢
      exact ih

end Buffer

section Ledger
variable {σ : Type} [Storage σ] [Sha256] [CultureJson] (config : LoopConfig)

structure Ledger (σ : Type) where
  loop : LoopState σ
  accepted : List FetchedItem
  entries : List Entry
  exhausted : List Entry

def Ledger.start {σ : Type} (storage : σ) : Ledger σ := ⟨.start storage, [], [], []⟩

def accepts (env : Surroundings) (s : LoopState σ) : LoopEvent → List FetchedItem
  | .write notif =>
    match notif.groupId with
    | none => []
    | some groupId =>
      match onLocalWrite config.engine env.utcNow groupId
          ((loadGroupCulture s.storage groupId).getD .default) notif.itemId notif.itemType
          notif.data notif.keyVersion notif.parentId notif.isCopy with
      | .broadcastItem _ item => [item]
      | .none => []
  | _ => []

def opened (env : Surroundings) (s : LoopState σ) : List Entry :=
  (s.writeBuffer.filterMap (fun entry => (flushEntry env entry).2)).map
    (fun push => ⟨push, [env.instant]⟩)

def record (l : Ledger σ) (tick : Tick) : Ledger σ where
  loop := (step config tick.1 l.loop tick.2).2
  accepted := l.accepted ++ accepts config tick.1 l.loop tick.2
  entries := match tick.2 with
    | .flushTick => l.entries ++ opened tick.1 l.loop
    | .retryTick => l.entries.filterMap (Entry.kept tick.1)
    | _ => l.entries
  exhausted := match tick.2 with
    | .retryTick => l.exhausted ++ l.entries.filterMap (Entry.dropped tick.1)
    | _ => l.exhausted

structure Sound (l : Ledger σ) : Prop where
  keys : (l.loop.writeBuffer.map Prod.fst).Nodup
  entries : l.entries.map Entry.push = l.loop.pendingPushes
  conserved : ∀ item, l.accepted.count item = (bufferedItems l.loop).count item +
    (pendingItems l.loop).count item + (heldItems l.exhausted).count item
  paced : ∀ e ∈ l.entries, e.Paced
  exhausted : ∀ e ∈ l.exhausted, e.Exhausted

variable {config} {l : Ledger σ}

omit [Storage σ] [Sha256] [CultureJson] in
theorem Sound.pendingItems_eq (h : Sound l) : pendingItems l.loop = heldItems l.entries := by
  rw [pendingItems, ← h.entries, List.flatMap_map]
  rfl

theorem receiveWrite_cases (config : LoopConfig) (env : Surroundings) (s : LoopState σ) (notif : WriteNotification) :
    (accepts config env s (.write notif) = [] ∧ receiveWrite config env s notif = s) ∨
    ∃ groupId item, accepts config env s (.write notif) = [item] ∧
      receiveWrite config env s notif =
        { s with writeBuffer := pushBuffered s.writeBuffer groupId item } := by
  unfold accepts receiveWrite
  cases hgroup : notif.groupId with
  | none => simp [hgroup]
  | some groupId =>
    cases haction : onLocalWrite config.engine env.utcNow groupId
      ((loadGroupCulture s.storage groupId).getD .default) notif.itemId notif.itemType
      notif.data notif.keyVersion notif.parentId notif.isCopy with
    | broadcastItem target item =>
      right
      exact ⟨target, item, by simp [hgroup, haction], by simp [haction]⟩
    | none => simp [hgroup, haction]

theorem Sound.write (h : Sound l) (env : Surroundings) (notif : WriteNotification) :
    Sound (record config l (env, .write notif)) := by
  rcases receiveWrite_cases config env l.loop notif with
    ⟨haccepts, hsame⟩ | ⟨groupId, item, haccepts, hpush⟩
  · have hrecord : record config l (env, .write notif) = l := by
      unfold record step
      simp only [haccepts, hsame, List.append_nil]
    rw [hrecord]
    exact h
  · have hrecord : record config l (env, .write notif) =
        { l with
          loop := { l.loop with writeBuffer := pushBuffered l.loop.writeBuffer groupId item }
          accepted := l.accepted ++ [item] } := by
      unfold record step
      simp only [haccepts, hpush]
    rw [hrecord]
    refine ⟨nodup_pushBuffered h.keys, h.entries, fun x => ?_, h.paced, h.exhausted⟩
    have hconserved := h.conserved x
    have hcount := count_pushBuffered groupId item h.keys x
    simp only [bufferedItems, pendingItems, List.count_append] at hconserved hcount ⊢
    omega

theorem record_flush (l : Ledger σ) (env : Surroundings) :
    record config l (env, .flushTick) =
      { l with
        loop := { l.loop with
          writeBuffer := []
          pendingPushes := l.loop.pendingPushes ++
            l.loop.writeBuffer.filterMap (fun entry => (flushEntry env entry).2) }
        entries := l.entries ++ opened env l.loop } := by
  unfold record step flush accepts
  simp only [List.append_nil, List.filterMap_map]
  rfl

omit [Storage σ] [Sha256] [CultureJson] in
theorem opened_paced {env : Surroundings} {s : LoopState σ} {e : Entry} (h : e ∈ opened env s) :
    e.Paced := by
  simp only [opened, List.mem_map, List.mem_filterMap] at h
  obtain ⟨push, ⟨entry, -, hpush⟩, rfl⟩ := h
  unfold flushEntry at hpush
  split_ifs at hpush
  rw [Option.some.injEq] at hpush
  subst hpush
  exact ⟨Nat.succ_pos 3, rfl, spaced_singleton env.instant, env.instant, rfl, rfl⟩

theorem Sound.flush (h : Sound l) (env : Surroundings) :
    Sound (record config l (env, .flushTick)) := by
  rw [record_flush]
  refine ⟨List.nodup_nil, ?_, fun x => ?_, fun e he => ?_, h.exhausted⟩
  · simp only [List.map_append, h.entries, opened, List.map_map]
    congr 1
    exact List.map_id _
  · have hconserved := h.conserved x
    simp only [bufferedItems, pendingItems, List.flatMap_append, flush_pending, List.count_append,
      List.flatMap_nil, List.count_nil] at hconserved ⊢
    omega
  · rcases List.mem_append.mp he with hold | hnew
    · exact h.paced e hold
    · exact opened_paced hnew

theorem record_retry (l : Ledger σ) (env : Surroundings) :
    record config l (env, .retryTick) =
      { l with
        loop := { l.loop with
          pendingPushes := l.loop.pendingPushes.filterMap (fun push => (retryPush env push).2) }
        entries := l.entries.filterMap (Entry.kept env)
        exhausted := l.exhausted ++ l.entries.filterMap (Entry.dropped env) } := by
  unfold record step ReplicationLoop.retry accepts
  simp only [List.append_nil, List.filterMap_map]
  rfl

theorem Sound.retry (h : Sound l) (env : Surroundings) :
    Sound (record config l (env, .retryTick)) := by
  have hpushes := kept_pushes env l.entries
  rw [h.entries] at hpushes
  rw [record_retry]
  refine ⟨h.keys, hpushes, fun x => ?_, fun e he => ?_, fun e he => ?_⟩
  · have hconserved := h.conserved x
    have hmoved := count_heldItems env l.entries x
    rw [h.pendingItems_eq] at hconserved
    have hpending : pendingItems { l.loop with
        pendingPushes := l.loop.pendingPushes.filterMap (fun push => (retryPush env push).2) } =
          heldItems (l.entries.filterMap (Entry.kept env)) := by
      rw [pendingItems, ← hpushes, List.flatMap_map]
      rfl
    rw [hpending]
    simp only [heldItems, bufferedItems, List.flatMap_append, List.count_append] at hconserved hmoved ⊢
    omega
  · obtain ⟨old, hold, hkept⟩ := List.mem_filterMap.mp he
    exact (h.paced old hold).kept hkept
  · rcases List.mem_append.mp he with hbefore | hnew
    · exact h.exhausted e hbefore
    · obtain ⟨old, hold, hdropped⟩ := List.mem_filterMap.mp hnew
      exact (h.paced old hold).dropped hdropped

theorem Sound.other (h : Sound l) {tick : Tick}
    (hqueues : queues (step config tick.1 l.loop tick.2).2 = queues l.loop)
    (hrecord : record config l tick = { l with loop := (step config tick.1 l.loop tick.2).2 }) :
    Sound (record config l tick) := by
  rw [hrecord]
  injection hqueues with hbuffer hpending
  refine ⟨?_, ?_, fun x => ?_, h.paced, h.exhausted⟩
  · rw [hbuffer]
    exact h.keys
  · rw [hpending]
    exact h.entries
  · simp only [bufferedItems, pendingItems, hbuffer, hpending]
    exact h.conserved x

theorem Sound.record (h : Sound l) (tick : Tick) : Sound (record config l tick) := by
  obtain ⟨env, event⟩ := tick
  cases event with
  | write notif => exact h.write env notif
  | flushTick => exact h.flush env
  | retryTick => exact h.retry env
  | lagged missed => exact h.other rfl (by simp [RetryQueue.record, accepts])
  | syncBaseTick => exact h.other (syncAll_queues config env l.loop) (by simp [RetryQueue.record, accepts])
  | bootstrap groupId =>
    exact h.other (bootstrapGroup_queues config env l.loop groupId) (by simp [RetryQueue.record, accepts])
  | gcTick => exact h.other rfl (by simp [RetryQueue.record, accepts])

theorem sound_run (storage : σ) (ticks : List Tick) :
    Sound (run (record config) (.start storage) ticks) :=
  invariant_run (G := fun _ _ => True) (fun _ tick h _ => h.record tick)
    ⟨List.nodup_nil, rfl, fun _ => rfl, by simp [Ledger.start], by simp [Ledger.start]⟩
    (along_of_mem (fun _ _ _ => trivial) _)

/-- Over every run of the task: every accepted item is in the buffer, in one pending push
    or in one that was given up, and as often as it was accepted; every pending push finds
    its backoff in the table; and one is given up after its flush and all its retries, each
    due its backoff after the slot before. -/
theorem retry_queue_conserves (config : LoopConfig) (storage : σ) (ticks : List Tick) :
    let l := run (record config) (.start storage) ticks
    l.loop = ticks.foldl (fun s tick => (step config tick.1 s tick.2).2) (.start storage) ∧
    l.entries.map Entry.push = l.loop.pendingPushes ∧
    (∀ item, l.accepted.count item = (bufferedItems l.loop).count item +
      (pendingItems l.loop).count item + (heldItems l.exhausted).count item) ∧
    (∀ push ∈ l.loop.pendingPushes, push.attempt < era0.pushRetryCount ∧
      push.attempt < era0.pushRetryBackoffs.length) ∧
    ∀ e ∈ l.exhausted, e.slots.length = era0.pushRetryCount + 1 ∧
      ∀ k t u, e.slots[k]? = some t → e.slots[k + 1]? = some u →
        t + fromSecs (era0.pushRetryBackoffs.getD k 0) ≤ u := by
  intro l
  have hsound : Sound l := sound_run storage ticks
  refine ⟨?_, hsound.entries, hsound.conserved, fun push hpush => ?_, fun e he => ?_⟩
  · exact (List.foldl_hom Ledger.loop (fun _ _ => rfl)).symm
  · rw [← hsound.entries] at hpush
    obtain ⟨e, he, rfl⟩ := List.mem_map.mp hpush
    have hbounds := (hsound.paced e he).inBounds
    exact ⟨hbounds, hbounds⟩
  · exact ⟨(hsound.exhausted e he).length, (hsound.exhausted e he).spaced⟩

end Ledger
end CordeliaCore.RetryQueue
