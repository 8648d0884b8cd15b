import CordeliaCore.EventLogs
import CordeliaCore.LoopEffect

set_option autoImplicit false

namespace CordeliaCore.ReplicationLoop
open CryptoPrimitives ProtocolMessages StorageRows Replication ReplicationEngine Api
open StorageSqlite StepRuns EventLogs

/-- A cycle on the schedule, with the cursor it asks from, or a start from scratch. -/
inductive SyncRound where
  | cycle (instant interval : ℕ) (since : Option String)
  | bootstrap
deriving DecidableEq

/-- What follows from a group's rounds: the time of its next one, and the cycles since
    it last started over. -/
structure Standing where
  deadline : Option ℕ
  streak : ℕ
deriving DecidableEq

def Standing.after (standing : Standing) : SyncRound → Standing
  | .cycle instant interval _ => ⟨some (instant + interval), standing.streak + 1⟩
  | .bootstrap => ⟨none, 0⟩

/-- A cycle waits for its deadline, and each tenth one has no cursor; the counter of
    cycles is a `u32`. -/
def Punctual (standing : Standing) : SyncRound → Prop
  | .cycle instant _ since => (∀ deadline ∈ standing.deadline, deadline ≤ instant) ∧
      ((standing.streak + 1) % 2 ^ 32 % fullSyncEvery = 0 → since = none)
  | .bootstrap => True

/-- The last round is a cycle that is not over at this time, or of this very time. -/
def Fresh (now : ℕ) (rounds : List SyncRound) : Prop :=
  ∃ instant interval since, rounds.getLast? = some (.cycle instant interval since) ∧
    (instant = now ∨ now < instant + interval)

section Rounds
variable {σ : Type} [Storage σ] [Sha256] [CultureJson] (config : LoopConfig) (env : Surroundings)

def intervalOf (storage : σ) (groupId : String) : ℕ :=
  fromSecs (config.engine.syncInterval ((loadGroupCulture storage groupId).getD .default))

def cycleRound (s : LoopState σ) (groupId : String) : SyncRound :=
  .cycle env.instant (intervalOf config s.storage groupId)
    (if ((s.syncCycleCount groupId).getD 0 + 1) % 2 ^ 32 % fullSyncEvery = 0 then none
      else s.lastSyncAt groupId)

def isDue (s : LoopState σ) (groupId : String) : Bool :=
  !(s.nextSyncAt groupId).any (fun deadline => env.instant < deadline)

def groupRounds (groupId : String) (s : LoopState σ) (other : String) : List SyncRound :=
  if other = groupId ∧ isDue env s groupId = true then [cycleRound config env s groupId] else []

inductive Happening (σ : Type) where
  | iteration (env : Surroundings) (event : LoopEvent)
  | elsewhere (storage : σ)

def rounds (groupId : String) (s : LoopState σ) : Happening σ → List SyncRound
  | .iteration env .syncBaseTick =>
    let groups := currentGroups config env s.storage
    collected (syncGroup config env groups) (groupRounds config env groupId) s groups
  | .iteration _ (.bootstrap other) => if other = groupId then [.bootstrap] else []
  | _ => []

def advance (s : LoopState σ) : Happening σ → LoopState σ
  | .iteration env event => (step config env s event).2
  | .elsewhere storage => { s with storage := storage }

end Rounds

def standingOf (rounds : List SyncRound) : Standing := run Standing.after ⟨none, 0⟩ rounds

structure OnSchedule {σ : Type} (groupId : String) (rounds : List SyncRound) (s : LoopState σ) :
    Prop where
  deadline : s.nextSyncAt groupId = (standingOf rounds).deadline
  count : (s.syncCycleCount groupId).getD 0 = (standingOf rounds).streak % 2 ^ 32
  punctual : Along Standing.after Punctual ⟨none, 0⟩ rounds

section Steps
variable {σ : Type} [Storage σ] [Sha256] [CultureJson] {config : LoopConfig} {env : Surroundings}
  {groupId : String} {log : List SyncRound} {s : LoopState σ}

omit [Storage σ] [Sha256] [CultureJson] in
theorem OnSchedule.congr (h : OnSchedule groupId log s) {t : LoopState σ}
    (hnext : t.nextSyncAt groupId = s.nextSyncAt groupId)
    (hcount : t.syncCycleCount groupId = s.syncCycleCount groupId) : OnSchedule groupId log t :=
  ⟨hnext.trans h.deadline, hcount ▸ h.count, h.punctual⟩

omit [CultureJson] in
theorem syncFrom_schedule (config : LoopConfig) (env : Surroundings) (s : LoopState σ)
    (groups : List String) (other : String) (since : Option String) :
    (syncFrom config env s groups other since).nextSyncAt = s.nextSyncAt ∧
      (syncFrom config env s groups other since).syncCycleCount = s.syncCycleCount := by
  unfold syncFrom
  split <;> exact ⟨rfl, rfl⟩

theorem cycleGroup_schedule (config : LoopConfig) (env : Surroundings) (groups : List String)
    (other : String) (s : LoopState σ) :
    (cycleGroup config env groups other s).nextSyncAt = Function.update s.nextSyncAt other
        (some (env.instant + intervalOf config s.storage other)) ∧
      (cycleGroup config env groups other s).syncCycleCount = Function.update s.syncCycleCount other
        (some (((s.syncCycleCount other).getD 0 + 1) % 2 ^ 32)) :=
  syncFrom_schedule config env _ groups other _

theorem receiveWrite_schedule (config : LoopConfig) (env : Surroundings) (s : LoopState σ)
    (notif : WriteNotification) :
    (receiveWrite config env s notif).nextSyncAt = s.nextSyncAt ∧
      (receiveWrite config env s notif).syncCycleCount = s.syncCycleCount := by
  unfold receiveWrite
  split
  · exact ⟨rfl, rfl⟩
  · dsimp only
    split <;> exact ⟨rfl, rfl⟩

omit [Storage σ] [Sha256] [CultureJson] in
theorem standingOf_append (past : List SyncRound) (round : SyncRound) :
    standingOf (past ++ [round]) = (standingOf past).after round := by
  unfold standingOf
  rw [run_append]
  rfl

omit [Storage σ] [Sha256] [CultureJson] in
theorem deadline_standingOf {past : List SyncRound} {d : ℕ}
    (h : (standingOf past).deadline = some d) :
    ∃ instant interval since, past.getLast? = some (.cycle instant interval since) ∧
      instant + interval = d := by
  rcases List.eq_nil_or_concat past with rfl | ⟨past, round, rfl⟩
  · cases h
  · rw [List.concat_eq_append] at h ⊢
    rw [standingOf_append] at h
    cases round with
    | cycle instant interval since =>
      exact ⟨instant, interval, since, List.getLast?_concat, Option.some.inj h⟩
    | bootstrap => cases h

omit [Storage σ] [Sha256] [CultureJson] in
theorem isDue_iff : isDue env s groupId = true ↔
    ∀ deadline ∈ s.nextSyncAt groupId, deadline ≤ env.instant := by
  unfold isDue
  cases s.nextSyncAt groupId <;> simp

theorem OnSchedule.cycle (h : OnSchedule groupId log s) (hdue : isDue env s groupId = true)
    (groups : List String) :
    OnSchedule groupId (log ++ [cycleRound config env s groupId])
      (cycleGroup config env groups groupId s) := by
  obtain ⟨hnext, hcount⟩ := cycleGroup_schedule config env groups groupId s
  refine ⟨?_, ?_, ?_⟩
  · rw [hnext, Function.update_self, standingOf_append]
    rfl
  · rw [hcount, Function.update_self, standingOf_append, Option.getD_some, h.count]
    exact Nat.mod_add_mod _ _ _
  · rw [along_append]
    refine ⟨h.punctual, ⟨?_, ?_⟩, trivial⟩
    · intro deadline hdeadline
      exact isDue_iff.mp hdue deadline (h.deadline ▸ hdeadline)
    · intro htenth
      refine if_pos ?_
      rw [h.count, Nat.mod_add_mod]
      exact htenth

theorem OnSchedule.group (h : OnSchedule groupId log s) (groups : List String) (other : String) :
    OnSchedule groupId (log ++ groupRounds config env groupId s other)
      (syncGroup config env groups s other) := by
  unfold groupRounds syncGroup
  by_cases hother : other = groupId
  · subst hother
    by_cases hdue : isDue env s other = true
    · have hlate := (Bool.not_eq_true' _).mp hdue
      rw [if_pos ⟨rfl, hdue⟩, if_neg (Bool.eq_false_iff.mp hlate)]
      exact h.cycle hdue groups
    · have hearly : (s.nextSyncAt other).any (fun deadline => env.instant < deadline) = true := by
        simpa [isDue] using hdue
      rw [if_neg (fun hboth => hdue hboth.2), if_pos hearly, List.append_nil]
      exact h
  · rw [if_neg (fun hboth => hother hboth.1), List.append_nil]
    split_ifs
    · exact h
    · obtain ⟨hnext, hcount⟩ := cycleGroup_schedule config env groups other s
      refine h.congr ?_ ?_
      · rw [hnext, Function.update_of_ne (Ne.symm hother)]
      · rw [hcount, Function.update_of_ne (Ne.symm hother)]

omit [CultureJson] in
theorem OnSchedule.bootstrapped (h : OnSchedule groupId log s) (other : String) :
    OnSchedule groupId (log ++ if other = groupId then [.bootstrap] else [])
      (bootstrapGroup config env s other) := by
  obtain ⟨hnext, hcount⟩ := syncFrom_schedule config env
    { s with
      nextSyncAt := Function.update s.nextSyncAt other none
      lastSyncAt := Function.update s.lastSyncAt other none
      syncCycleCount := Function.update s.syncCycleCount other none } env.sharedGroups other none
  by_cases hother : other = groupId
  · subst hother
    rw [if_pos rfl]
    refine ⟨?_, ?_, ?_⟩
    · rw [standingOf_append]
      exact (congrFun hnext other).trans (Function.update_self ..)
    · rw [standingOf_append, show (bootstrapGroup config env s other).syncCycleCount other = none from
        (congrFun hcount other).trans (Function.update_self ..)]
      rfl
    · exact (along_append _ _ _ _ _).mpr ⟨h.punctual, trivial, trivial⟩
  · rw [if_neg hother, List.append_nil]
    refine h.congr ?_ ?_
    · exact (congrFun hnext groupId).trans (Function.update_of_ne (Ne.symm hother) ..)
    · exact (congrFun hcount groupId).trans (Function.update_of_ne (Ne.symm hother) ..)

theorem OnSchedule.advanced (h : OnSchedule groupId log s) (happening : Happening σ) :
    OnSchedule groupId (log ++ rounds config groupId s happening) (advance config s happening) := by
  have hquiet : ∀ {t : LoopState σ}, t.nextSyncAt = s.nextSyncAt →
      t.syncCycleCount = s.syncCycleCount → OnSchedule groupId (log ++ []) t := by
    intro t hnext hcount
    rw [List.append_nil]
    exact h.congr (congrFun hnext groupId) (congrFun hcount groupId)
  cases happening with
  | elsewhere storage => exact hquiet rfl rfl
  | iteration env event =>
    cases event with
    | syncBaseTick =>
      exact invariant_collected (I := OnSchedule groupId)
        (fun _ _ other hlog => hlog.group (currentGroups config env s.storage) other) h _
    | bootstrap other => exact h.bootstrapped other
    | write notif =>
      obtain ⟨hnext, hcount⟩ := receiveWrite_schedule config env s notif
      exact hquiet hnext hcount
    | _ => exact hquiet rfl rfl

omit [Sha256] in
/-- A group that is current is fresh after its turn. -/
theorem OnSchedule.fresh_group (h : OnSchedule groupId log s) :
    Fresh env.instant (log ++ groupRounds config env groupId s groupId) := by
  unfold groupRounds
  by_cases hdue : isDue env s groupId = true
  · rw [if_pos ⟨rfl, hdue⟩]
    exact ⟨env.instant, _, _, List.getLast?_concat, .inl rfl⟩
  · rw [if_neg (fun hboth => hdue hboth.2), List.append_nil]
    cases hnext : s.nextSyncAt groupId with
    | none => exact absurd (isDue_iff.mpr (by simp [hnext])) hdue
    | some d =>
      have hearly : env.instant < d := by simpa [isDue, hnext] using hdue
      obtain ⟨instant, interval, since, hlast, hd⟩ :=
        deadline_standingOf (h.deadline.symm.trans hnext)
      exact ⟨instant, interval, since, hlast, .inr (hd ▸ hearly)⟩

omit [Sha256] in
theorem Fresh.group (h : Fresh env.instant log) (other : String) :
    Fresh env.instant (log ++ groupRounds config env groupId s other) := by
  unfold groupRounds
  split_ifs
  · exact ⟨env.instant, _, _, List.getLast?_concat, .inl rfl⟩
  · rwa [List.append_nil]

theorem OnSchedule.fresh_tick (h : OnSchedule groupId log s) (groups : List String)
    {pending : List String} (hmem : groupId ∈ pending) :
    Fresh env.instant (log ++ collected (syncGroup config env groups)
      (groupRounds config env groupId) s pending) := by
  induction pending generalizing log s with
  | nil => cases hmem
  | cons other pending ih =>
    rw [collected_cons, ← List.append_assoc]
    by_cases hother : other = groupId
    · subst hother
      exact invariant_collected (I := fun log _ => Fresh env.instant log)
        (fun _ _ next hlog => hlog.group next) h.fresh_group pending
    · exact ih (h.group groups other) ((List.mem_cons.mp hmem).resolve_left (Ne.symm hother))

end Steps

section Runs
variable {σ : Type} [Storage σ] [Sha256] [CultureJson] (config : LoopConfig)

end Runs

section Example

def clockedAt (instant : ℕ) : Surroundings :=
  { quietSurroundings with instant := instant }

end Example
end CordeliaCore.ReplicationLoop
