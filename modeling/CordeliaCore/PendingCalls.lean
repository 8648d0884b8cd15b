import CordeliaCore.StepRuns

set_option autoImplicit false

namespace PendingCalls
open StepRuns

universe u v
variable {χ : Type u} {ρ : Type v}

structure Calls (χ : Type u) (ρ : Type v) where
  waiting : ℕ → Option χ
  /-- Who was told what, oldest first. -/
  told : List (χ × ρ)

inductive Action (χ : Type u) (ρ : Type v) where
  | place (id : ℕ) (who : χ)
  | conclude (id : ℕ) (outcome : ρ)

def Calls.start : Calls χ ρ := ⟨fun _ => none, []⟩

def Calls.place (c : Calls χ ρ) (id : ℕ) (who : χ) : Calls χ ρ :=
  { c with waiting := Function.update c.waiting id (some who) }

def Calls.conclude (c : Calls χ ρ) (id : ℕ) (outcome : ρ) : Calls χ ρ :=
  match c.waiting id with
  | some who =>
    { waiting := Function.update c.waiting id none
      told := c.told ++ [(who, outcome)] }
  | none => c

def act (c : Calls χ ρ) : Action χ ρ → Calls χ ρ
  | .place id who => c.place id who
  | .conclude id outcome => c.conclude id outcome

def firstOutcome (id : ℕ) : List (Action χ ρ) → Option ρ
  | [] => none
  | .place _ _ :: actions => firstOutcome id actions
  | .conclude j outcome :: actions => if j = id then some outcome else firstOutcome id actions

section Told
variable [DecidableEq χ] (c : Calls χ ρ) (who : χ)

def Calls.toldTo : List ρ := (c.told.filter (fun t => t.1 = who)).map Prod.snd

theorem toldTo_conclude (id : ℕ) (outcome : ρ) :
    (c.conclude id outcome).toldTo who =
      c.toldTo who ++ if c.waiting id = some who then [outcome] else [] := by
  unfold Calls.conclude
  split
  · rename_i other hother
    rw [hother]
    by_cases h : other = who
    · simp [Calls.toldTo, h]
    · simp [Calls.toldTo, h]
  · rename_i hnone
    rw [hnone]
    simp

end Told

theorem waiting_conclude (c : Calls χ ρ) (id j : ℕ) (outcome : ρ) :
    (c.conclude id outcome).waiting j = if j = id then none else c.waiting j := by
  unfold Calls.conclude
  split
  · exact Function.update_apply c.waiting id none j
  · rename_i hnone
    split_ifs with h
    · rw [h, hnone]
    · rfl

section Answers
variable [DecidableEq χ] {c : Calls χ ρ} {who : χ}

def Calls.Absent (c : Calls χ ρ) (who : χ) : Prop := ∀ id, c.waiting id ≠ some who

/-- This caller waits under one number, and has heard nothing. -/
structure Calls.Waits (c : Calls χ ρ) (who : χ) (id : ℕ) : Prop where
  waiting : c.waiting id = some who
  only : ∀ j, c.waiting j = some who → j = id
  untold : c.toldTo who = []

omit [DecidableEq χ] in
theorem Calls.Absent.step (h : c.Absent who) {a : Action χ ρ} (ha : ∀ id, a ≠ .place id who) :
    (act c a).Absent who := by
  intro id hid
  cases a with
  | place j other =>
    change Function.update c.waiting j (some other) id = some who at hid
    by_cases hnew : id = j
    · rw [hnew, Function.update_self] at hid
      exact ha j (congrArg (Action.place j) (Option.some.inj hid))
    · rw [Function.update_of_ne hnew] at hid
      exact h id hid
  | conclude j outcome =>
    change (c.conclude j outcome).waiting id = some who at hid
    rw [waiting_conclude] at hid
    split_ifs at hid
    exact h id hid

theorem Calls.Absent.toldTo_step (h : c.Absent who) (a : Action χ ρ) :
    (act c a).toldTo who = c.toldTo who := by
  cases a with
  | place j other => rfl
  | conclude j outcome =>
    change (c.conclude j outcome).toldTo who = _
    rw [toldTo_conclude, if_neg (h j), List.append_nil]

/-- A caller that is not in the table hears nothing until it calls. -/
theorem Calls.Absent.steps (h : c.Absent who) {actions : List (Action χ ρ)}
    (hactions : ∀ a ∈ actions, ∀ id, a ≠ .place id who) :
    (run act c actions).Absent who ∧ (run act c actions).toldTo who = c.toldTo who := by
  induction actions generalizing c with
  | nil => exact ⟨h, rfl⟩
  | cons a actions ih =>
    obtain ⟨ha, hrest⟩ := List.forall_mem_cons.mp hactions
    obtain ⟨habsent, htold⟩ := ih (h.step ha) hrest
    exact ⟨habsent, htold.trans (h.toldTo_step a)⟩

theorem Calls.Absent.place (h : c.Absent who) (huntold : c.toldTo who = []) (id : ℕ) :
    (c.place id who).Waits who id where
  waiting := Function.update_self _ _ _
  only j hj := by
    by_contra hne
    change Function.update c.waiting id (some who) j = some who at hj
    rw [Function.update_of_ne hne] at hj
    exact h j hj
  untold := huntold

theorem Calls.Waits.step {id : ℕ} (h : c.Waits who id) {a : Action χ ρ}
    (ha : ∀ j, a ≠ .place j who) (hfresh : ∀ other, a ≠ .place id other)
    (hother : ∀ outcome, a ≠ .conclude id outcome) : (act c a).Waits who id := by
  cases a with
  | place j other =>
    have hji : id ≠ j := fun he => hfresh other (he ▸ rfl)
    refine ⟨(Function.update_of_ne hji _ _).trans h.waiting, fun k hk => ?_, h.untold⟩
    change Function.update c.waiting j (some other) k = some who at hk
    by_cases hnew : k = j
    · rw [hnew, Function.update_self] at hk
      exact absurd (congrArg (Action.place j) (Option.some.inj hk)) (ha j)
    · rw [Function.update_of_ne hnew] at hk
      exact h.only k hk
  | conclude j outcome =>
    have hji : j ≠ id := fun he => hother outcome (he ▸ rfl)
    have hnot : c.waiting j ≠ some who := fun hj => hji (h.only j hj)
    refine ⟨?_, fun k hk => ?_, ?_⟩
    · change (c.conclude j outcome).waiting id = some who
      rw [waiting_conclude, if_neg hji.symm]
      exact h.waiting
    · change (c.conclude j outcome).waiting k = some who at hk
      rw [waiting_conclude] at hk
      split_ifs at hk
      exact h.only k hk
    · change (c.conclude j outcome).toldTo who = []
      rw [toldTo_conclude, if_neg hnot, List.append_nil]
      exact h.untold

theorem Calls.Waits.conclude {id : ℕ} (h : c.Waits who id) (outcome : ρ) :
    (c.conclude id outcome).Absent who ∧ (c.conclude id outcome).toldTo who = [outcome] := by
  constructor
  · intro j hj
    rw [waiting_conclude] at hj
    split_ifs at hj with hji
    exact hji (h.only j hj)
  · rw [toldTo_conclude, if_pos h.waiting, h.untold, List.nil_append]

/-- A waiting caller is told the first outcome of its number, or goes on waiting. -/
theorem Calls.Waits.steps {id : ℕ} (h : c.Waits who id) {actions : List (Action χ ρ)}
    (hactions : ∀ a ∈ actions, ∀ j, a ≠ .place j who)
    (hfresh : ∀ a ∈ actions, ∀ other, a ≠ .place id other) :
    (run act c actions).toldTo who = (firstOutcome id actions).toList ∧
      ((run act c actions).waiting id = some who ↔ firstOutcome id actions = none) := by
  induction actions generalizing c with
  | nil => exact ⟨h.untold, iff_of_true h.waiting rfl⟩
  | cons a actions ih =>
    obtain ⟨ha, hrest⟩ := List.forall_mem_cons.mp hactions
    obtain ⟨hnew, hlater⟩ := List.forall_mem_cons.mp hfresh
    cases a with
    | place j other => exact ih (h.step ha hnew (by simp)) hrest hlater
    | conclude j outcome =>
      by_cases hj : j = id
      · subst hj
        obtain ⟨habsent, htold⟩ := h.conclude outcome
        obtain ⟨hstays, hsame⟩ := habsent.steps hrest
        have hfirst : firstOutcome j (.conclude j outcome :: actions) = some outcome := if_pos rfl
        rw [hfirst]
        exact ⟨hsame.trans htold, iff_of_false (hstays j) (by simp)⟩
      · have hfirst : firstOutcome id (.conclude j outcome :: actions) = firstOutcome id actions :=
          if_neg hj
        rw [hfirst]
        refine ih (h.step ha hnew ?_) hrest hlater
        rintro outcome' ⟨⟩
        exact hj rfl

theorem told_first_outcome {id : ℕ} {past coming : List (Action χ ρ)}
    (hpast : ∀ a ∈ past, ∀ j, a ≠ .place j who) (hcoming : ∀ a ∈ coming, ∀ j, a ≠ .place j who)
    (hfresh : ∀ a ∈ coming, ∀ other, a ≠ .place id other) :
    let after := run act Calls.start (past ++ .place id who :: coming)
    after.toldTo who = (firstOutcome id coming).toList ∧
      (after.waiting id = some who ↔ firstOutcome id coming = none) := by
  intro after
  have habsent : (Calls.start : Calls χ ρ).Absent who := fun _ h => by cases h
  obtain ⟨hbefore, huntold⟩ := habsent.steps hpast
  have hafter : after = run act ((run act Calls.start past).place id who) coming := by
    change run act Calls.start (past ++ .place id who :: coming) = _
    rw [run_append, run_cons]
    rfl
  rw [hafter]
  exact (hbefore.place huntold id).steps hcoming hfresh

end Answers
end PendingCalls
