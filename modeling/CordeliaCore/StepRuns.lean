import Mathlib.Data.List.Basic
import Mathlib.Data.List.Induction

set_option autoImplicit false

/-!
# Runs of a step function

A run is a list of actions. `Along` says that a property of a state and the
action about to be taken in it holds at every step of a run. Where the actions name
the party that moves, `turns` says who moves for the first, second or later time.
-/
namespace StepRuns

universe u v
variable {σ : Type u} {α : Type v} (step : σ → α → σ)

def run (s : σ) (actions : List α) : σ := actions.foldl step s

def Along (P : σ → α → Prop) : σ → List α → Prop
  | _, [] => True
  | s, a :: actions => P s a ∧ Along P (step s a) actions

instance decidableAlong (P : σ → α → Prop) [∀ s a, Decidable (P s a)] :
    ∀ (s : σ) (actions : List α), Decidable (Along step P s actions)
  | _, [] => isTrue trivial
  | s, a :: actions =>
    have := decidableAlong P (step s a) actions
    inferInstanceAs (Decidable (P s a ∧ Along step P (step s a) actions))

@[simp] theorem run_nil (s : σ) : run step s [] = s := rfl

@[simp] theorem run_cons (s : σ) (a : α) (actions : List α) :
    run step s (a :: actions) = run step (step s a) actions := rfl

theorem run_append (s : σ) (xs ys : List α) :
    run step s (xs ++ ys) = run step (run step s xs) ys :=
  List.foldl_append

@[simp] theorem along_nil (P : σ → α → Prop) (s : σ) : Along step P s [] := trivial

@[simp] theorem along_cons (P : σ → α → Prop) (s : σ) (a : α) (actions : List α) :
    Along step P s (a :: actions) ↔ P s a ∧ Along step P (step s a) actions := Iff.rfl

theorem along_append (P : σ → α → Prop) (s : σ) (xs ys : List α) :
    Along step P s (xs ++ ys) ↔ Along step P s xs ∧ Along step P (run step s xs) ys := by
  induction xs generalizing s with
  | nil => simp
  | cons a xs ih =>
    rw [List.cons_append, along_cons, along_cons, ih, run_cons, and_assoc]

theorem along_flatten (P : σ → α → Prop) (s : σ) (batches : List (List α)) :
    Along step P s batches.flatten ↔ Along (run step) (Along step P) s batches := by
  induction batches generalizing s with
  | nil => simp
  | cons batch batches ih => rw [List.flatten_cons, along_append, along_cons, ih]

theorem along_and (P Q : σ → α → Prop) (s : σ) (actions : List α) :
    Along step (fun s a => P s a ∧ Q s a) s actions ↔
      Along step P s actions ∧ Along step Q s actions := by
  induction actions generalizing s with
  | nil => simp
  | cons a actions ih =>
    rw [along_cons, along_cons, along_cons, ih]
    exact and_and_and_comm

section Invariant
variable {step} {I : σ → Prop} {G P : σ → α → Prop}

/-- An invariant that guarded steps keep holds after a guarded run. -/
theorem invariant_run (hkeep : ∀ s a, I s → G s a → I (step s a)) {s : σ} {actions : List α}
    (hs : I s) (h : Along step G s actions) : I (run step s actions) := by
  induction actions generalizing s with
  | nil => exact hs
  | cons a actions ih => exact ih (hkeep s a hs h.1) h.2

/-- What a view shows after a run is what the last write to it left. -/
theorem run_last_write {β : Type*} (view : σ → β) {W : σ → α → Prop}
    (hkeep : ∀ s a, ¬ W s a → view (step s a) = view s) (s : σ) (actions : List α) :
    view (run step s actions) = view s ∨ ∃ past a coming, actions = past ++ a :: coming ∧
      W (run step s past) a ∧ view (run step s actions) = view (step (run step s past) a) := by
  induction actions using List.reverseRecOn with
  | nil => exact .inl rfl
  | append_singleton actions a ih =>
    rw [run_append, run_cons, run_nil]
    by_cases hw : W (run step s actions) a
    · exact .inr ⟨actions, a, [], rfl, hw, rfl⟩
    rw [hkeep _ _ hw]
    rcases ih with hsame | ⟨past, b, coming, rfl, hwrite, hview⟩
    · exact .inl hsame
    · exact .inr ⟨past, b, coming ++ [a], by simp, hwrite, hview⟩

/-- What one action brings about and the others keep holds at the end. -/
theorem run_reaches {s : σ} {actions : List α} (hkeep : ∀ s, ∀ a ∈ actions, I s → I (step s a))
    (h : I s ∨ ∃ a ∈ actions, ∀ s, I (step s a)) : I (run step s actions) := by
  induction actions generalizing s with
  | nil => simpa using h
  | cons a actions ih =>
    rw [run_cons]
    apply ih (fun s b hb => hkeep s b (List.mem_cons_of_mem a hb))
    rcases h with hs | ⟨b, hb, hsets⟩
    · exact .inl (hkeep s a (by simp) hs)
    · rcases List.mem_cons.mp hb with rfl | hb
      · exact .inl (hsets s)
      · exact .inr ⟨b, hb, hsets⟩

theorem along_of_guard (hkeep : ∀ s a, I s → G s a → I (step s a))
    (hP : ∀ s a, I s → G s a → P s a) {s : σ} {actions : List α} (hs : I s)
    (h : Along step G s actions) : Along step P s actions := by
  induction actions generalizing s with
  | nil => trivial
  | cons a actions ih => exact ⟨hP s a hs h.1, ih (hkeep s a hs h.1) h.2⟩

theorem along_of_mem {actions : List α} (h : ∀ a ∈ actions, ∀ s, P s a) (s : σ) :
    Along step P s actions := by
  induction actions generalizing s with
  | nil => trivial
  | cons a actions ih =>
    exact ⟨h a (by simp) s, ih (fun b hb => h b (List.mem_cons_of_mem a hb)) (step s a)⟩

theorem along_congr (hkeep : ∀ s a, I s → P s a → I (step s a))
    (hPG : ∀ s a, I s → (P s a ↔ G s a)) {s : σ} {actions : List α} (hs : I s) :
    Along step P s actions ↔ Along step G s actions := by
  induction actions generalizing s with
  | nil => rfl
  | cons a actions ih =>
    rw [along_cons, along_cons, hPG s a hs]
    refine and_congr_right (fun hg => ?_)
    exact ih (hkeep s a hs ((hPG s a hs).mpr hg))

/-- Step properties that agree where a guard holds hold along the same guarded runs. -/
theorem along_congr_of_guard {Q : σ → α → Prop} (hPG : ∀ s a, Q s a → (P s a ↔ G s a)) {s : σ}
    {actions : List α} (h : Along step Q s actions) :
    Along step P s actions ↔ Along step G s actions := by
  induction actions generalizing s with
  | nil => rfl
  | cons a actions ih => exact and_congr (hPG s a h.1) (ih h.2)

end Invariant

section Turns
variable {ι : Type u} [DecidableEq ι]

/-- Who takes the turn of a given number in a schedule, in order, after the turns that
    each has had before. -/
def turns (turn : ℕ) (past : ι → ℕ) : List ι → List ι
  | [] => []
  | i :: schedule =>
    if past i = turn then i :: turns turn (Function.update past i (past i + 1)) schedule
    else turns turn (Function.update past i (past i + 1)) schedule

theorem turns_of_eq {turn : ℕ} {past : ι → ℕ} {i : ι} (h : past i = turn) (schedule : List ι) :
    turns turn past (i :: schedule) =
      i :: turns turn (Function.update past i (past i + 1)) schedule :=
  if_pos h

theorem turns_of_ne {turn : ℕ} {past : ι → ℕ} {i : ι} (h : past i ≠ turn) (schedule : List ι) :
    turns turn past (i :: schedule) = turns turn (Function.update past i (past i + 1)) schedule :=
  if_neg h

theorem count_turns (turn : ℕ) (past : ι → ℕ) (schedule : List ι) (j : ι) :
    (turns turn past schedule).count j =
      if past j ≤ turn ∧ turn < past j + schedule.count j then 1 else 0 := by
  induction schedule generalizing past with
  | nil =>
    rw [if_neg (by simp)]
    rfl
  | cons i schedule ih =>
    by_cases hij : i = j
    · subst hij
      by_cases hturn : past i = turn
      · rw [turns_of_eq hturn, List.count_cons_self, ih, Function.update_self, List.count_cons_self,
          if_neg (by omega), if_pos (by omega)]
      · rw [turns_of_ne hturn, ih, Function.update_self, List.count_cons_self]
        congr 1
        apply propext
        omega
    · have hji : j ≠ i := fun h => hij h.symm
      have hcount : ∀ rest : List ι, (i :: rest).count j = rest.count j :=
        fun rest => List.count_cons_of_ne hij
      have hrest : (turns turn past (i :: schedule)).count j =
          (turns turn (Function.update past i (past i + 1)) schedule).count j := by
        rw [turns]
        split
        · exact hcount _
        · rfl
      rw [hrest, ih, Function.update_of_ne hji, hcount]

end Turns

end StepRuns
