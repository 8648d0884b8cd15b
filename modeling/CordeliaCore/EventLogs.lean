import CordeliaCore.StepRuns

set_option autoImplicit false

namespace EventLogs
open StepRuns

universe u v w
variable {σ : Type u} {α : Type v} {β : Type w} (step : σ → α → σ) (f : σ → α → List β)

def collected (s : σ) : List α → List β
  | [] => []
  | a :: actions => f s a ++ collected (step s a) actions

@[simp] theorem collected_nil (s : σ) : collected step f s [] = [] := rfl

@[simp] theorem collected_cons (s : σ) (a : α) (actions : List α) :
    collected step f s (a :: actions) = f s a ++ collected step f (step s a) actions := rfl

theorem collected_append (s : σ) (xs ys : List α) :
    collected step f s (xs ++ ys) = collected step f s xs ++ collected step f (run step s xs) ys := by
  induction xs generalizing s with
  | nil => rfl
  | cons a xs ih => rw [List.cons_append, collected_cons, collected_cons, ih, run_cons,
      List.append_assoc]

variable {step f}

theorem exists_of_mem_collected {s : σ} {actions : List α} {b : β}
    (h : b ∈ collected step f s actions) :
    ∃ past a coming, actions = past ++ a :: coming ∧ b ∈ f (run step s past) a := by
  induction actions generalizing s with
  | nil => cases h
  | cons a actions ih =>
    rw [collected_cons] at h
    rcases List.mem_append.mp h with h | h
    · exact ⟨[], a, actions, rfl, h⟩
    · obtain ⟨past, c, coming, rfl, hb⟩ := ih h
      exact ⟨a :: past, c, coming, rfl, hb⟩

theorem invariant_collected {I : List β → σ → Prop}
    (hkeep : ∀ log s a, I log s → I (log ++ f s a) (step s a)) {log : List β} {s : σ}
    (h : I log s) (actions : List α) :
    I (log ++ collected step f s actions) (run step s actions) := by
  induction actions generalizing log s with
  | nil => rwa [collected_nil, List.append_nil]
  | cons a actions ih =>
    rw [collected_cons, run_cons, ← List.append_assoc]
    exact ih (hkeep log s a h)

/-- What the last action of its kind brings about, the others keep. -/
theorem run_of_last {I : σ → Prop} {kind : α → Bool} {actions : List α} {a : α}
    (hlast : (actions.filter kind).getLast? = some a) (hset : ∀ s, I (step s a))
    (hkeep : ∀ s b, kind b = false → I s → I (step s b)) (s : σ) : I (run step s actions) := by
  induction actions using List.reverseRecOn with
  | nil => simp at hlast
  | append_singleton actions b ih =>
    rw [run_append, run_cons, run_nil]
    rw [List.filter_append] at hlast
    cases hb : kind b with
    | true =>
      rw [List.filter_cons_of_pos hb, List.filter_nil, List.getLast?_concat] at hlast
      rw [Option.some.inj hlast]
      exact hset _
    | false =>
      rw [List.filter_cons_of_neg (by simp [hb]), List.filter_nil, List.append_nil] at hlast
      exact hkeep _ b hb (ih hlast)

end EventLogs
