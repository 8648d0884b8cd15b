import CordeliaCore.StepRuns
import Mathlib.Data.Finset.Lattice.Fold
import Mathlib.Order.Lattice

set_option autoImplicit false

/-!
# Replicas that pull from each other

A pull joins another replica's state into one's own. What a replica has after
some pulls is the join of the states it has heard of, directly or through
others. A system whose steps are sometimes whole pulls and otherwise bring
something of one lies between the two.
-/
namespace PullGossip
open StepRuns

universe u v w x
variable {ν : Type u} {α : Type v} {β : Type w} [DecidableEq ν]

def pull [Max α] (s : ν → α) (edge : ν × ν) : ν → α :=
  Function.update s edge.1 (s edge.1 ⊔ s edge.2)

/-- Whose states have come to a replica: pulls of the sets of names. -/
def heard (edges : List (ν × ν)) : ν → Finset ν := run pull (fun i => {i}) edges

section Join
variable [SemilatticeSup α]

theorem pull_apply (s : ν → α) (edge : ν × ν) (i : ν) :
    pull s edge i = if i = edge.1 then s edge.1 ⊔ s edge.2 else s i :=
  Function.update_apply s edge.1 _ i

theorem le_pull (s : ν → α) (edge : ν × ν) : s ≤ pull s edge := by
  intro i
  rw [pull_apply]
  split_ifs with hi
  · subst hi
    exact le_sup_left
  · exact le_rfl

theorem pull_mono {s t : ν → α} (h : s ≤ t) (edge : ν × ν) : pull s edge ≤ pull t edge := by
  intro i
  rw [pull_apply, pull_apply]
  split_ifs
  · exact sup_le_sup (h edge.1) (h edge.2)
  · exact h i

theorem run_pull_mono {s t : ν → α} (h : s ≤ t) (edges : List (ν × ν)) :
    run pull s edges ≤ run pull t edges := by
  induction edges generalizing s t with
  | nil => exact h
  | cons edge edges ih => exact ih (pull_mono h edge)

theorem run_pull_map [SemilatticeSup β] {f : β → α} (hf : ∀ a b, f (a ⊔ b) = f a ⊔ f b)
    (s : ν → β) (edges : List (ν × ν)) :
    run pull (fun i => f (s i)) edges = fun i => f (run pull s edges i) := by
  induction edges generalizing s with
  | nil => rfl
  | cons edge edges ih =>
    have hstep : pull (fun i => f (s i)) edge = fun i => f (pull s edge i) := by
      funext i
      rw [pull_apply, pull_apply]
      split_ifs
      · exact (hf _ _).symm
      · rfl
    rw [run_cons, run_cons, hstep]
    exact ih (pull s edge)

/-- After any pulls a replica has the join of what it heard of. -/
theorem run_pull_eq_sup [OrderBot α] (s : ν → α) (edges : List (ν × ν)) (i : ν) :
    run pull s edges i = (heard edges i).sup s := by
  have hstart : s = fun i => ({i} : Finset ν).sup s := by
    funext i
    exact Finset.sup_singleton.symm
  have hmap := run_pull_map (f := fun names : Finset ν => names.sup s)
    (fun a b => Finset.sup_union) (fun i => {i}) edges
  rw [← hstart] at hmap
  exact congrFun hmap i

end Join

section System
variable {S : Type w} {E : Type x} [SemilatticeSup α]

def pullSome (s : ν → α) : Option (ν × ν) → ν → α
  | none => s
  | some edge => pull s edge

theorem run_pull_filterMap_cons (s : ν → α) (f : E → Option (ν × ν)) (e : E) (events : List E) :
    run pull s ((e :: events).filterMap f) = run pull (pullSome s (f e)) (events.filterMap f) := by
  rw [List.filterMap_cons]
  cases f e <;> rfl

variable [OrderBot α] (step : S → E → S) (view : S → ν → α) (edge : E → Option (ν × ν))
  {I : S → Prop} (hkept : ∀ s e, I s → I (step s e))
include hkept

/-- Steps that bring at least their pull bring all that was heard of. -/
theorem heard_le_run (hlower : ∀ s e, I s → pullSome (view s) (edge e) ≤ view (step s e))
    {s : S} (hs : I s) (events : List E) (i : ν) :
    (heard (events.filterMap edge) i).sup (view s) ≤ view (run step s events) i := by
  rw [← run_pull_eq_sup]
  induction events generalizing s with
  | nil => exact le_rfl
  | cons e events ih =>
    rw [run_pull_filterMap_cons, run_cons]
    exact (run_pull_mono (hlower s e hs) _ i).trans (ih (hkept s e hs))

theorem run_le_heard (hupper : ∀ s e, I s → view (step s e) ≤ pullSome (view s) (edge e))
    {s : S} (hs : I s) (events : List E) (i : ν) :
    view (run step s events) i ≤ (heard (events.filterMap edge) i).sup (view s) := by
  rw [← run_pull_eq_sup]
  induction events generalizing s with
  | nil => exact le_rfl
  | cons e events ih =>
    rw [run_pull_filterMap_cons, run_cons]
    exact (ih (hkept s e hs)).trans (run_pull_mono (hupper s e hs) _ i)

end System
end PullGossip
