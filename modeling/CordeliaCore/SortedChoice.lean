import Mathlib.Data.List.Basic

set_option autoImplicit false

namespace SortedChoice

universe u
variable {α : Type u} {le : α → α → Bool} {a : α} {l : List α} {k : ℕ}

theorem countP_lt_of_mem_take_sorted (total : ∀ a b, le a b || le b a) (hsorted : l.Pairwise (le · ·))
    (h : a ∈ l.take k) : l.countP (fun b => !le a b) < k := by
  induction l generalizing k with
  | nil => simp at h
  | cons x l ih =>
    obtain ⟨hx, hl⟩ := List.pairwise_cons.mp hsorted
    cases k with
    | zero => simp at h
    | succ k =>
      rw [List.take_succ_cons, List.mem_cons] at h
      rw [List.countP_cons]
      rcases h with rfl | h
      · have hself : le a a = true := by simpa using total a a
        have hnone : l.countP (fun b => !le a b) = 0 := by
          rw [List.countP_eq_zero]
          intro b hb
          simp [hx b hb]
        simp [hself, hnone]
      · have hrest := ih hl h
        split_ifs <;> omega

/-- An element that comes before a chosen one is chosen as well. -/
theorem mem_take_of_not_le_sorted {b : α} (hsorted : l.Pairwise (le · ·)) (ha : a ∈ l.take k)
    (hb : b ∈ l) (hab : ¬ le a b = true) : b ∈ l.take k := by
  induction l generalizing k with
  | nil => simp at ha
  | cons x l ih =>
    obtain ⟨hx, hl⟩ := List.pairwise_cons.mp hsorted
    cases k with
    | zero => simp at ha
    | succ k =>
      rw [List.take_succ_cons, List.mem_cons] at ha ⊢
      rcases List.mem_cons.mp hb with hfirst | hrest
      · exact .inl hfirst
      rcases ha with rfl | ha
      · exact absurd (hx b hrest) hab
      · exact .inr (ih hl ha hrest)

section Sorting
variable (trans : ∀ a b c, le a b → le b c → le a c) (total : ∀ a b, le a b || le b a)
include trans total

theorem countP_lt_of_mem_take (h : a ∈ (l.mergeSort le).take k) :
    l.countP (fun b => !le a b) < k := by
  rw [← (List.mergeSort_perm l le).countP_eq]
  exact countP_lt_of_mem_take_sorted total (List.pairwise_mergeSort trans total l) h

theorem mem_take_of_not_le {b : α} (ha : a ∈ (l.mergeSort le).take k) (hb : b ∈ l)
    (hab : ¬ le a b = true) : b ∈ (l.mergeSort le).take k :=
  mem_take_of_not_le_sorted (List.pairwise_mergeSort trans total l) ha (List.mem_mergeSort.mpr hb) hab

/-- The sort is stable, so ties are won by the first element. -/
theorem mem_take_of_countP_lt (h : (a :: l).countP (fun b => !le a b) < k) :
    a ∈ ((a :: l).mergeSort le).take k := by
  obtain ⟨before, after, hsort, -, hbefore⟩ := List.mergeSort_cons trans total a l
  have hlength : before.length ≤ (a :: l).countP (fun b => !le a b) := by
    rw [← (List.mergeSort_perm (a :: l) le).countP_eq, hsort, List.countP_append,
      List.countP_eq_length.mpr hbefore]
    exact Nat.le_add_right _ _
  rw [hsort, List.take_append, List.mem_append]
  right
  rw [show k - before.length = (k - before.length - 1) + 1 by omega, List.take_succ_cons]
  exact List.mem_cons_self

end Sorting
end SortedChoice
