import Mathlib.Algebra.Ring.Nat
import Mathlib.Data.List.Chain

set_option autoImplicit false

namespace CordeliaCore.GreedyBatches

variable {α : Type}

def total (weight : α → ℕ) (batch : List α) : ℕ := (batch.map weight).sum

section Rules
variable (weight : α → ℕ) (limit : ℕ)

def Overflows (earlier later : List α) : Prop :=
  ∀ first ∈ later.head?, limit < total weight earlier + weight first

structure Greedy (batches : List (List α)) : Prop where
  nonempty : ∀ batch ∈ batches, batch ≠ []
  within : ∀ batch ∈ batches, 1 < batch.length → total weight batch ≤ limit
  full : batches.IsChain (Overflows weight limit)

end Rules

variable {weight : α → ℕ} {limit : ℕ}

theorem total_append (batch rest : List α) :
    total weight (batch ++ rest) = total weight batch + total weight rest := by
  unfold total
  rw [List.map_append, List.sum_append]

theorem total_singleton (weight : α → ℕ) (item : α) : total weight [item] = weight item := by
  simp [total]

theorem Overflows.of_head {earlier later later' : List α} (h : Overflows weight limit earlier later)
    (hhead : later'.head? = later.head?) : Overflows weight limit earlier later' := by
  unfold Overflows
  rw [hhead]
  exact h

theorem greedy_nil : Greedy weight limit [] := by
  constructor <;> simp

theorem Greedy.concat {batches : List (List α)} {last : List α} (h : Greedy weight limit batches)
    (hne : last ≠ []) (hwithin : 1 < last.length → total weight last ≤ limit)
    (hfull : ∀ earlier ∈ batches.getLast?, Overflows weight limit earlier last) :
    Greedy weight limit (batches ++ [last]) := by
  constructor
  · exact List.forall_mem_append.mpr ⟨h.nonempty, by simpa using hne⟩
  · exact List.forall_mem_append.mpr ⟨h.within, by simpa using hwithin⟩
  · refine h.full.append (List.isChain_singleton _) ?_
    intro earlier hearlier later hlater
    rw [← Option.some.inj hlater]
    exact hfull earlier hearlier

theorem greedy_one {batch : List α} (hne : batch ≠ [])
    (h : 1 < batch.length → total weight batch ≤ limit) : Greedy weight limit [batch] :=
  greedy_nil.concat hne h (by simp)

theorem Greedy.grow {closed : List (List α)} {current : List α} {item : α}
    (h : Greedy weight limit (closed ++ [current]))
    (hfits : total weight current + weight item ≤ limit) :
    Greedy weight limit (closed ++ [current ++ [item]]) := by
  have hcurrent : current ≠ [] := h.nonempty current (by simp)
  obtain ⟨hchain, -, hlast⟩ := List.isChain_append.mp h.full
  have hclosed : Greedy weight limit closed :=
    ⟨(List.forall_mem_append.mp h.nonempty).1, (List.forall_mem_append.mp h.within).1, hchain⟩
  refine hclosed.concat (by simp) (fun _ => ?_) (fun earlier hearlier => ?_)
  · rw [total_append, total_singleton]
    exact hfits
  · exact (hlast earlier hearlier current rfl).of_head (List.head?_append_of_ne_nil _ hcurrent)

theorem Greedy.next {closed : List (List α)} {current : List α} {item : α}
    (h : Greedy weight limit (closed ++ [current]))
    (hover : limit < total weight current + weight item) :
    Greedy weight limit (closed ++ [current] ++ [[item]]) := by
  refine h.concat (by simp) (fun hlength => ?_) (fun earlier hearlier first hfirst => ?_)
  · simp at hlength
  · have hcurrent : current = earlier := by simpa using hearlier
    have hitem : item = first := by simpa using hfirst
    rw [← hcurrent, ← hitem]
    exact hover

section Uniqueness
variable {batch batch' : List α} {batches batches' : List (List α)}

theorem Greedy.tail (h : Greedy weight limit (batch :: batches)) : Greedy weight limit batches where
  nonempty b hb := h.nonempty b (List.mem_cons_of_mem _ hb)
  within b hb := h.within b (List.mem_cons_of_mem _ hb)
  full := h.full.tail

theorem Greedy.lt_of_flatten (h : Greedy weight limit (batch :: batches)) {item : α} {rest : List α}
    (hrest : batches.flatten = item :: rest) : limit < total weight batch + weight item := by
  cases batches with
  | nil => cases hrest
  | cons later batches =>
    obtain ⟨first, items, hlater⟩ := List.exists_cons_of_ne_nil (h.nonempty later (by simp))
    rw [hlater, List.flatten_cons, List.cons_append] at hrest
    have hover := (List.isChain_cons_cons.mp h.full).1 first (by rw [hlater]; rfl)
    rw [(List.cons.inj hrest).1] at hover
    exact hover

/-- No greedy division of the same items starts with more of them. -/
theorem Greedy.not_longer (h : Greedy weight limit (batch :: batches))
    (h' : Greedy weight limit (batch' :: batches')) {more : List α} (hmore : batch' = batch ++ more)
    (hrest : batches.flatten = more ++ batches'.flatten) : more = [] := by
  cases more with
  | nil => rfl
  | cons item more =>
    have hover := h.lt_of_flatten hrest
    have hlength := List.length_pos_of_ne_nil (h.nonempty batch (by simp))
    have hfits := h'.within batch' (by simp) (by rw [hmore]; simp; omega)
    rw [hmore, ← List.singleton_append, total_append, total_append, total_singleton] at hfits
    omega

theorem Greedy.unique (h : Greedy weight limit batches) (h' : Greedy weight limit batches')
    (hflatten : batches.flatten = batches'.flatten) : batches = batches' := by
  induction batches generalizing batches' with
  | nil =>
    cases batches' with
    | nil => rfl
    | cons batch' batches' =>
      have hempty : batch' = [] := (List.append_eq_nil_iff.mp hflatten.symm).1
      exact absurd hempty (h'.nonempty batch' (by simp))
  | cons batch batches ih =>
    cases batches' with
    | nil =>
      have hempty : batch = [] := (List.append_eq_nil_iff.mp hflatten).1
      exact absurd hempty (h.nonempty batch (by simp))
    | cons batch' batches' =>
      rw [List.flatten_cons, List.flatten_cons] at hflatten
      have hbatch : batch = batch' := by
        rcases List.append_eq_append_iff.mp hflatten with ⟨more, hmore, hrest⟩ | ⟨more, hmore, hrest⟩
        · rw [hmore, h.not_longer h' hmore hrest, List.append_nil]
        · rw [hmore, h'.not_longer h hmore hrest, List.append_nil]
      rw [hbatch] at hflatten ⊢
      rw [ih h.tail h'.tail (List.append_cancel_left hflatten)]

end Uniqueness

end CordeliaCore.GreedyBatches
