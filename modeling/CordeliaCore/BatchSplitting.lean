import CordeliaCore.GreedyBatches
import CordeliaCore.LoopEffect

set_option autoImplicit false

namespace CordeliaCore.ReplicationLoop
open ProtocolMessages GreedyBatches

structure Filling (acc : Batching) : Prop where
  greedy : Greedy itemSize era0.maxMessageBytes (acc.batches ++ [acc.currentBatch])
  size : acc.currentSize = total itemSize acc.currentBatch

theorem Filling.currentBatch_ne {acc : Batching} (h : Filling acc) : acc.currentBatch ≠ [] :=
  h.greedy.nonempty acc.currentBatch (by simp)

theorem Filling.add {acc : Batching} (h : Filling acc) (item : FetchedItem) :
    Filling (acc.add item) := by
  unfold Batching.add
  by_cases hover : acc.currentSize + itemSize item > era0.maxMessageBytes
  · rw [if_pos ⟨h.currentBatch_ne, hover⟩]
    rw [h.size] at hover
    exact ⟨h.greedy.next hover, (total_singleton itemSize item).symm⟩
  · rw [if_neg (fun hboth => hover hboth.2)]
    rw [h.size] at hover ⊢
    refine ⟨h.greedy.grow (by omega), ?_⟩
    rw [total_append, total_singleton]

theorem Filling.foldl (items : List FetchedItem) {acc : Batching} (h : Filling acc) :
    Filling (items.foldl Batching.add acc) := by
  induction items generalizing acc with
  | nil => exact h
  | cons item items ih => exact ih (h.add item)

theorem splitIntoBatches_greedy (items : List FetchedItem) :
    Greedy itemSize era0.maxMessageBytes (splitIntoBatches items) := by
  cases items with
  | nil => exact greedy_nil
  | cons item items =>
    -- the first item is pushed onto the empty batch, however large it is
    have hfirst : Filling (Batching.add ⟨[], [], 0⟩ item) := by
      have hadd : Batching.add ⟨[], [], 0⟩ item = ⟨[], [item], 0 + itemSize item⟩ :=
        if_neg (fun hboth => hboth.1 rfl)
      rw [hadd, Nat.zero_add]
      exact ⟨greedy_one (by simp) (by simp), (total_singleton itemSize item).symm⟩
    have hfilled := hfirst.foldl items
    unfold splitIntoBatches
    rw [List.foldl_cons]
    dsimp only
    rw [if_neg hfilled.currentBatch_ne]
    exact hfilled.greedy

/-- The batches are determined by what they are for. -/
theorem splitIntoBatches_eq {items : List FetchedItem} {batches : List (List FetchedItem)}
    (hflatten : batches.flatten = items) (h : Greedy itemSize era0.maxMessageBytes batches) :
    splitIntoBatches items = batches := by
  apply (splitIntoBatches_greedy items).unique h
  rw [splitIntoBatches_flatten, hflatten]

/-- The batches hold the items in order, none is empty, those of several items are within the
    limit, and the first item of each would have taken the one before it over the limit. -/
theorem splitIntoBatches_partition (items : List FetchedItem) :
    (splitIntoBatches items).flatten = items ∧
      (∀ batch ∈ splitIntoBatches items, batch ≠ []) ∧
      (∀ batch ∈ splitIntoBatches items, 1 < batch.length →
        (batch.map itemSize).sum ≤ era0.maxMessageBytes) ∧
      ∀ before earlier later after,
        splitIntoBatches items = before ++ earlier :: later :: after →
          ∃ first rest, later = first :: rest ∧
            era0.maxMessageBytes < (earlier.map itemSize).sum + itemSize first := by
  have hgreedy := splitIntoBatches_greedy items
  refine ⟨splitIntoBatches_flatten items, hgreedy.nonempty, hgreedy.within, ?_⟩
  intro before earlier later after hsplit
  rw [hsplit] at hgreedy
  have hnext := (List.isChain_append_cons_cons.mp hgreedy.full).2.1
  obtain ⟨first, rest, rfl⟩ := List.exists_cons_of_ne_nil (hgreedy.nonempty later (by simp))
  exact ⟨first, rest, rfl, hnext first rfl⟩

end CordeliaCore.ReplicationLoop
