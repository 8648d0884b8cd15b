import Mathlib.Algebra.BigOperators.Group.Finset.Basic
import Mathlib.Algebra.Order.BigOperators.Group.Finset
import Mathlib.Data.Fintype.Basic
import Mathlib.Data.Fintype.Card
import Mathlib.Logic.Hydra
import Mathlib.Order.WellFounded
import Mathlib.Tactic.Ring

set_option autoImplicit false

/-!
# Flooding over a graph

A node handles a message and, when that had an effect, sends a copy to each of
its peers except the one the message came from. A flood ends when effects use
up a rank of the stores, or when the graph offers no endless walk that never
turns straight back.
-/
namespace Flooding

universe u v w x
variable {ν : Type u} {S : Type v} {M : Type w} {ε : Type x}

structure Packet (ν : Type u) (M : Type w) where
  sender : Option ν
  target : ν
  message : M
deriving DecidableEq

structure Network (ν : Type u) (S : Type v) (M : Type w) where
  stores : ν → S
  inFlight : Multiset (Packet ν M)

/-- Handling takes whatever the environment supplies at the step and says
    whether it had an effect. -/
structure Protocol (ν : Type u) (S : Type v) (M : Type w) (ε : Type x) where
  peers : ν → Finset ν
  handle : ν → ε → S → M → Bool × S

variable [DecidableEq ν] [DecidableEq M] (P : Protocol ν S M ε)

def forwarded (p : Packet ν M) : Multiset (Packet ν M) :=
  ((P.peers p.target).filter (fun q => some q ≠ p.sender)).val.map
    (fun q => ⟨some p.target, q, p.message⟩)

def delivered (net : Network ν S M) (p : Packet ν M) (e : ε) : Network ν S M :=
  let handled := P.handle p.target e (net.stores p.target) p.message
  { stores := Function.update net.stores p.target handled.2
    inFlight := net.inFlight.erase p + if handled.1 then forwarded P p else 0 }

inductive Step : Network ν S M → Network ν S M → Prop where
  | deliver {net : Network ν S M} {p : Packet ν M} (hp : p ∈ net.inFlight) (e : ε) :
      Step net (delivered P net p e)

def Terminates (net : Network ν S M) : Prop :=
  ¬ ∃ run : ℕ → Network ν S M, run 0 = net ∧ ∀ n, Step P (run n) (run (n + 1))

/-- An endless walk along peers that never turns straight back. -/
def EndlessWalk (peers : ν → Finset ν) : Prop :=
  ∃ walk : ℕ → ν, ∀ n, walk (n + 1) ∈ peers (walk n) ∧ walk (n + 2) ≠ walk n

variable {P}

omit [DecidableEq M] in
theorem mem_forwarded {p q : Packet ν M} :
    q ∈ forwarded P p ↔ q.sender = some p.target ∧ q.target ∈ P.peers p.target ∧
      some q.target ≠ p.sender ∧ q.message = p.message := by
  unfold forwarded
  simp only [Multiset.mem_map, Finset.mem_val, Finset.mem_filter]
  constructor
  · rintro ⟨t, ⟨ht, hne⟩, rfl⟩
    exact ⟨rfl, ht, hne, rfl⟩
  · rintro ⟨hs, ht, hne, hm⟩
    refine ⟨q.target, ⟨ht, hne⟩, ?_⟩
    rw [← hs, ← hm]

theorem delivered_stores_self (net : Network ν S M) (p : Packet ν M) (e : ε) :
    (delivered P net p e).stores p.target =
      (P.handle p.target e (net.stores p.target) p.message).2 :=
  Function.update_self _ _ _

theorem delivered_stores_of_ne {net : Network ν S M} (p : Packet ν M) (e : ε) {n : ν}
    (h : n ≠ p.target) : (delivered P net p e).stores n = net.stores n :=
  Function.update_of_ne h _ _

theorem mem_delivered_of_ne {net : Network ν S M} {p q : Packet ν M} (hq : q ∈ net.inFlight)
    (hne : q ≠ p) (e : ε) : q ∈ (delivered P net p e).inFlight :=
  Multiset.mem_add.mpr (.inl ((Multiset.mem_erase_of_ne hne).mpr hq))

theorem mem_delivered_of_effect {net : Network ν S M} {p : Packet ν M} {e : ε} {q : ν}
    (heffect : (P.handle p.target e (net.stores p.target) p.message).1 = true)
    (hpeer : q ∈ P.peers p.target) (hback : some q ≠ p.sender) :
    (⟨some p.target, q, p.message⟩ : Packet ν M) ∈ (delivered P net p e).inFlight := by
  refine Multiset.mem_add.mpr (.inr ?_)
  rw [if_pos heffect]
  exact mem_forwarded.mpr ⟨rfl, hpeer, hback, rfl⟩

theorem terminates_of_acc {net : Network ν S M} (h : Acc (fun b a => Step P a b) net) :
    Terminates P net := by
  rintro ⟨run, hstart, hstep⟩
  exact (acc_iff_isEmpty_descending_chain.mp h).false ⟨run, hstart, hstep⟩

/-- A predicate that some steps always restore is never left for good. -/
theorem not_terminates_of_progress (Live : Network ν S M → Prop)
    (h : ∀ net, Live net → ∃ next, Relation.TransGen (Step P) net next ∧ Live next)
    {net : Network ν S M} (hnet : Live net) : ¬ Terminates P net := by
  intro hterm
  have hacc : Acc (fun b a => Step P a b) net := by
    rw [acc_iff_isEmpty_descending_chain]
    exact ⟨fun ⟨run, hstart, hstep⟩ => hterm ⟨run, hstart, hstep⟩⟩
  have hdead : ∀ net, Acc (Relation.TransGen (fun b a => Step P a b)) net → ¬ Live net := by
    intro net hacc
    induction hacc with
    | intro net _ ih =>
      intro hlive
      obtain ⟨next, hsteps, hnext⟩ := h net hlive
      exact ih next (Relation.transGen_swap.mp hsteps) hnext
  exact hdead net hacc.transGen hnet

/-- Effects lower the rank of a store, and nothing raises it. -/
structure Ranked (rank : S → ℕ) (Allowed : M → Prop) (P : Protocol ν S M ε) : Prop where
  le : ∀ n e s m, Allowed m → rank (P.handle n e s m).2 ≤ rank s
  lt : ∀ n e s m, Allowed m → (P.handle n e s m).1 = true → rank (P.handle n e s m).2 < rank s

section Rank
variable [Fintype ν] (rank : S → ℕ) {Allowed : M → Prop}

/-- Rank still to spend, at the price of one packet for each node, and packets. -/
def potential (net : Network ν S M) : ℕ :=
  (∑ n, rank (net.stores n)) * (Fintype.card ν + 1) + Multiset.card net.inFlight

theorem sum_rank_update (stores : ν → S) (n : ν) (s : S) :
    (∑ k, rank (Function.update stores n s k)) + rank (stores n) =
      (∑ k, rank (stores k)) + rank s := by
  have hupdate : ∀ k, rank (Function.update stores n s k) =
      Function.update (fun k => rank (stores k)) n (rank s) k := by
    intro k
    by_cases hk : k = n
    · subst hk
      simp
    · simp [hk]
  rw [Finset.sum_congr rfl (fun k _ => hupdate k),
    Finset.sum_update_of_mem (Finset.mem_univ n),
    ← Finset.sum_sdiff (Finset.subset_univ {n}) (f := fun k => rank (stores k)),
    Finset.sum_singleton]
  omega

variable {rank}

omit [DecidableEq M] in
theorem card_forwarded_le (p : Packet ν M) :
    Multiset.card (forwarded P p) ≤ Fintype.card ν := by
  unfold forwarded
  rw [Multiset.card_map]
  exact (Finset.card_le_univ _)

theorem potential_delivered (h : Ranked rank Allowed P) {net : Network ν S M} {p : Packet ν M}
    (hp : p ∈ net.inFlight) (hm : Allowed p.message) (e : ε) :
    potential rank (delivered P net p e) < potential rank net := by
  have hle := h.le p.target e (net.stores p.target) p.message hm
  have hsum := sum_rank_update rank net.stores p.target
    (P.handle p.target e (net.stores p.target) p.message).2
  have hcard := Multiset.card_erase_add_one hp
  have hfwd := card_forwarded_le (P := P) p
  unfold potential delivered
  dsimp only
  rw [Multiset.card_add]
  cases hdone : (P.handle p.target e (net.stores p.target) p.message).1 with
  | false =>
    have hmono := Nat.mul_le_mul_right (Fintype.card ν + 1)
      (show (∑ k, rank (Function.update net.stores p.target
        (P.handle p.target e (net.stores p.target) p.message).2 k)) ≤
          ∑ k, rank (net.stores k) by omega)
    simp only [Bool.false_eq_true, if_false, Multiset.card_zero]
    omega
  | true =>
    have hdrop := h.lt p.target e (net.stores p.target) p.message hm hdone
    have hmono := Nat.mul_le_mul_right (Fintype.card ν + 1)
      (show (∑ k, rank (Function.update net.stores p.target
        (P.handle p.target e (net.stores p.target) p.message).2 k)) + 1 ≤
          ∑ k, rank (net.stores k) by omega)
    rw [Nat.add_mul, Nat.one_mul] at hmono
    simp only [if_true]
    omega

omit [Fintype ν] in
theorem allowed_delivered {net : Network ν S M} (h : ∀ q ∈ net.inFlight, Allowed q.message)
    {p : Packet ν M} (hp : p ∈ net.inFlight) (e : ε) :
    ∀ q ∈ (delivered P net p e).inFlight, Allowed q.message := by
  intro q hq
  rcases Multiset.mem_add.mp hq with hold | hnew
  · exact h q (Multiset.mem_of_mem_erase hold)
  · split_ifs at hnew
    · rw [(mem_forwarded.mp hnew).2.2.2]
      exact h p hp
    · exact absurd hnew (Multiset.notMem_zero q)

theorem terminates_of_ranked (h : Ranked rank Allowed P) {net : Network ν S M}
    (hnet : ∀ p ∈ net.inFlight, Allowed p.message) : Terminates P net := by
  apply terminates_of_acc
  generalize hk : potential rank net = k
  induction k using Nat.strong_induction_on generalizing net with
  | h k ih =>
    refine ⟨_, fun next hstep => ?_⟩
    cases hstep with
    | deliver hp e =>
      exact ih _ (hk ▸ potential_delivered h hp (hnet _ hp) e) (allowed_delivered hnet hp e) rfl

end Rank

section Walk

def Onward (peers : ν → Finset ν) (next edge : Option ν × ν) : Prop :=
  next.1 = some edge.2 ∧ next.2 ∈ peers edge.2 ∧ some next.2 ≠ edge.1

def edge (p : Packet ν M) : Option ν × ν := (p.sender, p.target)

omit [DecidableEq ν] in
theorem onward_wellFounded {peers : ν → Finset ν} (h : ¬ EndlessWalk peers) :
    WellFounded (Onward peers) := by
  rw [wellFounded_iff_isEmpty_descending_chain]
  refine ⟨fun ⟨chain, hchain⟩ => h ⟨fun n => (chain n).2, fun n => ?_⟩⟩
  obtain ⟨hsource, hpeer, _⟩ := hchain n
  obtain ⟨_, _, hback⟩ := hchain (n + 1)
  refine ⟨hpeer, fun hturn => hback ?_⟩
  rw [hsource]
  exact congrArg some hturn

/-- A delivery cuts one edge and grows only edges onward from it. -/
theorem cutExpand_delivered {net : Network ν S M} {p : Packet ν M} (hp : p ∈ net.inFlight) (e : ε) :
    Relation.CutExpand (Onward P.peers) ((delivered P net p e).inFlight.map edge)
      (net.inFlight.map edge) := by
  let grown := if (P.handle p.target e (net.stores p.target) p.message).1 then forwarded P p else 0
  refine ⟨grown.map edge, edge p, fun a ha => ?_, ?_⟩
  · obtain ⟨q, hq, rfl⟩ := Multiset.mem_map.mp ha
    by_cases hdone : (P.handle p.target e (net.stores p.target) p.message).1 = true
    · rw [show grown = forwarded P p from if_pos hdone] at hq
      obtain ⟨hs, ht, hne, _⟩ := mem_forwarded.mp hq
      exact ⟨hs, ht, hne⟩
    · rw [show grown = 0 from if_neg hdone] at hq
      exact absurd hq (Multiset.notMem_zero q)
  · have hcons : net.inFlight.map edge = edge p ::ₘ (net.inFlight.erase p).map edge := by
      rw [← Multiset.map_cons, Multiset.cons_erase hp]
    have hflight : (delivered P net p e).inFlight = net.inFlight.erase p + grown := rfl
    rw [hflight, Multiset.map_add, hcons, Multiset.cons_add, Multiset.add_comm _ {edge p},
      Multiset.singleton_add]

theorem terminates_of_no_walk (h : ¬ EndlessWalk P.peers) (net : Network ν S M) :
    Terminates P net := by
  apply terminates_of_acc
  have hwf := (onward_wellFounded h).cutExpand
  generalize hedges : net.inFlight.map edge = edges
  induction edges using hwf.induction generalizing net with
  | h edges ih =>
    refine ⟨_, fun next hstep => ?_⟩
    cases hstep with
    | deliver hp e => exact ih _ (hedges ▸ cutExpand_delivered hp e) _ rfl

end Walk
end Flooding
