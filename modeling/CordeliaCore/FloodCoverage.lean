import CordeliaCore.Flooding
import Mathlib.Logic.Relation

set_option autoImplicit false

namespace Flooding

universe u v w x
variable {ν : Type u} {S : Type v} {M : Type w} {ε : Type x}

/-- Open nodes take every allowed message in. Any node that takes one in has an
    effect, keeps it, and takes in no other message with it. -/
structure Absorbing (Inv : S → Prop) (Has : M → S → Prop) (Open : ν → Prop) (Allowed : M → Prop)
    (P : Protocol ν S M ε) : Prop where
  inv : ∀ n e s m, Allowed m → Inv s → Inv (P.handle n e s m).2
  takes : ∀ n e s m, Open n → Allowed m → Inv s → Has m (P.handle n e s m).2
  keeps : ∀ n e s m m', Allowed m → Allowed m' → Inv s → Has m' s → Has m' (P.handle n e s m).2
  effect : ∀ n e s m, Allowed m → Inv s → ¬ Has m s → Has m (P.handle n e s m).2 →
    (P.handle n e s m).1 = true
  only : ∀ n e s m m', Allowed m → Allowed m' → m' ≠ m → Inv s → Has m' (P.handle n e s m).2 →
    Has m' s

def Informed (Has : M → S → Prop) (m : M) (net : Network ν S M) (n : ν) : Prop :=
  Has m (net.stores n) ∨ ∃ p ∈ net.inFlight, p.target = n ∧ p.message = m

/-- The state of a flood: holders have informed their open peers, and an open
    sender holds what it sent. -/
structure Spreading (Inv : S → Prop) (Has : M → S → Prop) (Open : ν → Prop) (Allowed : M → Prop)
    (peers : ν → Finset ν) (net : Network ν S M) : Prop where
  stores : ∀ n, Inv (net.stores n)
  allowed : ∀ p ∈ net.inFlight, Allowed p.message
  senders : ∀ p ∈ net.inFlight, ∀ n ∈ p.sender, Open n → Has p.message (net.stores n)
  onward : ∀ m, Allowed m → ∀ n, Has m (net.stores n) → ∀ q ∈ peers n, Open q → Informed Has m net q

def OpenHop (peers : ν → Finset ν) (Open : ν → Prop) (a b : ν) : Prop :=
  b ∈ peers a ∧ Open b

variable [DecidableEq ν] [DecidableEq M] {P : Protocol ν S M ε}
variable {Inv : S → Prop} {Has : M → S → Prop} {Open : ν → Prop} {Allowed : M → Prop}

theorem mem_delivered_cases {net : Network ν S M} {p q : Packet ν M} {e : ε}
    (h : q ∈ (delivered P net p e).inFlight) :
    q ∈ net.inFlight ∨ (P.handle p.target e (net.stores p.target) p.message).1 = true ∧
      q.sender = some p.target ∧ q.message = p.message := by
  rcases Multiset.mem_add.mp h with hold | hnew
  · exact .inl (Multiset.mem_of_mem_erase hold)
  · split_ifs at hnew with heffect
    · obtain ⟨hs, _, _, hm⟩ := mem_forwarded.mp hnew
      exact .inr ⟨heffect, hs, hm⟩
    · exact absurd hnew (Multiset.notMem_zero q)

namespace Spreading

section Deliver
variable (ha : Absorbing Inv Has Open Allowed P) {net : Network ν S M} {p : Packet ν M}
variable (h : Spreading Inv Has Open Allowed P.peers net) (hp : p ∈ net.inFlight) (e : ε)
include ha h hp

theorem keeps_delivered {m : M} (hm : Allowed m) {n : ν} (hn : Has m (net.stores n)) :
    Has m ((delivered P net p e).stores n) := by
  by_cases hself : n = p.target
  · subst hself
    rw [delivered_stores_self]
    exact ha.keeps _ e _ _ m (h.allowed p hp) hm (h.stores _) hn
  · rw [delivered_stores_of_ne p e hself]
    exact hn

/-- The packet handed over was for its target alone, and the target has it now. -/
theorem informed_delivered {m : M} (hm : Allowed m) {n : ν} (hopen : Open n)
    (hn : Informed Has m net n) : Informed Has m (delivered P net p e) n := by
  rcases hn with hholds | ⟨q, hq, rfl, rfl⟩
  · exact .inl (keeps_delivered ha h hp e hm hholds)
  by_cases hqp : q = p
  · subst hqp
    refine .inl ?_
    rw [delivered_stores_self]
    exact ha.takes _ e _ _ hopen hm (h.stores _)
  · exact .inr ⟨q, mem_delivered_of_ne hq hqp e, rfl, rfl⟩

/-- A node that takes its packet in informs every open peer: by a copy, or
    because the packet came from there. -/
theorem onward_of_taken {m : M} (hm : Allowed m) {n : ν} (hnew : ¬ Has m (net.stores n))
    (hholds : Has m ((delivered P net p e).stores n)) {q : ν} (hq : q ∈ P.peers n)
    (hopen : Open q) : Informed Has m (delivered P net p e) q := by
  have hn : n = p.target := by
    by_contra hne
    rw [delivered_stores_of_ne p e hne] at hholds
    exact hnew hholds
  subst hn
  rw [delivered_stores_self] at hholds
  have hpm := h.allowed p hp
  have hmp : m = p.message := by
    by_contra hne
    exact hnew (ha.only _ e _ _ m hpm hm hne (h.stores _) hholds)
  subst hmp
  have heffect := ha.effect _ e _ _ hm (h.stores _) hnew hholds
  by_cases hback : some q = p.sender
  · exact .inl (keeps_delivered ha h hp e hm (h.senders p hp q hback.symm hopen))
  · exact .inr ⟨_, mem_delivered_of_effect heffect hq hback, rfl, rfl⟩

theorem delivered : Spreading Inv Has Open Allowed P.peers (delivered P net p e) where
  stores n := by
    by_cases hself : n = p.target
    · subst hself
      rw [delivered_stores_self]
      exact ha.inv _ e _ _ (h.allowed p hp) (h.stores _)
    · rw [delivered_stores_of_ne p e hself]
      exact h.stores n
  allowed := allowed_delivered h.allowed hp e
  senders := by
    intro q hq n hn hopen
    rcases mem_delivered_cases hq with hold | ⟨_, hs, hm⟩
    · exact keeps_delivered ha h hp e (h.allowed q hold) (h.senders q hold n hn hopen)
    · rw [hs, Option.mem_some_iff] at hn
      subst hn
      rw [hm, delivered_stores_self]
      exact ha.takes _ e _ _ hopen (h.allowed p hp) (h.stores _)
  onward := by
    intro m hm n hholds q hq hopen
    by_cases hbefore : Has m (net.stores n)
    · exact informed_delivered ha h hp e hm hopen (h.onward m hm n hbefore q hq hopen)
    · exact onward_of_taken ha h hp e hm hbefore hholds hq hopen

end Deliver

theorem steps (ha : Absorbing Inv Has Open Allowed P) {net final : Network ν S M}
    (h : Spreading Inv Has Open Allowed P.peers net)
    (hsteps : Relation.ReflTransGen (Step P) net final) :
    Spreading Inv Has Open Allowed P.peers final ∧
      ∀ m, Allowed m → ∀ n, Open n → Informed Has m net n → Informed Has m final n := by
  induction hsteps with
  | refl => exact ⟨h, fun m _ n _ hn => hn⟩
  | tail _ hstep ih =>
    obtain ⟨hmid, hinformed⟩ := ih
    cases hstep with
    | deliver hp e =>
      exact ⟨hmid.delivered ha hp e, fun m hm n hopen hn =>
        informed_delivered ha hmid hp e hm hopen (hinformed m hm n hopen hn)⟩

end Spreading

/-- A flood at rest has reached whatever open nodes connect. -/
theorem holds_at_rest (ha : Absorbing Inv Has Open Allowed P) {net final : Network ν S M}
    (h : Spreading Inv Has Open Allowed P.peers net)
    (hsteps : Relation.ReflTransGen (Step P) net final) (hrest : final.inFlight = 0)
    {m : M} (hm : Allowed m) {start n : ν} (hopen : Open start) (hstart : Informed Has m net start)
    (hpath : Relation.ReflTransGen (OpenHop P.peers Open) start n) : Has m (final.stores n) := by
  obtain ⟨hfinal, hinformed⟩ := h.steps ha hsteps
  have hholds : ∀ k, Informed Has m final k → Has m (final.stores k) := by
    rintro k (hk | ⟨p, hp, _⟩)
    · exact hk
    · rw [hrest] at hp
      exact absurd hp (Multiset.notMem_zero p)
  induction hpath with
  | refl => exact hholds start (hinformed m hm start hopen hstart)
  | tail _ hhop ih => exact hholds _ (hfinal.onward m hm _ ih _ hhop.1 hhop.2)

end Flooding
