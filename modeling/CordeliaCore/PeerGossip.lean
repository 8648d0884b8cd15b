import CordeliaCore.GovernorLoop
import CordeliaCore.PeerStates

set_option autoImplicit false

namespace CordeliaCore.GovernorLoop
open ProtocolMessages PeerGovernor KeyedTable

section Entries
variable {old middle new : PeerInfo}

structure Gossiped (old new : PeerInfo) : Prop where
  rest_eq : new = { old with addrs := new.addrs, groups := new.groups, isRelay := new.isRelay }
  active : old.state.isActive = true → new = old
  isRelay : old.isRelay = true → new.isRelay = true
  addrs : old.addrs ≠ [] → new.addrs ≠ []

theorem Gossiped.refl (peer : PeerInfo) : Gossiped peer peer := ⟨rfl, fun _ => rfl, id, id⟩

theorem Gossiped.state_eq (h : Gossiped old new) : new.state = old.state := by
  rw [h.rest_eq]

theorem Gossiped.trans (h : Gossiped old middle) (h' : Gossiped middle new) : Gossiped old new where
  rest_eq := by
    rw [h'.rest_eq, h.rest_eq]
  active hactive := by
    rw [h'.active (h.state_eq ▸ hactive), h.active hactive]
  isRelay hrelay := h'.isRelay (h.isRelay hrelay)
  addrs haddrs := h'.addrs (h.addrs haddrs)

end Entries

section Tables
variable {ourPeerId : NodeId} {g₁ g₂ g₃ : Governor}

structure Spreads (ourPeerId : NodeId) (g₁ g₂ : Governor) : Prop where
  own : g₂.peers.lookup ourPeerId = g₁.peers.lookup ourPeerId
  known : ∀ {id old}, g₁.peers.lookup id = some old →
    ∃ new, g₂.peers.lookup id = some new ∧ Gossiped old new
  fresh : ∀ {id new}, g₁.peers.lookup id = none → g₂.peers.lookup id = some new →
    new.state = .cold ∧ new.addrs ≠ []

theorem Spreads.refl (ourPeerId : NodeId) (g : Governor) : Spreads ourPeerId g g where
  own := rfl
  known {_ old} hold := ⟨old, hold, .refl old⟩
  fresh hnone hnew := by
    rw [hnone] at hnew
    cases hnew

theorem Spreads.trans (h : Spreads ourPeerId g₁ g₂) (h' : Spreads ourPeerId g₂ g₃) :
    Spreads ourPeerId g₁ g₃ where
  own := h'.own.trans h.own
  known hold := by
    obtain ⟨middle, hmiddle, hfirst⟩ := h.known hold
    obtain ⟨new, hnew, hsecond⟩ := h'.known hmiddle
    exact ⟨new, hnew, hfirst.trans hsecond⟩
  fresh {id new} hnone hnew := by
    cases hmiddle : g₂.peers.lookup id with
    | none => exact h'.fresh hmiddle hnew
    | some middle =>
      obtain ⟨hcold, haddrs⟩ := h.fresh hnone hmiddle
      obtain ⟨last, hlast, hgossiped⟩ := h'.known hmiddle
      rw [hnew] at hlast
      cases hlast
      exact ⟨hgossiped.state_eq.trans hcold, hgossiped.addrs haddrs⟩

end Tables

section Operations
variable {ourPeerId : NodeId} {g : Governor} {id : NodeId}

def Idle (g : Governor) (id : NodeId) : Prop :=
  ∀ peer, g.peers.lookup id = some peer → ¬ peer.state.isActive = true

theorem addPeer_spreads (hother : id ≠ ourPeerId) (hidle : Idle g id) (now : ℕ)
    {addrs : List Multiaddr} (haddrs : addrs ≠ []) (groups : List GroupId) :
    Spreads ourPeerId g (addPeer g now id addrs groups) where
  own := by rw [lookup_addPeer, if_neg hother.symm]
  known {k old} hold := by
    rw [lookup_addPeer]
    by_cases hk : k = id
    · subst hk
      rw [if_pos rfl, hold]
      exact ⟨_, rfl, rfl, fun hactive => absurd hactive (hidle old hold), fun h => h,
        fun _ => haddrs⟩
    · rw [if_neg hk]
      exact ⟨old, hold, .refl old⟩
  fresh {k new} hnone hnew := by
    rw [lookup_addPeer] at hnew
    by_cases hk : k = id
    · subst hk
      rw [if_pos rfl, hnone] at hnew
      cases hnew
      exact ⟨rfl, haddrs⟩
    · rw [if_neg hk, hnone] at hnew
      cases hnew

theorem addPeer_idle (hidle : Idle g id) (now : ℕ) (addrs : List Multiaddr)
    (groups : List GroupId) : Idle (addPeer g now id addrs groups) id := by
  intro peer hpeer
  rw [lookup_addPeer, if_pos rfl] at hpeer
  cases hold : g.peers.lookup id with
  | none =>
    rw [hold] at hpeer
    cases hpeer
    exact Bool.false_ne_true
  | some old =>
    rw [hold] at hpeer
    cases hpeer
    exact hidle old hold

theorem setPeerRelay_spreads (hother : id ≠ ourPeerId) (hidle : Idle g id) :
    Spreads ourPeerId g (setPeerRelay g id true) where
  own := by
    rw [lookup_setPeerRelay]
    cases g.peers.lookup ourPeerId <;> simp [hother.symm]
  known {k old} hold := by
    rw [lookup_setPeerRelay, hold, Option.map_some]
    by_cases hk : k = id
    · subst hk
      rw [if_pos rfl]
      exact ⟨_, rfl, rfl, fun hactive => absurd hactive (hidle old hold), fun _ => rfl, fun h => h⟩
    · rw [if_neg hk]
      exact ⟨old, rfl, .refl old⟩
  fresh {k new} hnone hnew := by
    rw [lookup_setPeerRelay, hnone] at hnew
    cases hnew

end Operations

section Discovery
variable [Libp2p] (now : ℕ) (ourPeerId : NodeId)

theorem discoverPeer_spreads (g : Governor) (pa : PeerAddress) :
    Spreads ourPeerId g (discoverPeer now ourPeerId g pa) := by
  unfold discoverPeer
  cases Libp2p.parsePeerId pa.peerId with
  | none => exact .refl ourPeerId g
  | some id =>
    dsimp only
    by_cases hskip : id = ourPeerId ∨ (g.peers.lookup id).any (·.state.isActive) ∨
        pa.addrs.filterMap Libp2p.parseMultiaddr = []
    · rw [if_pos hskip]
      exact .refl ourPeerId g
    rw [if_neg hskip]
    rw [not_or, not_or] at hskip
    obtain ⟨hother, hinactive, haddrs⟩ := hskip
    have hidle : Idle g id := by
      intro peer hpeer
      rwa [hpeer] at hinactive
    have hadded := addPeer_spreads hother hidle now haddrs pa.groups
    split_ifs
    · exact hadded.trans (setPeerRelay_spreads hother (addPeer_idle hidle now _ pa.groups))
    · exact hadded

theorem discovered_spreads (heard : List PeerAddress) (g : Governor) :
    Spreads ourPeerId g (heard.foldl (discoverPeer now ourPeerId) g) := by
  induction heard generalizing g with
  | nil => exact .refl ourPeerId g
  | cons pa heard ih =>
    rw [List.foldl_cons]
    exact (discoverPeer_spreads now ourPeerId g pa).trans (ih _)

/-- Whatever the relays tell, the node does not learn its own id, an active peer keeps its
    entry, and any known peer its state, its failures and its relay flag. -/
theorem gossip_keeps_known (heard : List PeerAddress) (t : GovernorTask) :
    let before := t.governor.peers
    let after := (onPeersDiscovered now ourPeerId heard t).governor.peers
    after.lookup ourPeerId = before.lookup ourPeerId ∧
      (∀ id old, before.lookup id = some old → ∃ new, after.lookup id = some new ∧
        (old.state.isActive = true → new = old) ∧ new.state = old.state ∧
          new.disconnectCount = old.disconnectCount ∧
          new.lastDisconnected = old.lastDisconnected ∧
          (old.isRelay = true → new.isRelay = true)) ∧
      ∀ id new, before.lookup id = none → after.lookup id = some new →
        new.state = .cold ∧ new.addrs ≠ [] := by
  intro before after
  have hspreads := discovered_spreads now ourPeerId heard t.governor
  refine ⟨hspreads.own, ?_, fun id new hnone hnew => hspreads.fresh hnone hnew⟩
  intro id old hold
  obtain ⟨new, hnew, hgossiped⟩ := hspreads.known hold
  refine ⟨new, hnew, hgossiped.active, hgossiped.state_eq, ?_, ?_, hgossiped.isRelay⟩
  · rw [hgossiped.rest_eq]
  · rw [hgossiped.rest_eq]

end Discovery
end CordeliaCore.GovernorLoop
