import CordeliaCore.GovernorBounds

set_option autoImplicit false

namespace CordeliaCore.PeerGovernor
open KeyedTable

def stateOf (g : Governor) (id : NodeId) : Option PeerState := (g.peers.lookup id).map PeerInfo.state

section Operations
variable (g : Governor) {e : Edit PeerInfo.nodeId (fun _ => True)} (id k : NodeId)

theorem stateOf_eq_some_iff {g : Governor} {id : NodeId} {s : PeerState} :
    stateOf g id = some s ↔ ∃ peer, g.peers.lookup id = some peer ∧ peer.state = s :=
  Option.map_eq_some_iff

theorem stateOf_eq_none_iff {g : Governor} {id : NodeId} :
    stateOf g id = none ↔ g.peers.lookup id = none :=
  Option.map_eq_none_iff

theorem lookup_modifyPeer :
    (modifyPeer g e id).peers.lookup k =
      (g.peers.lookup k).map (fun p => if k = id then e.apply p else p) :=
  g.peers.lookup_modify e id k

theorem stateOf_modifyPeer {f : PeerState → PeerState}
    (he : ∀ peer, (e.apply peer).state = f peer.state) :
    stateOf (modifyPeer g e id) k = (stateOf g k).map (fun s => if k = id then f s else s) := by
  unfold stateOf
  rw [lookup_modifyPeer, Option.map_map, Option.map_map]
  congr 1
  funext peer
  by_cases hk : k = id
  · simp [hk, he]
  · simp [hk]

theorem stateOf_modifyPeer_same (he : ∀ peer, (e.apply peer).state = peer.state) :
    stateOf (modifyPeer g e id) k = stateOf g k := by
  rw [stateOf_modifyPeer (f := fun s => s) g id k he]
  simp

theorem stateOf_modifyPeer_only (q : PeerState → Bool) {target : PeerState}
    (he : ∀ peer, (e.apply peer).state = target) :
    stateOf (modifyPeer g (e.only (fun p => q p.state)) id) k =
      (stateOf g k).map (fun s => if k = id ∧ q s = true then target else s) := by
  have honly : ∀ peer, ((e.only (fun p => q p.state)).apply peer).state =
      if q peer.state then target else peer.state := by
    intro peer
    by_cases hq : q peer.state = true
    · rw [Edit.only_of_pos e hq, he, if_pos hq]
    · rw [Edit.only_of_neg e hq, if_neg hq]
  refine (stateOf_modifyPeer (f := fun s => if q s then target else s) g id k honly).trans ?_
  congr 1
  funext s
  by_cases hk : k = id <;> simp [hk]

theorem lookup_addPeer (now : ℕ) (addrs : List Multiaddr) (groups : List GroupId) :
    (addPeer g now id addrs groups).peers.lookup k =
      if k = id then some ((g.peers.lookup id).elim (.new now id addrs groups)
        (fun p => { p with addrs := addrs, groups := groups }))
      else g.peers.lookup k := by
  unfold addPeer
  cases hpeer : g.peers.lookup id with
  | some peer =>
    dsimp only
    rw [lookup_modifyPeer]
    by_cases hk : k = id
    · simp [hk, hpeer, editing]
    · simp [hk]
  | none =>
    dsimp only
    rw [Table.lookup_put]
    exact if_congr eq_comm rfl rfl

theorem lookup_setPeerRelay (isRelay : Bool) :
    (setPeerRelay g id isRelay).peers.lookup k =
      (g.peers.lookup k).map (fun p => if k = id then { p with isRelay := isRelay } else p) :=
  lookup_modifyPeer g id k

theorem stateOf_addPeer (now : ℕ) (addrs : List Multiaddr) (groups : List GroupId) :
    stateOf (addPeer g now id addrs groups) k =
      if k = id then some ((stateOf g id).getD .cold) else stateOf g k := by
  unfold stateOf
  rw [lookup_addPeer]
  split_ifs
  · cases g.peers.lookup id <;> rfl
  · rfl

theorem stateOf_markConnected (now : ℕ) :
    stateOf (markConnected g now id) k =
      (stateOf g k).map (fun s => if k = id ∧ s = .cold then .warm else s) := by
  have hstate := stateOf_modifyPeer_only (e := connected now) g id k (fun s => s = .cold)
    (fun _ => rfl)
  simp only [decide_eq_true_eq] at hstate
  exact hstate

theorem stateOf_markDisconnected (now : ℕ) :
    stateOf (markDisconnected g now id) k =
      (stateOf g k).map (fun s => if k = id ∧ s.isActive then .cold else s) :=
  stateOf_modifyPeer_only (e := disconnected now) g id k PeerState.isActive (fun _ => rfl)

/-- A ban of a peer in a state: it escalates when the peer is banned already. -/
def bannedFrom (now : ℕ) (reason : String) (s : PeerState) : PeerState :=
  .banned (now + defaultBanDuration * (nextEscalation s).toNat) reason (nextEscalation s)

theorem stateOf_banPeer (now : ℕ) (reason : String) :
    stateOf (banPeer g now id reason) k =
      (stateOf g k).map (fun s => if k = id then bannedFrom now reason s else s) :=
  stateOf_modifyPeer g id k (fun _ => rfl)

end Operations

section Replace
variable (g : Governor) {old new : NodeId} (groups : List GroupId) (k : NodeId)

theorem stateOf_moveEntry_none (h : stateOf g old = none) :
    (moveEntry g old new groups).1 = g := by
  unfold moveEntry
  rw [stateOf_eq_none_iff.mp h]

theorem lookup_moveEntry {peer : PeerInfo} (h : g.peers.lookup old = some peer) :
    (moveEntry g old new groups).1.peers.lookup k =
      if k = new then some { peer with nodeId := new, groups := groups }
      else if k = old then none else g.peers.lookup k := by
  unfold moveEntry
  rw [h]
  change ((g.peers.erase old).put { peer with nodeId := new, groups := groups } trivial).lookup k = _
  rw [Table.lookup_put, Table.lookup_erase]
  by_cases hk : k = new
  · rw [if_pos hk.symm, if_pos hk]
  · rw [if_neg (fun h => hk h.symm), if_neg hk]

theorem stateOf_moveEntry {s : PeerState} (h : stateOf g old = some s) :
    stateOf (moveEntry g old new groups).1 k =
      if k = new then some s else if k = old then none else stateOf g k := by
  obtain ⟨peer, hpeer, rfl⟩ := stateOf_eq_some_iff.mp h
  unfold stateOf
  rw [lookup_moveEntry g groups k hpeer]
  split_ifs <;> rfl

theorem lookup_dropPlaceholder {peer : PeerInfo} (h : g.peers.lookup old = some peer) :
    (dropPlaceholder g old new).peers.lookup k =
      if k = old then none
      else (g.peers.lookup k).map (fun p =>
        if k = new ∧ peer.isRelay = true then { p with isRelay := true } else p) := by
  unfold dropPlaceholder
  rw [h]
  dsimp only
  by_cases hrelay : peer.isRelay = true
  · rw [if_pos hrelay, setPeerRelay, lookup_modifyPeer, Table.lookup_erase]
    by_cases hk : k = old
    · rw [if_pos hk, if_pos hk, Option.map_none]
    · rw [if_neg hk, if_neg hk]
      simp only [hrelay, and_true]
      rfl
  · rw [if_neg hrelay, Table.lookup_erase]
    simp [hrelay]

theorem dropPlaceholder_of_none (h : g.peers.lookup old = none) : dropPlaceholder g old new = g := by
  unfold dropPlaceholder
  rw [h]

theorem stateOf_dropPlaceholder :
    stateOf (dropPlaceholder g old new) k = if k = old then none else stateOf g k := by
  cases hpeer : g.peers.lookup old with
  | none =>
    rw [dropPlaceholder_of_none g hpeer]
    split_ifs with hk
    · rw [hk, stateOf, hpeer, Option.map_none]
    · rfl
  | some peer =>
    unfold stateOf
    rw [lookup_dropPlaceholder g k hpeer]
    by_cases hk : k = old
    · rw [if_pos hk, if_pos hk, Option.map_none]
    · rw [if_neg hk, if_neg hk, Option.map_map]
      congr 1
      funext p
      dsimp only [Function.comp]
      split_ifs <;> rfl

def idle (id : NodeId) : Bool := (stateOf g id).all (fun s => !s.isActive)

theorem replaceNodeId_of_idle (h : idle g new = true) :
    replaceNodeId g old new groups = moveEntry g old new groups := by
  unfold replaceNodeId
  cases hpeer : g.peers.lookup new with
  | none => rfl
  | some peer =>
    rw [idle, stateOf_eq_some_iff.mpr ⟨peer, hpeer, rfl⟩] at h
    dsimp only
    rw [if_neg (by simpa using h)]

theorem replaceNodeId_of_live (h : idle g new = false) :
    replaceNodeId g old new groups = (dropPlaceholder g old new, true) := by
  unfold replaceNodeId
  cases hpeer : g.peers.lookup new with
  | none =>
    rw [idle, stateOf_eq_none_iff.mpr hpeer] at h
    cases h
  | some peer =>
    rw [idle, stateOf_eq_some_iff.mpr ⟨peer, hpeer, rfl⟩] at h
    dsimp only
    rw [if_pos (by simpa using h)]

theorem stateOf_replaceNodeId_none (h : stateOf g old = none) :
    stateOf (replaceNodeId g old new groups).1 k = stateOf g k := by
  cases hidle : idle g new with
  | true => rw [replaceNodeId_of_idle g groups hidle, stateOf_moveEntry_none g groups h]
  | false =>
    rw [replaceNodeId_of_live g groups hidle, stateOf_dropPlaceholder]
    split_ifs with hk
    · rw [hk, h]
    · rfl

/-- A live entry of the new id stays; any other gives way. -/
theorem stateOf_replaceNodeId (hne : old ≠ new) {s : PeerState} (h : stateOf g old = some s) :
    stateOf (replaceNodeId g old new groups).1 k =
      if k = old then none else if k = new ∧ idle g new = true then some s else stateOf g k := by
  cases hidle : idle g new with
  | true =>
    rw [replaceNodeId_of_idle g groups hidle, stateOf_moveEntry g groups k h]
    by_cases hk : k = new
    · rw [if_pos hk, if_neg (fun hold => hne (hold.symm.trans hk)), if_pos ⟨hk, rfl⟩]
    · simp [hk]
  | false =>
    rw [replaceNodeId_of_live g groups hidle, stateOf_dropPlaceholder]
    simp

theorem stateOf_replaceNodeId_self (id : NodeId) :
    stateOf (replaceNodeId g id id groups).1 k =
      if k = id ∧ idle g id = false then none else stateOf g k := by
  cases hidle : idle g id with
  | true =>
    rw [replaceNodeId_of_idle g groups hidle, if_neg (fun hboth => by cases hboth.2)]
    cases hs : stateOf g id with
    | none => rw [stateOf_moveEntry_none g groups hs]
    | some s =>
      rw [stateOf_moveEntry g groups k hs]
      split_ifs with hk
      · rw [hk, hs]
      · rfl
  | false =>
    rw [replaceNodeId_of_live g groups hidle, stateOf_dropPlaceholder]
    simp

end Replace

section Phases
variable {g g' : Governor}

theorem Evicts.stateOf_eq (h : Evicts g g') (id : NodeId) :
    stateOf g' id = stateOf g id ∨ stateOf g' id = none ∧ stateOf g id = some .cold := by
  rcases h.lookup id with hsame | ⟨hnone, peer, hpeer, hcold⟩
  · exact .inl (congrArg (Option.map PeerInfo.state) hsame)
  · refine .inr ⟨?_, stateOf_eq_some_iff.mpr ⟨peer, hpeer, hcold⟩⟩
    exact stateOf_eq_none_iff.mpr hnone

end Phases

section Example

def evenFloats : Floats ℕ := ⟨fun _ _ => 0, 0, fun _ warm => warm⟩

def churning : GovernorTargets := ⟨0, 0, 0, 0, 10, 0, 1⟩

def plainOrder : Iteration := ⟨fun peers => peers, .refl⟩

def freshGovernor : Governor := withDialPolicy 0 churning [] .all

end Example
end CordeliaCore.PeerGovernor
