import CordeliaCore.PeerPool
import CordeliaCore.PeerStates

set_option autoImplicit false

namespace CordeliaCore.PeerPool
open KeyedTable PeerGovernor

def poolState (pool : Pool) (id : NodeId) : Option PeerState :=
  (pool.lookup id).map PeerHandle.state

def activeState (g : Governor) (id : NodeId) : Option PeerState :=
  (stateOf g id).filter PeerState.isActive

/-- The pool holds the warm and hot peers of the governor, in their states. -/
def Agrees (pool : Pool) (g : Governor) : Prop := ∀ id, poolState pool id = activeState g id

section Replay
variable (pool : Pool) (id k : NodeId)

theorem poolState_modify {e : Edit PeerHandle.nodeId (fun _ => True)} {f : PeerState → PeerState}
    (he : ∀ handle, (e.apply handle).state = f handle.state) :
    poolState (pool.modify e id) k = (poolState pool k).map (fun s => if k = id then f s else s) := by
  unfold poolState
  rw [Table.lookup_modify, Option.map_map, Option.map_map]
  congr 1
  funext handle
  by_cases hk : k = id
  · simp [hk, he]
  · simp [hk]

theorem poolState_setState (s : PeerState) :
    poolState (setState pool id s) k = (poolState pool k).map (fun t => if k = id then s else t) :=
  poolState_modify pool id k (f := fun _ => s) (fun _ => rfl)

theorem poolState_remove :
    poolState (remove pool id) k = if k = id then none else poolState pool k := by
  unfold poolState remove
  rw [Table.lookup_erase]
  split_ifs <;> rfl

theorem poolState_insert (sets : GroupSets) (addrs : List Multiaddr) (groups : List GroupId)
    (s : PeerState) (protocolVersion : UInt16) (isRelay : Bool) :
    poolState (PeerPool.insert pool sets id addrs groups s protocolVersion isRelay) k =
      if k = id then some s else poolState pool k := by
  unfold poolState PeerPool.insert
  rw [Table.lookup_put]
  dsimp only
  by_cases hk : k = id
  · rw [if_pos hk.symm, if_pos hk]
    rfl
  · rw [if_neg (fun h => hk h.symm), if_neg hk]

theorem applyTransition_of_active {s : PeerState} (h : s.isActive = true) (before : String) :
    applyTransition pool (id, before, s.name) = setState pool id s := by
  cases s with
  | warm => rfl
  | hot => rfl
  | _ => cases h

theorem applyTransitions_append (xs ys : List (NodeId × String × String)) :
    applyTransitions pool (xs ++ ys) = applyTransitions (applyTransitions pool xs) ys :=
  List.foldl_append

theorem applyTransitions_cold (peers : List PeerInfo) :
    applyTransitions pool (peers.map (fun p => (p.nodeId, p.state.name, "cold"))) = pool := by
  induction peers with
  | nil => rfl
  | cons peer peers ih => exact ih

theorem applyTransition_isSome (transition : NodeId × String × String) :
    (poolState (applyTransition pool transition) k).isSome = (poolState pool k).isSome := by
  unfold applyTransition
  split_ifs
  · rw [poolState_setState, Option.isSome_map]
  · rw [poolState_setState, Option.isSome_map]
  · rfl

theorem applyTransitions_isSome (transitions : List (NodeId × String × String)) :
    (poolState (applyTransitions pool transitions) k).isSome = (poolState pool k).isSome := by
  induction transitions generalizing pool with
  | nil => rfl
  | cons transition transitions ih =>
    change (poolState (applyTransitions (applyTransition pool transition) transitions) k).isSome = _
    rw [ih, applyTransition_isSome]

theorem foldl_applyDisconnect (ids : List NodeId) (s : Pool × List NodeId) :
    (∀ k, poolState (ids.foldl applyDisconnect s).1 k =
        if k ∈ ids then none else poolState s.1 k) ∧
      ∀ k, k ∈ (ids.foldl applyDisconnect s).2 ↔ k ∈ s.2 ∨ k ∈ ids ∧ (poolState s.1 k).isSome := by
  induction ids generalizing s with
  | nil => simp
  | cons id ids ih =>
    obtain ⟨hstates, hreturned⟩ := ih (applyDisconnect s id)
    rw [List.foldl_cons]
    cases hid : s.1.lookup id with
    | some handle =>
      have hstep : applyDisconnect s id = (remove s.1 id, s.2 ++ [id]) := by
        simp only [applyDisconnect, hid]
      have hsome : (poolState s.1 id).isSome := by simp [poolState, hid]
      refine ⟨fun k => (hstates k).trans ?_, fun k => (hreturned k).trans ?_⟩
      · rw [hstep, poolState_remove]
        by_cases hk : k = id <;> simp [hk]
      · rw [hstep, poolState_remove]
        by_cases hk : k = id
        · simp [hk, hsome]
        · simp [hk]
    | none =>
      have hstep : applyDisconnect s id = s := by simp only [applyDisconnect, hid]
      have hnone : poolState s.1 id = none := by simp [poolState, hid]
      refine ⟨fun k => (hstates k).trans ?_, fun k => (hreturned k).trans ?_⟩
      · rw [hstep]
        by_cases hk : k = id
        · simp [hk, hnone]
        · simp [hk]
      · rw [hstep]
        by_cases hk : k = id
        · simp [hk, hnone]
        · simp [hk]

theorem poolState_applyDisconnects (ids : List NodeId) :
    poolState (applyDisconnects pool ids).1 k = if k ∈ ids then none else poolState pool k :=
  (foldl_applyDisconnect ids (pool, [])).1 k

theorem mem_applyDisconnects (ids : List NodeId) :
    k ∈ (applyDisconnects pool ids).2 ↔ k ∈ ids ∧ (poolState pool k).isSome := by
  have hmem := (foldl_applyDisconnect ids (pool, [])).2 k
  simpa [applyDisconnects] using hmem

end Replay

section Tracks
variable {pool : Pool} {s : Governor × GovernorActions}

structure Tracks (pool : Pool) (s : Governor × GovernorActions) : Prop where
  follows : ∀ id, id ∉ s.2.disconnect →
    poolState (applyTransitions pool s.2.transitions) id = activeState s.1 id
  gone : ∀ id ∈ s.2.disconnect, activeState s.1 id = none ∧ (poolState pool id).isSome

theorem Tracks.congr (h : Tracks pool s) {s' : Governor × GovernorActions}
    (hactive : ∀ id, activeState s'.1 id = activeState s.1 id)
    (hdisconnect : s'.2.disconnect = s.2.disconnect)
    (htransitions : s'.2.transitions = s.2.transitions) : Tracks pool s' where
  follows id hid := by
    rw [htransitions, hactive]
    exact h.follows id (hdisconnect ▸ hid)
  gone id hid := by
    rw [hactive]
    exact h.gone id (hdisconnect ▸ hid)

def reported (actions : GovernorActions) (id : NodeId) (before : String) (after : PeerState) :
    GovernorActions :=
  { connect := actions.connect
    disconnect := if after = .cold then actions.disconnect ++ [id] else actions.disconnect
    transitions := actions.transitions ++ [(id, before, after.name)] }

section Moved
variable {g : Governor} {id : NodeId} {old new : PeerState}
  (hold : stateOf s.1 id = some old) (hactive : old.isActive = true)
  (hg : ∀ k, stateOf g k = if k = id then some new else stateOf s.1 k)

theorem activeState_moved (hg : ∀ k, stateOf g k = if k = id then some new else stateOf s.1 k)
    (k : NodeId) : activeState g k =
      if k = id then (some new).filter PeerState.isActive else activeState s.1 k := by
  unfold activeState
  rw [hg]
  split_ifs <;> rfl

include hold hactive

/-- An active peer is not among those to be disconnected, and the replayed log has it. -/
theorem Tracks.present (h : Tracks pool s) : id ∉ s.2.disconnect ∧
    poolState (applyTransitions pool s.2.transitions) id = some old := by
  have hpresent : activeState s.1 id = some old := by simp [activeState, hold, hactive]
  have hfresh : id ∉ s.2.disconnect := by
    intro hid
    rw [(h.gone id hid).1] at hpresent
    cases hpresent
  exact ⟨hfresh, (h.follows id hfresh).trans hpresent⟩

include hg

/-- The pool waits for the disconnection to forget a peer that went cold. -/
theorem Tracks.cooled (h : Tracks pool s) (hnew : new = .cold) (before : String) :
    Tracks pool (g, reported s.2 id before new) := by
  obtain ⟨hfresh, hreplay⟩ := h.present hold hactive
  have hafter := activeState_moved hg
  subst hnew
  refine ⟨fun k hk => ?_, fun k hk => ?_⟩
  · have hk' : k ∉ s.2.disconnect ∧ k ≠ id := by simpa [reported] using hk
    change poolState (applyTransitions pool (_ ++ [(id, before, "cold")])) k = activeState g k
    rw [applyTransitions_append, hafter, if_neg hk'.2, ← h.follows k hk'.1]
    rfl
  · have hk' : k ∈ s.2.disconnect ∨ k = id := by simpa [reported] using hk
    change activeState g k = none ∧ _
    rcases hk' with hk' | rfl
    · have hne : k ≠ id := fun he => hfresh (he ▸ hk')
      rw [hafter, if_neg hne]
      exact h.gone k hk'
    · rw [hafter, if_pos rfl, ← applyTransitions_isSome pool k s.2.transitions, hreplay]
      exact ⟨rfl, rfl⟩

theorem Tracks.kept (h : Tracks pool s) (hnew : new.isActive = true) (before : String) :
    Tracks pool (g, reported s.2 id before new) := by
  obtain ⟨hfresh, hreplay⟩ := h.present hold hactive
  have hafter := activeState_moved hg
  have hnot : new ≠ .cold := by
    rintro rfl
    cases hnew
  refine ⟨fun k hk => ?_, fun k hk => ?_⟩
  · have hk' : k ∉ s.2.disconnect := by simpa [reported, hnot] using hk
    change poolState (applyTransitions pool (_ ++ [(id, before, new.name)])) k = activeState g k
    rw [applyTransitions_append]
    change poolState (applyTransition _ (id, before, new.name)) k = activeState g k
    rw [applyTransition_of_active _ _ hnew, poolState_setState, hafter]
    by_cases hid : k = id
    · rw [hid, hreplay, if_pos rfl, Option.filter_some, if_pos hnew]
      simp
    · rw [← h.follows k hk']
      simp [hid]
  · have hk' : k ∈ s.2.disconnect := by simpa [reported, hnot] using hk
    have hne : k ≠ id := fun he => hfresh (he ▸ hk')
    change activeState g k = none ∧ _
    rw [hafter, if_neg hne]
    exact h.gone k hk'

theorem Tracks.moved (h : Tracks pool s) (hnew : new = .cold ∨ new.isActive = true)
    (before : String) : Tracks pool (g, reported s.2 id before new) :=
  hnew.elim (fun hcold => h.cooled hold hactive hg hcold before)
    (fun hstays => h.kept hold hactive hg hstays before)

end Moved

/-- The edit of an active peer leaves it warm, hot or cold, and the report says so. -/
def Faithful (p : PeerInfo → Bool) (e : Edit PeerInfo.nodeId (fun _ => True))
    (report : PeerInfo → GovernorActions → GovernorActions) : Prop :=
  ∀ peer, p peer = true → peer.state.isActive = true ∧
    ((e.apply peer).state = .cold ∨ (e.apply peer).state.isActive = true) ∧
      ∃ before, ∀ actions,
        report peer actions = reported actions peer.nodeId before (e.apply peer).state

theorem Tracks.forEach {p : PeerInfo → Bool} {e : Edit PeerInfo.nodeId (fun _ => True)}
    {report : PeerInfo → GovernorActions → GovernorActions} (hfaithful : Faithful p e report)
    (h : Tracks pool s) {ids : List NodeId} (hnodup : ids.Nodup)
    (hids : ∀ id ∈ ids, ∃ peer, s.1.peers.lookup id = some peer ∧ p peer = true) :
    Tracks pool (forEach s ids e report) := by
  induction ids generalizing s with
  | nil => exact h
  | cons id ids ih =>
    obtain ⟨hfresh, hnodup⟩ := List.nodup_cons.mp hnodup
    obtain ⟨peer, hpeer, hp⟩ := hids id (List.mem_cons_self)
    obtain ⟨hactive, hnew, before, hreport⟩ := hfaithful peer hp
    have hstep : PeerGovernor.forEach s (id :: ids) e report =
        PeerGovernor.forEach (modifyPeer s.1 e id, report peer s.2) ids e report := by
      simp only [PeerGovernor.forEach, List.foldl_cons, hpeer]
    have hkey : peer.nodeId = id := Table.key_of_lookup hpeer
    rw [hstep, hreport, hkey]
    apply ih
    · refine h.moved (stateOf_eq_some_iff.mpr ⟨peer, hpeer, rfl⟩) hactive (fun k => ?_) hnew before
      unfold stateOf
      rw [lookup_modifyPeer]
      by_cases hk : k = id
      · simp [hk, hpeer]
      · simp [hk]
    · exact hnodup
    · intro k hk
      obtain ⟨other, hother, hpother⟩ := hids k (List.mem_cons_of_mem id hk)
      refine ⟨other, ?_, hpother⟩
      have hne : k ≠ id := fun he => hfresh (he ▸ hk)
      rw [lookup_modifyPeer, hother]
      simp [hne]

theorem Tracks.forEach_picks {p : PeerInfo → Bool} {e : Edit PeerInfo.nodeId (fun _ => True)}
    {report : PeerInfo → GovernorActions → GovernorActions} (hfaithful : Faithful p e report)
    (h : Tracks pool s) {limit : ℕ} {ids : List NodeId} (hids : s.1.peers.Picks p limit ids) :
    Tracks pool (PeerGovernor.forEach s ids e report) := by
  refine h.forEach hfaithful hids.nodup (fun id hid => ?_)
  obtain ⟨peer, hpeer, hp, rfl⟩ := hids.picked id hid
  exact ⟨peer, s.1.peers.lookup_key hpeer, hp⟩

theorem Tracks.agrees (h : Tracks pool s) :
    Agrees (applyGovernorActions pool s.2).1 s.1 := by
  intro id
  unfold applyGovernorActions
  rw [poolState_applyDisconnects]
  split_ifs with hid
  · exact (h.gone id hid).1.symm
  · exact h.follows id hid

theorem Tracks.mem_disconnected_iff (h : Tracks pool s) (id : NodeId) :
    id ∈ (applyGovernorActions pool s.2).2 ↔
      (poolState pool id).isSome ∧ activeState s.1 id = none := by
  unfold applyGovernorActions
  rw [mem_applyDisconnects, applyTransitions_isSome]
  constructor
  · rintro ⟨hid, hsome⟩
    exact ⟨hsome, (h.gone id hid).1⟩
  · rintro ⟨hsome, hnone⟩
    refine ⟨?_, hsome⟩
    by_contra hid
    have hreplay := h.follows id hid
    rw [hnone] at hreplay
    rw [← applyTransitions_isSome pool id s.2.transitions, hreplay] at hsome
    cases hsome

end Tracks

section Phases
variable {α : Type} [LinearOrder α] (floats : Floats α) (iteration : Iteration) (now : ℕ)
  {pool : Pool} {s : Governor × GovernorActions}

theorem activeState_unbanExpired (s : Governor × GovernorActions) (id : NodeId) :
    activeState (unbanExpired iteration now s).1 id = activeState s.1 id := by
  unfold activeState stateOf unbanExpired
  dsimp only
  rw [Table.lookup_edit, Option.map_map]
  cases s.1.peers.lookup id with
  | none => rfl
  | some peer =>
    simp only [Option.map_some, Function.comp_apply]
    by_cases hexpired : expired now peer = true
    · rw [Edit.only_of_pos _ hexpired]
      cases hstate : peer.state with
      | banned expiry reason escalation => rfl
      | _ => simp [expired, hstate] at hexpired
    · rw [Edit.only_of_neg _ hexpired]

theorem Agrees.unbanExpired {g : Governor} (h : Agrees pool g) :
    Tracks pool (unbanExpired iteration now (g, .default)) where
  follows id _ := by
    change poolState (applyTransitions pool (List.map _ _)) id = _
    rw [applyTransitions_cold, activeState_unbanExpired]
    exact h id
  gone id hid := by cases hid

theorem reaped_faithful : Faithful (dead now) (reaped now) reportReaped := by
  intro peer hdead
  simp only [dead, Bool.and_eq_true] at hdead
  refine ⟨hdead.1, ?_⟩
  cases hstate : peer.state with
  | warm =>
    have hcold : ((reaped now).apply peer).state = .cold := by
      simp [reaped, editing, reapedPeer, hstate]
    rw [hcold]
    exact ⟨.inl rfl, "warm", fun actions => by simp [reportReaped, hstate]; rfl⟩
  | hot =>
    have hwarm : ((reaped now).apply peer).state = .warm := by
      simp [reaped, editing, reapedPeer, hstate]
    rw [hwarm]
    exact ⟨.inr rfl, "hot", fun actions => by simp [reportReaped, hstate]; rfl⟩
  | _ =>
    rw [hstate] at hdead
    cases hdead.1

theorem Tracks.reapDead (h : Tracks pool s) : Tracks pool (reapDead iteration now s) :=
  h.forEach_picks (reaped_faithful now) (Table.picks_all (filter_perm iteration s (dead now)))

theorem Tracks.promoteColdToWarm (h : Tracks pool s) :
    Tracks pool (promoteColdToWarm iteration now s) := by
  unfold PeerGovernor.promoteColdToWarm
  dsimp only
  split_ifs
  · exact h
  · exact h.congr (fun _ => rfl) rfl rfl
  · exact h.congr (fun _ => rfl) rfl rfl

theorem promoted_faithful : Faithful (eligible now) promoted reportPromoted := by
  intro peer heligible
  rw [(eligible_iff.mp heligible).1]
  exact ⟨rfl, .inr rfl, "warm", fun _ => rfl⟩

theorem Tracks.promoteWarmToHot (h : Tracks pool s) :
    Tracks pool (promoteWarmToHot floats iteration now s) := by
  have hcandidates := filter_perm iteration s (eligible now)
  unfold PeerGovernor.promoteWarmToHot
  dsimp only
  split_ifs
  · split
    · next best hbest =>
      split_ifs
      · obtain ⟨hrow, heligible⟩ := List.mem_filter.mp
          (hcandidates.mem_iff.mp (maxBy_mem _ hbest))
        exact h.forEach_picks (promoted_faithful now) (Table.picks_one hrow heligible)
      · exact h
    · exact h
  · exact h.forEach_picks (promoted_faithful now)
      (Table.picks_take ((List.mergeSort_perm _ _).trans hcandidates) _)

theorem Tracks.demoteExcessHot (h : Tracks pool s) :
    Tracks pool (demoteExcessHot floats iteration now s) := by
  unfold PeerGovernor.demoteExcessHot
  dsimp only
  split_ifs
  · exact h
  · refine h.forEach_picks (p := fun p => p.state = .hot) (fun peer hhot => ?_)
      (Table.picks_take ((List.mergeSort_perm _ _).trans (filter_perm iteration s _)) _)
    rw [of_decide_eq_true hhot]
    exact ⟨rfl, .inr rfl, "hot", fun _ => rfl⟩

omit [LinearOrder α] in
theorem Tracks.churn (h : Tracks pool s) : Tracks pool (churn floats iteration now s) := by
  have hclock : Tracks pool ({ s.1 with lastChurn := now }, s.2) :=
    h.congr (fun _ => rfl) rfl rfl
  unfold PeerGovernor.churn
  dsimp only
  split_ifs
  · exact h
  · exact hclock
  · refine Tracks.congr (hclock.forEach_picks (p := fun p => p.state = .warm) (fun peer hwarm => ?_)
      (Table.picks_take (filter_perm iteration ({ s.1 with lastChurn := now }, s.2) _) _))
      (fun _ => rfl) rfl rfl
    rw [of_decide_eq_true hwarm]
    exact ⟨rfl, .inl rfl, "warm", fun _ => rfl⟩

theorem Tracks.evictExcessCold (h : Tracks pool s) :
    Tracks pool (evictExcessCold iteration s) := by
  refine h.congr (fun id => ?_) ?_ ?_
  · unfold activeState
    rcases (evictExcessCold_evicts iteration s).stateOf_eq id with hsame | ⟨hnone, hcold⟩
    · rw [hsame]
    · rw [hnone, hcold]
      rfl
  · unfold PeerGovernor.evictExcessCold
    split_ifs <;> rfl
  · unfold PeerGovernor.evictExcessCold
    split_ifs <;> rfl

theorem Agrees.tick {g : Governor} (h : Agrees pool g) :
    Tracks pool (tick floats iteration now g) := by
  unfold PeerGovernor.tick phases
  dsimp only
  exact (((((h.unbanExpired iteration now).reapDead iteration now).promoteColdToWarm iteration
    now).promoteWarmToHot floats iteration now).demoteExcessHot floats iteration now).churn floats
    iteration now |>.evictExcessCold iteration

/-- Whatever the phases of a tick did to a peer, its actions bring the pool back
    to the active peers of the governor, and name those to disconnect. -/
theorem tick_actions_faithful (g : Governor) (pool : Pool) (h : Agrees pool g) :
    let ticked := PeerGovernor.tick floats iteration now g
    let applied := applyGovernorActions pool ticked.2
    Agrees applied.1 ticked.1 ∧
      ∀ id, id ∈ applied.2 ↔ (activeState g id).isSome ∧ activeState ticked.1 id = none := by
  intro ticked applied
  have htracks : Tracks pool ticked := h.tick floats iteration now
  refine ⟨htracks.agrees, fun id => ?_⟩
  rw [← h id]
  exact htracks.mem_disconnected_iff id

end Phases

section Example

def noSets : GroupSets := ⟨[], none⟩

def oneWarm : Governor := markConnected (addPeer freshGovernor 0 "friend" [] []) 0 "friend"

def poolOfOne : Pool := PeerPool.insert .empty noSets "friend" [] [] .warm 1 false

theorem poolOfOne_agrees : Agrees poolOfOne oneWarm := by
  intro id
  unfold poolOfOne oneWarm activeState
  rw [poolState_insert, stateOf_markConnected, stateOf_addPeer]
  split_ifs with hid
  · rw [hid]
    rfl
  · have hnone : stateOf freshGovernor id = none := rfl
    rw [hnone]
    rfl

/-- A peer that is silent for too long goes cold and leaves the pool. -/
theorem silent_peer_leaves_pool :
    let ticked := tick evenFloats plainOrder (ProtocolMessages.fromSecs 91) oneWarm
    let applied := applyGovernorActions poolOfOne ticked.2
    Agrees poolOfOne oneWarm ∧ Agrees applied.1 ticked.1 ∧ applied.2 = ["friend"] := by
  refine ⟨poolOfOne_agrees, ?_, by decide +kernel⟩
  exact (tick_actions_faithful evenFloats plainOrder _ oneWarm poolOfOne poolOfOne_agrees).1

end Example
end CordeliaCore.PeerPool
