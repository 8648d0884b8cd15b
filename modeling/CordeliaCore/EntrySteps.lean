import CordeliaCore.GovernorEffect

set_option autoImplicit false

namespace CordeliaCore.PeerGovernor
open KeyedTable

section Settling
variable (now : ℕ)

def candidate (peer : PeerInfo) : Bool :=
  peer.state = .cold || expired now peer || (peer.state = .warm && dead now peer)

def settle (peer : PeerInfo) : PeerInfo :=
  ((reaped now).only (dead now)).apply ((unbanned.only (expired now)).apply peer)

def settled (g : Governor) : Governor :=
  { g with
    peers := (g.peers.edit (unbanned.only (expired now))).edit ((reaped now).only (dead now)) }

theorem settled_rows (g : Governor) : (settled now g).peers.rows = g.peers.rows.map (settle now) :=
  List.map_map

theorem reapDead_fst (iteration : Iteration) (s : Governor × GovernorActions) :
    (reapDead iteration now s).1 =
      { s.1 with peers := s.1.peers.edit ((reaped now).only (dead now)) } := by
  unfold reapDead
  rw [forEach_fst, Table.modifyAll_perm _ (filter_perm iteration s (dead now))]

theorem not_dead_of_expired {peer : PeerInfo} (h : expired now peer = true) :
    dead now peer = false := by
  unfold expired at h
  unfold dead
  cases hstate : peer.state with
  | banned expiry reason escalation => rfl
  | _ => simp [hstate] at h

/-- A ban that is over leaves nothing to reap. -/
theorem settle_eq (peer : PeerInfo) : settle now peer =
    if expired now peer then { peer with state := .cold }
    else if dead now peer then reapedPeer now peer else peer := by
  unfold settle
  by_cases hexpired : expired now peer = true
  · rw [Edit.only_of_pos _ hexpired, if_pos hexpired]
    exact Edit.only_of_neg _ (by simp [dead, unbanned, editing, PeerState.isActive])
  · rw [Edit.only_of_neg _ hexpired, if_neg hexpired]
    rfl

theorem settle_kept {β : Type} (view : PeerInfo → β)
    (h : ∀ peer state since demotedAt, view
      { peer with state := state, connectedSince := since, demotedAt := demotedAt } = view peer)
    (peer : PeerInfo) : view (settle now peer) = view peer := by
  rw [settle_eq]
  split_ifs
  · exact h peer .cold peer.connectedSince peer.demotedAt
  · unfold reapedPeer
    split
    · exact h peer .warm none (some now)
    · exact h peer .cold none peer.demotedAt
    · rfl
  · rfl

theorem settle_state (peer : PeerInfo) : (settle now peer).state =
    if candidate now peer then .cold
    else if peer.state = .hot ∧ dead now peer = true then .warm else peer.state := by
  rw [settle_eq]
  unfold candidate
  by_cases hexpired : expired now peer = true
  · simp [hexpired]
  by_cases hdead : dead now peer = true
  · cases hstate : peer.state <;> simp [hexpired, hdead, hstate, reapedPeer]
  · cases hstate : peer.state <;> simp [hexpired, hdead, hstate]

theorem settle_demotedAt (peer : PeerInfo) : (settle now peer).demotedAt =
    if peer.state = .hot ∧ dead now peer = true then some now else peer.demotedAt := by
  rw [settle_eq]
  by_cases hexpired : expired now peer = true
  · simp [hexpired, not_dead_of_expired now hexpired]
  by_cases hdead : dead now peer = true
  · cases hstate : peer.state <;> simp [hexpired, hdead, hstate, reapedPeer]
  · simp [hexpired, hdead]

theorem settle_connectedSince (peer : PeerInfo) : (settle now peer).connectedSince =
    if dead now peer then none else peer.connectedSince := by
  rw [settle_eq]
  by_cases hexpired : expired now peer = true
  · simp [hexpired, not_dead_of_expired now hexpired]
  by_cases hdead : dead now peer = true
  · have hactive : peer.state.isActive = true := (Bool.and_eq_true _ _ |>.mp hdead).1
    cases hstate : peer.state with
    | warm => simp [hexpired, hdead, hstate, reapedPeer]
    | hot => simp [hexpired, hdead, hstate, reapedPeer]
    | _ => simp [hstate, PeerState.isActive] at hactive
  · simp [hexpired, hdead]

end Settling

section Phases
variable {p : PeerInfo → Bool} {e : Edit PeerInfo.nodeId (fun _ => True)} {limit now : ℕ}
  {g g' : Governor} {old new : PeerInfo}

def Touched (p : PeerInfo → Bool) (e : Edit PeerInfo.nodeId (fun _ => True)) (old new : PeerInfo) :
    Prop :=
  new = old ∨ p old = true ∧ new = e.apply old

theorem Moves.touched (h : Moves p e limit g g') (hnew : new ∈ g'.peers.rows) :
    ∃ old ∈ g.peers.rows, Touched p e old new := by
  rcases h.origin hnew with hold | ⟨old, hold, hp, rfl⟩
  · exact ⟨new, hold, .inl rfl⟩
  · exact ⟨old, hold, .inr ⟨hp, rfl⟩⟩

theorem Touched.kept {β : Type} (view : PeerInfo → β) (h : Touched p e old new)
    (he : view (e.apply old) = view old) : view new = view old := by
  rcases h with rfl | ⟨-, rfl⟩
  · rfl
  · exact he

/-- An entry before the phases of a tick and after them. -/
inductive Passes (now : ℕ) (old new : PeerInfo) : Prop where
  | intro {hotter cooler : PeerInfo} (promotes : Touched (eligible now) promoted (settle now old) hotter)
      (demotes : Touched (fun p => p.state = .hot) demoted hotter cooler)
      (churns : Touched (fun p => p.state = .warm) churned cooler new) : Passes now old new

theorem afterPhases_moves {α : Type} [LinearOrder α] (floats : Floats α) (iteration : Iteration)
    (now : ℕ) (g : Governor) : ∃ (hotter cooler : Governor) (filling excess churning : ℕ),
    Moves (eligible now) promoted filling (settled now g) hotter ∧
      Moves (fun p => p.state = .hot) demoted excess hotter cooler ∧
      Moves (fun p => p.state = .warm) churned churning cooler (afterPhases floats iteration now g) := by
  have hdialled : (promoteColdToWarm iteration now
      (reapDead iteration now (unbanExpired iteration now (g, .default)))).1 = settled now g := by
    rw [promoteColdToWarm_fst, reapDead_fst]
    rfl
  have hpromotes := promoteWarmToHot_moves floats iteration now
    (promoteColdToWarm iteration now
      (reapDead iteration now (unbanExpired iteration now (g, .default))))
  rw [hdialled] at hpromotes
  have hdemotes := demoteExcessHot_moves floats iteration now (promoteWarmToHot floats iteration now
    (promoteColdToWarm iteration now
      (reapDead iteration now (unbanExpired iteration now (g, .default)))))
  obtain ⟨churning, hchurns⟩ := churn_moves floats iteration now (demoteExcessHot floats iteration now
    (promoteWarmToHot floats iteration now (promoteColdToWarm iteration now
      (reapDead iteration now (unbanExpired iteration now (g, .default))))))
  unfold afterPhases phases
  exact ⟨_, _, _, _, churning, hpromotes, hdemotes, hchurns⟩

theorem afterPhases_passes {α : Type} [LinearOrder α] (floats : Floats α) (iteration : Iteration)
    (hnew : new ∈ (afterPhases floats iteration now g).peers.rows) :
    ∃ old ∈ g.peers.rows, Passes now old new := by
  obtain ⟨_, _, _, _, _, hpromotes, hdemotes, hchurns⟩ := afterPhases_moves floats iteration now g
  obtain ⟨cooler, hcooler, h₃⟩ := hchurns.touched hnew
  obtain ⟨hotter, hhotter, h₂⟩ := hdemotes.touched hcooler
  obtain ⟨entry, hentry, h₁⟩ := hpromotes.touched hhotter
  rw [settled_rows] at hentry
  obtain ⟨old, hold, rfl⟩ := List.mem_map.mp hentry
  exact ⟨old, hold, .intro h₁ h₂ h₃⟩

theorem Passes.kept {β : Type} {view : PeerInfo → β} (h : Passes now old new)
    (hview : ∀ peer state since demotedAt count, view
      { peer with
        state := state
        connectedSince := since
        demotedAt := demotedAt
        disconnectCount := count } = view peer) : view new = view old := by
  obtain ⟨h₁, h₂, h₃⟩ := h
  rw [h₃.kept view (hview _ .cold none _ _), h₂.kept view (hview _ .warm _ _ _),
    h₁.kept view (hview _ .hot _ _ 0)]
  exact settle_kept now view (fun peer state since demotedAt => hview peer state since demotedAt _) old

theorem Passes.nodeId_eq (h : Passes now old new) : new.nodeId = old.nodeId :=
  h.kept (fun _ _ _ _ _ => rfl)

theorem Passes.demotedAt_eq (h : Passes now old new) : new.demotedAt =
    if old.state = .hot ∧ dead now old = true then some now else old.demotedAt := by
  obtain ⟨h₁, h₂, h₃⟩ := h
  rw [← settle_demotedAt, h₃.kept PeerInfo.demotedAt rfl,
    h₂.kept PeerInfo.demotedAt rfl, h₁.kept PeerInfo.demotedAt rfl]

end Phases

section Operations
variable {g : Governor} {id : NodeId} {old new : PeerInfo}

def renamed (id : NodeId) : Operation → NodeId
  | .replaceNodeId old new _ => if id = old then new else id
  | _ => id

inductive EntryStep (old : PeerInfo) : Operation → PeerInfo → Prop where
  | kept {op : Operation} (hop : ∀ iteration now, op ≠ .tick iteration now) : EntryStep old op old
  | added (now : ℕ) (addrs : List Multiaddr) (groups : List GroupId) :
      EntryStep old (.addPeer now old.nodeId addrs groups)
        { old with addrs := addrs, groups := groups }
  | active (now : ℕ) (rttMs : Option ℚ) : EntryStep old (.recordActivity now old.nodeId rttMs)
      { old with lastActivity := now, rttMs := rttMs.or old.rttMs }
  | delivered (now : ℕ) (count : UInt64) :
      EntryStep old (.recordItemsDelivered now old.nodeId count)
        { old with itemsDelivered := old.itemsDelivered + count, lastActivity := now }
  | connected (now : ℕ) (hcold : old.state = .cold) : EntryStep old (.markConnected now old.nodeId)
      { old with state := .warm, connectedSince := some now, lastActivity := now }
  | disconnected (now : ℕ) (hactive : old.state.isActive = true) :
      EntryStep old (.markDisconnected now old.nodeId)
        { old with
          state := .cold
          connectedSince := none
          disconnectCount := old.disconnectCount + 1
          lastDisconnected := some now }
  | failed (now : ℕ) : EntryStep old (.markDialFailed now old.nodeId)
      { old with disconnectCount := old.disconnectCount + 1, lastDisconnected := some now }
  | moved (id : NodeId) (groups : List GroupId) :
      EntryStep old (.replaceNodeId old.nodeId id groups)
        { old with nodeId := id, groups := groups }
  | flagged (placeholder : NodeId) (groups : List GroupId) :
      EntryStep old (.replaceNodeId placeholder old.nodeId groups) { old with isRelay := true }
  | banned (now : ℕ) (reason : String) : EntryStep old (.banPeer now old.nodeId reason)
      { old with
        state := .banned (now + defaultBanDuration * (nextEscalation old.state).toNat) reason
          (nextEscalation old.state)
        connectedSince := none }
  | relay (isRelay : Bool) :
      EntryStep old (.setPeerRelay old.nodeId isRelay) { old with isRelay := isRelay }
  | ticked (iteration : Iteration) {now : ℕ} {new : PeerInfo} (h : Passes now old new) :
      EntryStep old (.tick iteration now) new

def Derives (g : Governor) (op : Operation) (new : PeerInfo) : Prop :=
  ∃ old ∈ g.peers.rows, renamed old.nodeId op = new.nodeId ∧ EntryStep old op new

theorem derives_of_mem {op : Operation} (hop : ∀ iteration now, op ≠ .tick iteration now)
    (hnew : new ∈ g.peers.rows) (hid : renamed new.nodeId op = new.nodeId) : Derives g op new :=
  ⟨new, hnew, hid, .kept hop⟩

theorem modifyPeer_touched {e : Edit PeerInfo.nodeId (fun _ => True)}
    (h : new ∈ (modifyPeer g e id).peers.rows) :
    ∃ old ∈ g.peers.rows, new = old ∨ old.nodeId = id ∧ new = e.apply old := by
  rcases Table.mem_edit_only h with ⟨hold, -⟩ | ⟨old, hold, hid, rfl⟩
  · exact ⟨new, hold, .inl rfl⟩
  · exact ⟨old, hold, .inr ⟨of_decide_eq_true hid, rfl⟩⟩

theorem derives_of_modifyPeer {op : Operation} {e : Edit PeerInfo.nodeId (fun _ => True)}
    (h : new ∈ (modifyPeer g e id).peers.rows) (hop : ∀ iteration now, op ≠ .tick iteration now)
    (hrenamed : ∀ id, renamed id op = id)
    (he : ∀ old : PeerInfo, old.nodeId = id → EntryStep old op (e.apply old)) :
    Derives g op new := by
  obtain ⟨old, hold, rfl | ⟨hid, rfl⟩⟩ := modifyPeer_touched h
  · exact derives_of_mem hop hold (hrenamed new.nodeId)
  · exact ⟨old, hold, (hrenamed old.nodeId).trans (e.key_apply old).symm, he old hid⟩

theorem only_step {op : Operation} {e : Edit PeerInfo.nodeId (fun _ => True)} {q : PeerInfo → Bool}
    (hop : ∀ iteration now, op ≠ .tick iteration now)
    (he : q old = true → EntryStep old op (e.apply old)) :
    EntryStep old op ((e.only q).apply old) := by
  by_cases hq : q old = true
  · rw [Edit.only_of_pos e hq]
    exact he hq
  · rw [Edit.only_of_neg e hq]
    exact .kept hop

theorem moveEntry_derives {placeholder : NodeId} {groups : List GroupId}
    (h : new ∈ (moveEntry g placeholder id groups).1.peers.rows) :
    Derives g (.replaceNodeId placeholder id groups) new := by
  unfold moveEntry at h
  split at h
  · next peer hpeer =>
    rcases (Table.mem_put_iff (g.peers.erase placeholder) trivial).mp h with rfl | ⟨hkept, -⟩
    · have hid : peer.nodeId = placeholder := Table.key_of_lookup hpeer
      refine ⟨peer, Table.mem_of_lookup hpeer, if_pos hid, ?_⟩
      rw [← hid]
      exact .moved id groups
    · obtain ⟨hold, hne⟩ := List.mem_filter.mp hkept
      exact derives_of_mem (by simp) hold (if_neg (of_decide_eq_true hne))
  · next hnone =>
    exact derives_of_mem (by simp) h (if_neg (g.peers.lookup_eq_none_iff.mp hnone new h))

theorem dropPlaceholder_derives {placeholder : NodeId} {groups : List GroupId}
    (h : new ∈ (dropPlaceholder g placeholder id).peers.rows) :
    Derives g (.replaceNodeId placeholder id groups) new := by
  have hothers : ∀ {peer}, peer ∈ (g.peers.erase placeholder).rows →
      peer ∈ g.peers.rows ∧ peer.nodeId ≠ placeholder := by
    intro peer hpeer
    obtain ⟨hold, hne⟩ := List.mem_filter.mp hpeer
    exact ⟨hold, of_decide_eq_true hne⟩
  unfold dropPlaceholder at h
  split at h
  · dsimp only at h
    split_ifs at h
    · obtain ⟨old, hold, rfl | ⟨rfl, rfl⟩⟩ := modifyPeer_touched h
      · exact derives_of_mem (by simp) (hothers hold).1 (if_neg (hothers hold).2)
      · exact ⟨old, (hothers hold).1, if_neg (hothers hold).2, .flagged placeholder groups⟩
    · exact derives_of_mem (by simp) (hothers h).1 (if_neg (hothers h).2)
  · next hnone =>
    exact derives_of_mem (by simp) h (if_neg (g.peers.lookup_eq_none_iff.mp hnone new h))

theorem operate_tick {α : Type} [LinearOrder α] (floats : Floats α) (iteration : Iteration) (now : ℕ)
    (g : Governor) :
    operate floats g (.tick iteration now) = afterTick floats iteration now g := rfl

/-- Every entry after an operation is a new one or was made from one before it. -/
theorem operate_derives {α : Type} [LinearOrder α] (floats : Floats α) {op : Operation}
    (h : new ∈ (operate floats g op).peers.rows) :
    (∃ now addrs groups, op = .addPeer now new.nodeId addrs groups ∧
        g.peers.lookup new.nodeId = none ∧ new = .new now new.nodeId addrs groups) ∨
      Derives g op new := by
  cases op with
  | setGroups groups => exact .inr (derives_of_mem (by simp) h rfl)
  | addPeer now nodeId addrs groups =>
    change new ∈ (addPeer g now nodeId addrs groups).peers.rows at h
    unfold addPeer at h
    split at h
    · refine .inr (derives_of_modifyPeer h (by simp) (fun _ => rfl) ?_)
      rintro old rfl
      exact .added now addrs groups
    · next hnone =>
      rcases (Table.mem_put_iff g.peers trivial).mp h with rfl | ⟨hold, -⟩
      · exact .inl ⟨now, addrs, groups, rfl, hnone, rfl⟩
      · exact .inr (derives_of_mem (by simp) hold rfl)
  | recordActivity now nodeId rttMs =>
    refine .inr (derives_of_modifyPeer h (by simp) (fun _ => rfl) ?_)
    rintro old rfl
    exact .active now rttMs
  | recordItemsDelivered now nodeId count =>
    refine .inr (derives_of_modifyPeer h (by simp) (fun _ => rfl) ?_)
    rintro old rfl
    exact .delivered now count
  | markConnected now nodeId =>
    refine .inr (derives_of_modifyPeer h (by simp) (fun _ => rfl) ?_)
    rintro old rfl
    exact only_step (by simp) (fun hcold => .connected now (of_decide_eq_true hcold))
  | markDisconnected now nodeId =>
    refine .inr (derives_of_modifyPeer h (by simp) (fun _ => rfl) ?_)
    rintro old rfl
    exact only_step (by simp) (fun hactive => .disconnected now hactive)
  | markDialFailed now nodeId =>
    refine .inr (derives_of_modifyPeer h (by simp) (fun _ => rfl) ?_)
    rintro old rfl
    exact .failed now
  | replaceNodeId placeholder nodeId groups =>
    right
    change new ∈ (replaceNodeId g placeholder nodeId groups).1.peers.rows at h
    unfold replaceNodeId at h
    split at h
    · split_ifs at h
      · exact dropPlaceholder_derives h
      · exact moveEntry_derives h
    · exact moveEntry_derives h
  | banPeer now nodeId reason =>
    refine .inr (derives_of_modifyPeer h (by simp) (fun _ => rfl) ?_)
    rintro old rfl
    exact .banned now reason
  | setPeerRelay nodeId isRelay =>
    refine .inr (derives_of_modifyPeer h (by simp) (fun _ => rfl) ?_)
    rintro old rfl
    exact .relay isRelay
  | tick iteration now =>
    rw [operate_tick] at h
    have hphases := (afterTick_evicts floats iteration now g).origin h
    obtain ⟨old, hold, hpasses⟩ := afterPhases_passes floats iteration hphases
    exact .inr ⟨old, hold, hpasses.nodeId_eq.symm, .ticked iteration hpasses⟩

/-- A property of the governor at each tick of a run and of the time of the tick. -/
def EachTick (P : ℕ → Governor → Prop) (g : Governor) : Operation → Prop
  | .tick _ now => P now g
  | _ => True

theorem eachTick_imp {P Q : ℕ → Governor → Prop} (h : ∀ now g, P now g → Q now g) (g : Governor)
    (op : Operation) (hop : EachTick P g op) : EachTick Q g op := by
  cases op with
  | tick iteration now => exact h now g hop
  | _ => trivial

end Operations
end CordeliaCore.PeerGovernor
