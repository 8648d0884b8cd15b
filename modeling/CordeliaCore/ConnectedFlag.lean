import CordeliaCore.PeerStates

set_option autoImplicit false

namespace CordeliaCore.PeerGovernor
open KeyedTable StepRuns

section Entries
variable {p : PeerInfo → Bool} {e : Edit PeerInfo.nodeId (fun _ => True)} {now instant : ℕ}
  {op : Operation} {old new : PeerInfo}

def Flagged (peer : PeerInfo) : Prop := peer.connectedSince.isSome = peer.state.isActive

instance (peer : PeerInfo) : Decidable (Flagged peer) := inferInstanceAs (Decidable (_ = _))

theorem Touched.flagged (h : Touched p e old new) (hold : Flagged old)
    (he : p old = true → Flagged (e.apply old)) : Flagged new := by
  rcases h with rfl | ⟨hp, rfl⟩
  · exact hold
  · exact he hp

theorem settle_flagged (h : Flagged old) (halive : old.state = .hot → dead now old = false) :
    Flagged (settle now old) := by
  unfold Flagged at h ⊢
  rw [settle_connectedSince, settle_state]
  by_cases hdead : dead now old = true
  · have hwarm : old.state = .warm := by
      cases hstate : old.state with
      | warm => rfl
      | hot => simp [halive hstate] at hdead
      | _ => simp [dead, hstate, PeerState.isActive] at hdead
    simp [hdead, candidate, hwarm, PeerState.isActive]
  · rw [if_neg hdead, h]
    cases hstate : old.state with
    | banned expiry reason escalation =>
      by_cases hexpired : expired now old = true <;>
        simp [candidate, hstate, hexpired, PeerState.isActive]
    | _ => simp [candidate, expired, hstate, hdead, PeerState.isActive]

theorem Passes.flagged (h : Passes now old new) (hold : Flagged old)
    (halive : old.state = .hot → dead now old = false) : Flagged new := by
  obtain ⟨h₁, h₂, h₃⟩ := h
  have hpromoted := h₁.flagged (settle_flagged hold halive) (fun heligible => by
    have hsettled := settle_flagged hold halive
    rw [Flagged, (eligible_iff.mp heligible).1] at hsettled
    exact hsettled)
  have hdemoted := h₂.flagged hpromoted (fun hhot => by
    rw [Flagged, of_decide_eq_true hhot] at hpromoted
    exact hpromoted)
  exact h₃.flagged hdemoted (fun _ => rfl)

/-- Only a tick that finds a dead hot peer parts the flag from the state. -/
theorem EntryStep.flag_kept (h : EntryStep old op new) (hold : Flagged old)
    (halive : ∀ iteration now, op = .tick iteration now → old.state = .hot → dead now old = false) :
    Flagged new := by
  cases h with
  | connected now hcold => rfl
  | disconnected now hactive => rfl
  | banned now reason => rfl
  | ticked iteration hpasses => exact hpasses.flagged hold (halive iteration _ rfl)
  | _ => exact hold

theorem Passes.connectedSince_eq (h : Passes now old new) (hnew : new.connectedSince = some instant) :
    old.connectedSince = some instant := by
  obtain ⟨h₁, h₂, h₃⟩ := h
  rcases h₃ with rfl | ⟨-, rfl⟩
  · rw [h₂.kept PeerInfo.connectedSince rfl, h₁.kept PeerInfo.connectedSince rfl,
      settle_connectedSince] at hnew
    split_ifs at hnew
    exact hnew
  · cases hnew

theorem EntryStep.connectedSince_eq (h : EntryStep old op new)
    (hnew : new.connectedSince = some instant) :
    (op = .markConnected instant old.nodeId ∧ old.state = .cold) ∨
      old.connectedSince = some instant := by
  cases h with
  | connected now hcold =>
    rw [Option.some.inj hnew]
    exact .inl ⟨rfl, hcold⟩
  | disconnected now hactive => cases hnew
  | banned now reason => cases hnew
  | ticked iteration hpasses => exact .inr (hpasses.connectedSince_eq hnew)
  | _ => exact .inr hnew

end Entries

section Runs
variable {α : Type} [LinearOrder α] (floats : Floats α)

/-- The entry was cold until it connected at that instant, and has been active ever since,
    under the ids that it had. -/
def ConnectedSince (start : Governor) (ops : List Operation) (id : NodeId) (instant : ℕ) : Prop :=
  ∃ past nodeId coming, ops = past ++ .markConnected instant nodeId :: coming ∧
    stateOf (run (operate floats) start past) nodeId = some .cold ∧
    coming.foldl renamed nodeId = id ∧
    ∀ mid rest, coming = mid ++ rest → ∃ s,
      stateOf (run (operate floats) start (past ++ .markConnected instant nodeId :: mid))
        (mid.foldl renamed nodeId) = some s ∧ s.isActive = true

def HotAlive (now : ℕ) (g : Governor) : Prop :=
  ∀ peer ∈ g.peers.rows, peer.state = .hot → dead now peer = false

theorem operate_flagged {g : Governor} (h : ∀ peer ∈ g.peers.rows, Flagged peer) {op : Operation}
    (halive : EachTick HotAlive g op) : ∀ peer ∈ (operate floats g op).peers.rows, Flagged peer := by
  intro peer hpeer
  rcases operate_derives floats hpeer with ⟨_, _, _, -, -, hnew⟩ | ⟨old, hold, -, hstep⟩
  · rw [hnew]
    rfl
  · refine hstep.flag_kept (h old hold) ?_
    rintro iteration now rfl hhot
    exact halive old hold hhot

theorem run_flagged {start : Governor} (hstart : start.peers.rows = []) {ops : List Operation}
    (h : Along (operate floats) (EachTick HotAlive) start ops) :
    ∀ peer ∈ (run (operate floats) start ops).peers.rows, Flagged peer := by
  refine invariant_run (I := fun g => ∀ peer ∈ g.peers.rows, Flagged peer)
    (fun g op hg hop => operate_flagged floats hg hop) ?_ h
  intro peer hpeer
  rw [hstart] at hpeer
  cases hpeer

theorem run_connectedSince {start : Governor} (hstart : start.peers.rows = []) {ops : List Operation}
    (h : Along (operate floats) (EachTick HotAlive) start ops) {peer : PeerInfo}
    (hpeer : peer ∈ (run (operate floats) start ops).peers.rows) {instant : ℕ}
    (hat : peer.connectedSince = some instant) :
    ConnectedSince floats start ops peer.nodeId instant := by
  obtain ⟨past, op, coming, old, rfl, ⟨hold, ⟨rfl, hcold⟩, hname⟩, hsince⟩ :=
    run_origin floats (fun peer => peer.connectedSince = some instant)
      (fun old op => op = .markConnected instant old.nodeId ∧ old.state = .cold) hstart
      (fun _ _ _ _ h => by cases h) (fun _ _ _ hstep hnew => hstep.connectedSince_eq hnew) hpeer hat
  refine ⟨past, old.nodeId, coming, rfl, ?_, hname, fun mid rest hsplit => ?_⟩
  · exact stateOf_eq_some_iff.mpr ⟨old, Table.lookup_key _ hold, hcold⟩
  · obtain ⟨entry, hentry, hid, hconnected⟩ := hsince mid rest hsplit
    rw [hsplit, ← List.cons_append, ← List.append_assoc] at h
    have hflagged := run_flagged floats hstart ((along_append _ _ _ _ _).mp h).1 entry hentry
    rw [Flagged, hconnected] at hflagged
    refine ⟨entry.state, stateOf_eq_some_iff.mpr ⟨entry, ?_, rfl⟩, hflagged.symm⟩
    exact hid ▸ Table.lookup_key _ hentry

/-- In a run from an empty governor in which no tick finds a dead hot peer, a peer has its
    flag exactly when it is warm or hot, and the flag is the time of the connection. -/
theorem connected_flag_matches (created : ℕ) (targets : GovernorTargets) (ourGroups : List GroupId)
    (dialPolicy : DialPolicy) (ops : List Operation)
    (h : Along (operate floats) (EachTick HotAlive)
      (withDialPolicy created targets ourGroups dialPolicy) ops) :
    let start := withDialPolicy created targets ourGroups dialPolicy
    ∀ peer ∈ (run (operate floats) start ops).peers.rows,
      (peer.connectedSince.isSome = true ↔ peer.state.isActive = true) ∧
        ∀ instant, peer.connectedSince = some instant →
          ConnectedSince floats start ops peer.nodeId instant := by
  intro start peer hpeer
  have hflagged : peer.connectedSince.isSome = peer.state.isActive :=
    run_flagged floats rfl h peer hpeer
  refine ⟨by rw [hflagged], fun instant hat => ?_⟩
  exact run_connectedSince floats rfl h hpeer hat

end Runs

section Example

def oneHot : GovernorTargets := ⟨1, 1, 0, 0, 10, 3600, 0⟩

def friendPromoted : List Operation :=
  [.addPeer 0 "friend" [] [], .markConnected 0 "friend", .tick plainOrder 1]

theorem friendPromoted_alive : Along (operate evenFloats) (EachTick HotAlive)
    (withDialPolicy 0 oneHot [] .all) friendPromoted := by
  refine ⟨trivial, trivial, ?_, trivial⟩
  unfold EachTick HotAlive
  decide +kernel

theorem friend_flagged :
    Along (operate evenFloats) (EachTick HotAlive) (withDialPolicy 0 oneHot [] .all) friendPromoted ∧
      ∀ peer ∈ (run (operate evenFloats) (withDialPolicy 0 oneHot [] .all) friendPromoted).peers.rows,
        peer.connectedSince.isSome = true ↔ peer.state.isActive = true :=
  ⟨friendPromoted_alive, fun peer hpeer =>
    (connected_flag_matches evenFloats 0 oneHot [] .all friendPromoted friendPromoted_alive
      peer hpeer).1⟩

/-- After a minute and a half of silence the friend is warm and has no flag. -/
theorem reaped_friend_unflagged :
    ((run (operate evenFloats) (withDialPolicy 0 oneHot [] .all)
        (friendPromoted ++ [.tick plainOrder 91000000000])).peers.lookup "friend").map
      (fun peer => (peer.state, peer.connectedSince)) = some (.warm, none) := by
  decide +kernel

end Example
end CordeliaCore.PeerGovernor
