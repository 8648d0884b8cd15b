import CordeliaCore.DialDecisions

set_option autoImplicit false

namespace CordeliaCore.PeerGovernor
open ProtocolMessages KeyedTable StepRuns

def waiting (now : ℕ) (peer : PeerInfo) : Bool :=
  peer.lastDisconnected.any (fun t => now - t < reconnectBackoff peer.disconnectCount)

theorem waiting_of_descends {now : ℕ} {old new : PeerInfo} (h : Descends old new)
    (hold : waiting now old = false) : waiting now new = false := by
  unfold waiting at hold ⊢
  rw [h.lastDisconnected_eq]
  rcases h.disconnectCount_eq with hsame | hzero
  · rw [hsame]
    exact hold
  · rw [hzero]
    cases old.lastDisconnected <;> simp [reconnectBackoff]

theorem promotable_eq (now : ℕ) (g : Governor) (peer : PeerInfo) : promotable now g peer =
    (decide (peer.state = .cold) && isDialable g peer && !waiting now peer) := by
  unfold promotable waiting
  cases peer.lastDisconnected with
  | none => rfl
  | some t =>
    have hover : decide (reconnectBackoff peer.disconnectCount ≤ now - t) =
        !decide (now - t < reconnectBackoff peer.disconnectCount) := by
      rw [← decide_not, decide_eq_decide, not_lt]
    rw [Option.all_some, Option.any_some, hover]

/-- Churn is due, its fraction of the peers that are warm by then is not zero, and there will
    be a cold peer. -/
def Churns {α : Type} [LinearOrder α] (floats : Floats α) (now : ℕ) (g : Governor) : Prop :=
  fromSecs g.targets.churnIntervalSecs ≤ now - g.lastChurn ∧
    floats.churnCount g.targets.churnFraction (warmAtChurn floats now g) ≠ 0 ∧
    ∃ peer ∈ g.peers.rows, candidate now peer = true

def NoneWaiting (now : ℕ) (g : Governor) : Prop :=
  ∀ peer ∈ g.peers.rows, isDialable g peer = true → barred now peer = false →
    waiting now peer = false

section Tick
variable {α : Type} [LinearOrder α] (floats : Floats α) (iteration : Iteration) (now : ℕ)
  (g : Governor)

/-- Neither before the tick nor after it is a dialled peer in its backoff. -/
def RespectsBackoff : Prop :=
  ∀ id ∈ (tick floats iteration now g).2.connect,
    (∀ peer, g.peers.lookup id = some peer → waiting now peer = false) ∧
      ∀ peer, (afterTick floats iteration now g).peers.lookup id = some peer → waiting now peer = false

theorem churns_of_active (h : ChurnActive floats now (beforeChurn floats iteration now g).1) :
    Churns floats now g := by
  obtain ⟨hdue, hcount, hcold⟩ := h
  have htargets : (beforeChurn floats iteration now g).1.targets = g.targets := by
    rw [beforeChurn_fst]
  have hlast : (beforeChurn floats iteration now g).1.lastChurn = g.lastChurn := by
    rw [beforeChurn_fst]
  rw [htargets, hlast] at hdue
  rw [htargets, warmCount_beforeChurn] at hcount
  refine ⟨hdue, hcount, ?_⟩
  obtain ⟨peer, hpeer, hstate⟩ := List.countP_pos_iff.mp (Nat.pos_of_ne_zero hcold)
  have hcold := of_decide_eq_true hstate
  have hsettled := (cold_beforeChurn_iff floats iteration now g hcold).mp hpeer
  rw [settled_rows] at hsettled
  obtain ⟨old, hold, rfl⟩ := List.mem_map.mp hsettled
  exact ⟨old, hold, (settle_cold_iff now old).mp hcold⟩

theorem not_waiting_of_greedy {id : NodeId} (hid : id ∈ greedyDials iteration now (settled now g))
    {peer : PeerInfo} (hpeer : g.peers.lookup id = some peer) : waiting now peer = false := by
  obtain ⟨found, hfound, rfl, hpromotable⟩ := mem_greedyDials iteration now (settled now g) hid
  rw [settled_rows] at hfound
  obtain ⟨old, hold, rfl⟩ := List.mem_map.mp hfound
  have hkey : (settle now old).nodeId = old.nodeId :=
    settle_kept now PeerInfo.nodeId (fun _ _ _ _ => rfl) old
  rw [hkey, g.peers.lookup_key hold] at hpeer
  rw [← Option.some.inj hpeer, ← settle_kept now (waiting now) (fun _ _ _ _ => rfl) old]
  rw [promotable_eq] at hpromotable
  simpa using (Bool.and_eq_true _ _ |>.mp hpromotable).2

theorem respectsBackoff (h : ¬ Churns floats now g ∨ NoneWaiting now g) :
    RespectsBackoff floats iteration now g := by
  intro id hid
  obtain ⟨peer, hsound⟩ := soundDial_of_mem floats iteration now g hid
  have hbefore : waiting now peer = false := by
    rcases tick_connect floats iteration now g hid with hgreedy | ⟨hactive, -⟩
    · exact not_waiting_of_greedy iteration now g hgreedy hsound.known
    · rcases h with hcalm | hnone
      · exact absurd (churns_of_active floats iteration now g hactive) hcalm
      · exact hnone peer (Table.mem_of_lookup hsound.known) hsound.dialable hsound.not_barred
  refine ⟨fun other hother => ?_, fun after hafter => ?_⟩
  · rw [hsound.known] at hother
    rw [← Option.some.inj hother]
    exact hbefore
  · have hphases : after ∈ (afterPhases floats iteration now g).peers.rows :=
      (afterTick_evicts floats iteration now g).origin (Table.mem_of_lookup hafter)
    obtain ⟨old, hold, hpasses⟩ := afterPhases_passes floats iteration hphases
    have hdescends := hpasses.descends now
    have hid : after.nodeId = id := Table.key_of_lookup hafter
    have hkey : old.nodeId = id := hdescends.nodeId_eq.symm.trans hid
    have hsame : some old = some peer := by
      rw [← hsound.known, ← hkey, g.peers.lookup_key hold]
    rw [Option.some.inj hsame] at hdescends
    exact waiting_of_descends hdescends hbefore

end Tick

/-- A run in which every tick either does not churn or finds no peer to dial in its backoff
    dials no peer in its backoff, in any order of the peers. -/
theorem backoff_respected {α : Type} [LinearOrder α] (floats : Floats α) (g : Governor)
    (ops : List Operation)
    (h : Along (operate floats)
      (EachTick (fun now g => ¬ Churns floats now g ∨ NoneWaiting now g)) g ops) :
    Along (operate floats)
      (EachTick (fun now g => ∀ iteration, RespectsBackoff floats iteration now g)) g ops :=
  along_of_guard (I := fun _ => True) (fun _ _ _ _ => trivial)
    (fun g op _ => eachTick_imp (fun now g hg iteration => respectsBackoff floats iteration now g hg)
      g op) trivial h

section Example

def friendAndNewcomer : List Operation :=
  [.addPeer 0 "friend" [] [], .markConnected 0 "friend", .addPeer 0 "newcomer" [] [],
    .tick plainOrder 1]

theorem friendAndNewcomer_noneWaiting : Along (operate evenFloats)
    (EachTick (fun now g => ¬ Churns evenFloats now g ∨ NoneWaiting now g)) freshGovernor
    friendAndNewcomer := by
  refine ⟨trivial, trivial, trivial, .inr ?_, trivial⟩
  unfold NoneWaiting
  decide +kernel

theorem newcomer_dialled_in_turn :
    Along (operate evenFloats) (EachTick (fun now g => ¬ Churns evenFloats now g ∨ NoneWaiting now g))
        freshGovernor friendAndNewcomer ∧
      Along (operate evenFloats)
        (EachTick (fun now g => ∀ iteration, RespectsBackoff evenFloats iteration now g))
        freshGovernor friendAndNewcomer :=
  ⟨friendAndNewcomer_noneWaiting,
    backoff_respected evenFloats freshGovernor friendAndNewcomer friendAndNewcomer_noneWaiting⟩

/-- Churn dials the peer whose dial has just failed. -/
theorem churn_redials_flaky :
    (tick evenFloats plainOrder 1 flakyAndFriend).2.connect = ["flaky"] ∧
      (flakyAndFriend.peers.lookup "flaky").map (waiting 1) = some true ∧
      ¬ RespectsBackoff evenFloats plainOrder 1 flakyAndFriend := by
  have hdialled := flaky_dialled
  have hwaiting : (flakyAndFriend.peers.lookup "flaky").map (waiting 1) = some true := by
    decide +kernel
  refine ⟨hdialled, hwaiting, fun h => ?_⟩
  obtain ⟨peer, hpeer, htrue⟩ := Option.map_eq_some_iff.mp hwaiting
  have hfalse := (h "flaky" (by simp [hdialled])).1 peer hpeer
  rw [hfalse] at htrue
  cases htrue

end Example
end CordeliaCore.PeerGovernor
