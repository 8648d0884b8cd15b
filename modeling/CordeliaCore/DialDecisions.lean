import CordeliaCore.PeerStates

set_option autoImplicit false

namespace CordeliaCore.PeerGovernor
open ProtocolMessages KeyedTable StepRuns

section Actions
variable {s : Governor × GovernorActions} {e : Edit PeerInfo.nodeId (fun _ => True)}
  {report : PeerInfo → GovernorActions → GovernorActions}

theorem forEach_kept {β : Type} (view : GovernorActions → β)
    (h : ∀ peer actions, view (report peer actions) = view actions) (ids : List NodeId) :
    view (forEach s ids e report).2 = view s.2 := by
  unfold forEach
  induction ids generalizing s with
  | nil => rfl
  | cons id ids ih =>
    rw [List.foldl_cons, ih]
    cases s.1.peers.lookup id with
    | none => rfl
    | some peer => exact h peer s.2

theorem forEach_snd {peers : List PeerInfo} (hnodup : (peers.map PeerInfo.nodeId).Nodup)
    (hpeers : ∀ peer ∈ peers, peer ∈ s.1.peers.rows) :
    (forEach s (peers.map PeerInfo.nodeId) e report).2 =
      peers.foldl (fun actions peer => report peer actions) s.2 := by
  unfold forEach
  induction peers generalizing s with
  | nil => rfl
  | cons peer peers ih =>
    obtain ⟨hfresh, hnodup⟩ := List.nodup_cons.mp hnodup
    have hlookup : s.1.peers.lookup peer.nodeId = some peer :=
      s.1.peers.lookup_key (hpeers peer List.mem_cons_self)
    rw [List.map_cons, List.foldl_cons, List.foldl_cons, hlookup]
    refine ih hnodup (fun other hother => ?_)
    have hne : other.nodeId ≠ peer.nodeId :=
      fun heq => hfresh (heq ▸ List.mem_map_of_mem hother)
    have hsame : (modifyPeer s.1 e peer.nodeId).peers.lookup other.nodeId = some other := by
      rw [lookup_modifyPeer, s.1.peers.lookup_key (hpeers other (List.mem_cons_of_mem _ hother))]
      simp [hne]
    exact Table.mem_of_lookup hsame

end Actions

section Settling
variable (now : ℕ)

def staysActive (peer : PeerInfo) : Bool :=
  peer.state.isActive && !(peer.state = .warm && dead now peer)

/-- What a tick leaves of an entry: a stable connection resets the count. -/
structure Descends (old new : PeerInfo) : Prop where
  nodeId_eq : new.nodeId = old.nodeId
  addrs_eq : new.addrs = old.addrs
  isRelay_eq : new.isRelay = old.isRelay
  lastDisconnected_eq : new.lastDisconnected = old.lastDisconnected
  disconnectCount_eq : new.disconnectCount = old.disconnectCount ∨ new.disconnectCount = 0

theorem isDialable_peers (g : Governor) (t : Peers) (peer : PeerInfo) :
    isDialable { g with peers := t } peer = isDialable g peer := rfl

theorem isDialable_of_descends {old new : PeerInfo} (h : Descends old new) (g : Governor) :
    isDialable g new = isDialable g old := by
  unfold isDialable
  rw [h.nodeId_eq, h.isRelay_eq]

theorem Passes.descends {old new : PeerInfo} (h : Passes now old new) : Descends old new where
  nodeId_eq := h.nodeId_eq
  addrs_eq := h.kept (fun _ _ _ _ _ => rfl)
  isRelay_eq := h.kept (fun _ _ _ _ _ => rfl)
  lastDisconnected_eq := h.kept (fun _ _ _ _ _ => rfl)
  disconnectCount_eq := by
    obtain ⟨h₁, h₂, h₃⟩ := h
    rw [h₃.kept PeerInfo.disconnectCount rfl, h₂.kept PeerInfo.disconnectCount rfl,
      ← settle_kept now PeerInfo.disconnectCount (fun _ _ _ _ => rfl) old]
    rcases h₁ with rfl | ⟨-, rfl⟩
    · exact .inl rfl
    · exact .inr rfl

theorem settle_cold_iff (peer : PeerInfo) :
    (settle now peer).state = .cold ↔ candidate now peer = true := by
  rw [settle_state]
  by_cases hcandidate : candidate now peer = true
  · simp [hcandidate]
  · have hcold : peer.state ≠ .cold := fun h => hcandidate (by simp [candidate, h])
    rw [if_neg hcandidate]
    split_ifs <;> simp [hcandidate, hcold]

theorem settle_cold (peer : PeerInfo) :
    decide ((settle now peer).state = .cold) = candidate now peer := by
  have hiff := settle_cold_iff now peer
  cases hcandidate : candidate now peer <;> simp [hiff, hcandidate]

theorem settle_isActive (peer : PeerInfo) :
    (settle now peer).state.isActive = staysActive now peer := by
  rw [settle_state]
  cases hstate : peer.state with
  | banned expiry reason escalation =>
    by_cases hover : expiry ≤ now <;>
      simp [candidate, staysActive, PeerState.isActive, expired, hstate, hover]
  | _ =>
    by_cases hdead : dead now peer = true <;>
      simp [candidate, staysActive, PeerState.isActive, expired, hstate, hdead]

theorem countP_settled (g : Governor) (q : PeerInfo → Bool) :
    (settled now g).peers.rows.countP q = g.peers.rows.countP (fun p => q (settle now p)) := by
  rw [settled_rows, List.countP_map]
  rfl

theorem warm_add_hot (g : Governor) :
    warmCount g + hotCount g = g.peers.rows.countP (fun p => p.state.isActive) := by
  unfold warmCount hotCount
  induction g.peers.rows with
  | nil => rfl
  | cons peer rows ih =>
    have hpeer : (if decide (peer.state = .warm) = true then 1 else 0) +
        (if decide (peer.state = .hot) = true then 1 else 0) =
          if peer.state.isActive = true then 1 else 0 := by
      cases peer.state <;> rfl
    rw [List.countP_cons, List.countP_cons, List.countP_cons]
    omega

theorem activeCount_settled (g : Governor) : warmCount (settled now g) + hotCount (settled now g) =
    g.peers.rows.countP (staysActive now) := by
  rw [warm_add_hot, countP_settled]
  simp only [settle_isActive]

end Settling

section Phases
variable {α : Type} [LinearOrder α] (floats : Floats α) (iteration : Iteration) (now : ℕ)
  (g : Governor)

def firstDials : Governor × GovernorActions :=
  promoteColdToWarm iteration now (reapDead iteration now (unbanExpired iteration now (g, .default)))

def beforeChurn : Governor × GovernorActions :=
  demoteExcessHot floats iteration now (promoteWarmToHot floats iteration now (firstDials iteration now g))

theorem phases_eq : phases floats iteration now g =
    churn floats iteration now (beforeChurn floats iteration now g) := rfl

theorem afterPhases_eq : afterPhases floats iteration now g =
    (churn floats iteration now (beforeChurn floats iteration now g)).1 := rfl

theorem evictExcessCold_snd (s : Governor × GovernorActions) :
    (evictExcessCold iteration s).2 = s.2 := by
  unfold evictExcessCold
  split_ifs <;> rfl

theorem tick_snd : (tick floats iteration now g).2 = (phases floats iteration now g).2 := by
  unfold tick
  rw [evictExcessCold_snd]

theorem firstDials_fst : (firstDials iteration now g).1 = settled now g := by
  unfold firstDials
  rw [promoteColdToWarm_fst, reapDead_fst]
  rfl

theorem beforeChurn_fst : (beforeChurn floats iteration now g).1 =
    { g with peers := (beforeChurn floats iteration now g).1.peers } := by
  have hpromotes : ∀ s : Governor × GovernorActions, (promoteWarmToHot floats iteration now s).1 =
      { s.1 with peers := (promoteWarmToHot floats iteration now s).1.peers } := by
    intro s
    unfold promoteWarmToHot
    dsimp only
    split_ifs
    · split
      · split_ifs
        · rw [forEach_fst]
        · rfl
      · rfl
    · rw [forEach_fst]
  have hdemotes : ∀ s : Governor × GovernorActions, (demoteExcessHot floats iteration now s).1 =
      { s.1 with peers := (demoteExcessHot floats iteration now s).1.peers } := by
    intro s
    unfold demoteExcessHot
    dsimp only
    split_ifs
    · rfl
    · rw [forEach_fst]
  unfold beforeChurn
  rw [hdemotes, hpromotes, firstDials_fst]
  rfl

theorem beforeChurn_moves : ∃ middle : Governor,
    Moves (eligible now) promoted (promotions floats now (settled now g)) (settled now g) middle ∧
      Moves (fun p => p.state = .hot) demoted (hotCount middle - middle.targets.hotMax) middle
        (beforeChurn floats iteration now g).1 := by
  have hpromotes := promoteWarmToHot_moves floats iteration now (firstDials iteration now g)
  rw [firstDials_fst] at hpromotes
  have hdemotes := demoteExcessHot_moves floats iteration now
    (promoteWarmToHot floats iteration now (firstDials iteration now g))
  exact ⟨_, hpromotes, hdemotes⟩

/-- A cold peer keeps its entry while warm and hot ones are moved, and no other peer goes cold. -/
theorem cold_beforeChurn_iff {peer : PeerInfo} (hcold : peer.state = .cold) :
    peer ∈ (beforeChurn floats iteration now g).1.peers.rows ↔ peer ∈ (settled now g).peers.rows := by
  obtain ⟨middle, hpromotes, hdemotes⟩ := beforeChurn_moves floats iteration now g
  constructor
  · intro hpeer
    rcases hdemotes.origin hpeer with hpeer | ⟨_, -, -, rfl⟩
    · rcases hpromotes.origin hpeer with hpeer | ⟨_, -, -, rfl⟩
      · exact hpeer
      · cases hcold
    · cases hcold
  · intro hpeer
    have hpromoted := hpromotes.lookup_of_not (Table.lookup_key _ hpeer) (by simp [eligible, hcold])
    exact Table.mem_of_lookup (hdemotes.lookup_of_not hpromoted (by simp [hcold]))

theorem countP_beforeChurn (q : PeerInfo → Bool) :
    (beforeChurn floats iteration now g).1.peers.rows.countP (fun p => p.state = .cold && q p) =
      (settled now g).peers.rows.countP (fun p => p.state = .cold && q p) := by
  obtain ⟨middle, hpromotes, hdemotes⟩ := beforeChurn_moves floats iteration now g
  have hpromoted := hpromotes.countP (q := fun p => p.state = .cold && q p) (b := false) (c := false)
    (fun peer h => by simp [(eligible_iff.mp h).1]) (fun _ _ => rfl)
  have hdemoted := hdemotes.countP (q := fun p => p.state = .cold && q p) (b := false) (c := false)
    (fun peer h => by simp [of_decide_eq_true h]) (fun _ _ => rfl)
  simp only [Bool.false_eq_true, if_false, Nat.add_zero] at hpromoted hdemoted
  rw [hdemoted, hpromoted]

/-- The warm peers that churn counts: some have become hot by then, and the hot ones above
    the maximum warm. -/
def warmAtChurn (g : Governor) : ℕ :=
  let rested := settled now g
  let hotter := min (promotions floats now rested) (rested.peers.rows.countP (eligible now))
  warmCount rested - hotter + (hotCount rested + hotter - g.targets.hotMax)

theorem warmCount_beforeChurn :
    warmCount (beforeChurn floats iteration now g).1 = warmAtChurn floats now g := by
  obtain ⟨middle, hpromotes, hdemotes⟩ := beforeChurn_moves floats iteration now g
  have hwarm := hpromotes.countP (q := fun p => p.state = .warm) (b := true) (c := false)
    (fun peer h => by simp [(eligible_iff.mp h).1]) (fun _ _ => rfl)
  have hhot := hpromotes.countP (q := fun p => p.state = .hot) (b := false) (c := true)
    (fun peer h => by simp [(eligible_iff.mp h).1]) (fun _ _ => rfl)
  have hcooled := hdemotes.countP (q := fun p => p.state = .warm) (b := false) (c := true)
    (fun peer h => by simp [of_decide_eq_true h]) (fun _ _ => rfl)
  have htargets : middle.targets = g.targets := hpromotes.targets_eq
  have hcount : hotCount middle = middle.peers.rows.countP (fun p => p.state = .hot) := rfl
  rw [htargets] at hcooled
  simp only [Bool.false_eq_true, if_false, if_true, Nat.add_zero] at hwarm hhot hcooled
  unfold warmAtChurn warmCount
  dsimp only
  unfold hotCount at hcount hcooled ⊢
  omega

end Phases

section Lists
variable {α : Type} [LinearOrder α] (floats : Floats α) (iteration : Iteration) (now : ℕ)

def prefers (g : Governor) (a b : PeerInfo) : Bool :=
  !b.hasGroupOverlap g.ourGroups || a.hasGroupOverlap g.ourGroups

def greedyDials (g : Governor) : List NodeId :=
  ((((iteration.values g.peers.rows).filter (promotable now g)).mergeSort (prefers g)).take
    (g.targets.warmMax - (warmCount g + hotCount g))).map PeerInfo.nodeId

theorem promoteColdToWarm_snd (s : Governor × GovernorActions) :
    (promoteColdToWarm iteration now s).2 =
      { s.2 with connect := s.2.connect ++ greedyDials iteration now s.1 } := by
  unfold promoteColdToWarm greedyDials
  dsimp only
  by_cases hroom : s.1.targets.warmMax ≤ warmCount s.1 + hotCount s.1
  · rw [if_pos hroom, Nat.sub_eq_zero_of_le hroom, List.take_zero, List.map_nil, List.append_nil]
  rw [if_neg hroom]
  -- With room, the choice is empty only when nobody is ready, and then the fallback is too.
  split_ifs with hempty
  · rw [List.isEmpty_iff, ← List.map_take, List.map_eq_nil_iff, List.take_eq_nil_iff] at hempty
    have hnone := hempty.resolve_left (by omega)
    have hready := List.Perm.eq_nil (hnone ▸ (List.mergeSort_perm _ _).symm)
    rw [show peersInOrder iteration s = iteration.values s.1.peers.rows from rfl] at hready
    simp [peersInOrder, hready]
  · rw [List.map_take]
    rfl

theorem mem_reapDead_disconnect (s : Governor × GovernorActions) (id : NodeId) :
    id ∈ (reapDead iteration now s).2.disconnect ↔ id ∈ s.2.disconnect ∨
      ∃ peer ∈ s.1.peers.rows, peer.nodeId = id ∧ peer.state = .warm ∧ dead now peer = true := by
  have hfold : ∀ (peers : List PeerInfo) (actions : GovernorActions),
      id ∈ (peers.foldl (fun actions peer => reportReaped peer actions) actions).disconnect ↔
        id ∈ actions.disconnect ∨ ∃ peer ∈ peers, peer.nodeId = id ∧ peer.state = .warm := by
    intro peers
    induction peers with
    | nil => simp
    | cons peer peers ih =>
      intro actions
      rw [List.foldl_cons, ih]
      cases hstate : peer.state with
      | warm => simp [reportReaped, hstate, GovernorActions.transition, or_assoc, eq_comm]
      | _ => simp [reportReaped, hstate, GovernorActions.transition]
  have hperm := filter_perm iteration s (dead now)
  unfold reapDead
  dsimp only
  rw [forEach_snd (Table.picks_all hperm).nodup
    (fun peer hpeer => (List.mem_filter.mp (hperm.mem_iff.mp hpeer)).1), hfold]
  simp only [hperm.mem_iff, List.mem_filter]
  constructor
  · rintro (hid | ⟨peer, ⟨hrow, hdead⟩, hid, hwarm⟩)
    · exact .inl hid
    · exact .inr ⟨peer, hrow, hid, hwarm, hdead⟩
  · rintro (hid | ⟨peer, hrow, hid, hwarm, hdead⟩)
    · exact .inl hid
    · exact .inr ⟨peer, ⟨hrow, hdead⟩, hid, hwarm⟩

theorem reapDead_connect (s : Governor × GovernorActions) :
    (reapDead iteration now s).2.connect = s.2.connect := by
  refine forEach_kept GovernorActions.connect (fun peer actions => ?_) _
  unfold reportReaped
  split <;> rfl

def dialLists (actions : GovernorActions) : List NodeId × List NodeId :=
  (actions.connect, actions.disconnect)

theorem beforeChurn_dialLists (g : Governor) :
    dialLists (beforeChurn floats iteration now g).2 = dialLists (firstDials iteration now g).2 := by
  have hpromotes : ∀ s : Governor × GovernorActions,
      dialLists (promoteWarmToHot floats iteration now s).2 = dialLists s.2 := by
    intro s
    unfold promoteWarmToHot
    dsimp only
    split_ifs
    · split
      · split_ifs
        · refine forEach_kept dialLists (fun _ _ => ?_) _
          rfl
        · rfl
      · rfl
    · refine forEach_kept dialLists (fun _ _ => ?_) _
      rfl
  have hdemotes : ∀ s : Governor × GovernorActions,
      dialLists (demoteExcessHot floats iteration now s).2 = dialLists s.2 := by
    intro s
    unfold demoteExcessHot
    dsimp only
    split_ifs
    · rfl
    · refine forEach_kept dialLists (fun _ _ => ?_) _
      rfl
  unfold beforeChurn
  rw [hdemotes, hpromotes]

theorem beforeChurn_connect (g : Governor) :
    (beforeChurn floats iteration now g).2.connect = greedyDials iteration now (settled now g) := by
  have hlists := congrArg Prod.fst (beforeChurn_dialLists floats iteration now g)
  refine hlists.trans ?_
  change (promoteColdToWarm iteration now _).2.connect = _
  rw [promoteColdToWarm_snd]
  change (reapDead iteration now _).2.connect ++ _ = _
  rw [reapDead_connect, reapDead_fst]
  rfl

theorem mem_beforeChurn_disconnect (g : Governor) (id : NodeId) :
    id ∈ (beforeChurn floats iteration now g).2.disconnect ↔
      ∃ peer ∈ g.peers.rows, peer.nodeId = id ∧ peer.state = .warm ∧ dead now peer = true := by
  have hlists := congrArg Prod.snd (beforeChurn_dialLists floats iteration now g)
  have hfirst : (firstDials iteration now g).2.disconnect =
      (reapDead iteration now (unbanExpired iteration now (g, .default))).2.disconnect := by
    unfold firstDials
    rw [promoteColdToWarm_snd]
  change id ∈ (dialLists (beforeChurn floats iteration now g).2).2 ↔ _
  rw [hlists]
  change id ∈ (firstDials iteration now g).2.disconnect ↔ _
  rw [hfirst, mem_reapDead_disconnect]
  have hnone : id ∉ (unbanExpired iteration now (g, .default)).2.disconnect := List.not_mem_nil
  rw [or_iff_right hnone]
  -- The bans that are lifted before do not concern the peers that are reaped.
  constructor
  · rintro ⟨peer, hpeer, hid, hwarm, hdead⟩
    rcases Table.mem_edit_only hpeer with ⟨hrow, -⟩ | ⟨_, -, -, rfl⟩
    · exact ⟨peer, hrow, hid, hwarm, hdead⟩
    · cases hwarm
  · rintro ⟨peer, hrow, hid, hwarm, hdead⟩
    refine ⟨peer, ?_, hid, hwarm, hdead⟩
    have hexpired : ¬ expired now peer = true := by simp [expired, hwarm]
    have hsame : (unbanned.only (expired now)).apply peer = peer := Edit.only_of_neg _ hexpired
    exact List.mem_map.mpr ⟨peer, hrow, hsame⟩

end Lists
section Churn
variable {α : Type} (floats : Floats α) (iteration : Iteration) (now : ℕ)
  {s : Governor × GovernorActions}

/-- Churn is due and finds warm peers to replace, and cold ones to replace them by. -/
def ChurnActive (g : Governor) : Prop :=
  fromSecs g.targets.churnIntervalSecs ≤ now - g.lastChurn ∧
    floats.churnCount g.targets.churnFraction (warmCount g) ≠ 0 ∧ coldCount g ≠ 0

theorem churn_idle (h : ¬ ChurnActive floats now s.1) :
    (churn floats iteration now s).2 = s.2 ∧ (churn floats iteration now s).1.peers = s.1.peers := by
  unfold churn
  dsimp only
  split_ifs with hdue hnone
  · exact ⟨rfl, rfl⟩
  · exact ⟨rfl, rfl⟩
  · rw [not_or] at hnone
    exact absurd ⟨not_lt.mp hdue, hnone⟩ h

def afterDemotions (s : Governor × GovernorActions) : Governor × GovernorActions :=
  let s := ({ s.1 with lastChurn := now }, s.2)
  let warmIds := (((peersInOrder iteration s).filter (fun p => p.state = .warm)).take
    (floats.churnCount s.1.targets.churnFraction (warmCount s.1))).map PeerInfo.nodeId
  forEach s warmIds churned (fun peer actions =>
    { actions with disconnect := actions.disconnect ++ [peer.nodeId] }.transition
      peer.nodeId "warm" "cold")

def churnDials (s : Governor × GovernorActions) : List NodeId :=
  let demoted := afterDemotions floats iteration now s
  (((peersInOrder iteration demoted).filter
    (fun p => p.state = .cold && isDialable demoted.1 p)).take
      (floats.churnCount s.1.targets.churnFraction (warmCount s.1))).map PeerInfo.nodeId

theorem churn_active (h : ChurnActive floats now s.1) :
    churn floats iteration now s =
      ((afterDemotions floats iteration now s).1,
        { (afterDemotions floats iteration now s).2 with
          connect := (afterDemotions floats iteration now s).2.connect ++
            churnDials floats iteration now s }) := by
  have hmoves : ¬ (floats.churnCount s.1.targets.churnFraction (warmCount s.1) = 0 ∨
      coldCount s.1 = 0) := not_or.mpr h.2
  unfold churn
  rw [if_neg (not_lt.mpr h.1)]
  exact if_neg hmoves

theorem afterDemotions_connect (s : Governor × GovernorActions) :
    (afterDemotions floats iteration now s).2.connect = s.2.connect := by
  refine forEach_kept GovernorActions.connect (fun _ _ => ?_) _
  rfl

theorem churn_connect {id : NodeId} (hid : id ∈ (churn floats iteration now s).2.connect) :
    id ∈ s.2.connect ∨ ChurnActive floats now s.1 ∧
      ∃ peer, (churn floats iteration now s).1.peers.lookup id = some peer ∧ peer.state = .cold ∧
        isDialable s.1 peer = true := by
  by_cases hactive : ChurnActive floats now s.1
  · rw [churn_active floats iteration now hactive] at hid ⊢
    rcases List.mem_append.mp hid with hid | hid
    · left
      rwa [afterDemotions_connect] at hid
    · obtain ⟨peer, hpeer, rfl⟩ := List.mem_map.mp hid
      obtain ⟨hrow, hfound⟩ := List.mem_filter.mp
        ((filter_perm iteration _ _).mem_iff.mp (List.mem_of_mem_take hpeer))
      rw [Bool.and_eq_true] at hfound
      refine .inr ⟨hactive, peer, Table.lookup_key _ hrow, of_decide_eq_true hfound.1, ?_⟩
      have hdialable := hfound.2
      unfold afterDemotions at hdialable
      rw [forEach_fst] at hdialable
      exact hdialable
  · rw [(churn_idle floats iteration now hactive).1] at hid
    exact .inl hid

end Churn

section Tick
variable {α : Type} [LinearOrder α] (floats : Floats α) (iteration : Iteration) (now : ℕ)
  (g : Governor)

theorem promotable_iff {g : Governor} {peer : PeerInfo} : promotable now g peer = true ↔
    peer.state = .cold ∧ isDialable g peer = true ∧
      peer.lastDisconnected.all (fun t => reconnectBackoff peer.disconnectCount ≤ now - t) = true := by
  simp [promotable, and_assoc]

theorem mem_greedyDials {id : NodeId} (h : id ∈ greedyDials iteration now g) :
    ∃ peer ∈ g.peers.rows, peer.nodeId = id ∧ promotable now g peer = true := by
  obtain ⟨peer, hpeer, rfl⟩ := List.mem_map.mp h
  have hfound := List.mem_mergeSort.mp (List.mem_of_mem_take hpeer)
  obtain ⟨hrow, hpromotable⟩ := List.mem_filter.mp hfound
  exact ⟨peer, (iteration.perm _).mem_iff.mp hrow, rfl, hpromotable⟩

theorem tick_connect {id : NodeId} (hid : id ∈ (tick floats iteration now g).2.connect) :
    id ∈ greedyDials iteration now (settled now g) ∨
      ChurnActive floats now (beforeChurn floats iteration now g).1 ∧
        ∃ peer, (afterPhases floats iteration now g).peers.lookup id = some peer ∧
          peer.state = .cold ∧ isDialable g peer = true := by
  rw [tick_snd, phases_eq] at hid
  rcases churn_connect floats iteration now hid with hid | ⟨hactive, peer, hpeer, hcold, hdialable⟩
  · left
    rwa [beforeChurn_connect] at hid
  · rw [beforeChurn_fst, isDialable_peers] at hdialable
    rw [afterPhases_eq]
    exact .inr ⟨hactive, peer, hpeer, hcold, hdialable⟩

theorem dialled_cold {id : NodeId} (hid : id ∈ (tick floats iteration now g).2.connect) :
    ∃ peer, (afterPhases floats iteration now g).peers.lookup id = some peer ∧
      peer.state = .cold ∧ isDialable g peer = true := by
  rcases tick_connect floats iteration now g hid with hgreedy | ⟨-, hchurned⟩
  · obtain ⟨peer, hpeer, rfl, hpromotable⟩ := mem_greedyDials iteration now (settled now g) hgreedy
    obtain ⟨hcold, hdialable, -⟩ := (promotable_iff now).mp hpromotable
    have hbefore := (cold_beforeChurn_iff floats iteration now g hcold).mpr hpeer
    obtain ⟨_, hchurns⟩ := churn_moves floats iteration now (beforeChurn floats iteration now g)
    rw [afterPhases_eq]
    exact ⟨peer, hchurns.lookup_of_not (Table.lookup_key _ hbefore) (by simp [hcold]), hcold,
      hdialable⟩
  · exact hchurned

def barred (peer : PeerInfo) : Bool :=
  match peer.state with
  | .banned expiry _ _ => now < expiry
  | _ => false

structure SoundDial (id : NodeId) (peer : PeerInfo) : Prop where
  known : g.peers.lookup id = some peer
  dialable : isDialable g peer = true
  not_barred : barred now peer = false
  state_after : stateOf (afterTick floats iteration now g) id = some .cold ∨
    stateOf (afterTick floats iteration now g) id = none

theorem soundDial_of_mem {id : NodeId} (hid : id ∈ (tick floats iteration now g).2.connect) :
    ∃ peer, SoundDial floats iteration now g id peer := by
  obtain ⟨peer, hpeer, hcold, hdialable⟩ := dialled_cold floats iteration now g hid
  obtain ⟨old, hold, hpasses⟩ := afterPhases_passes floats iteration (Table.mem_of_lookup hpeer)
  have hdescends := hpasses.descends now
  have hknown : g.peers.lookup id = some old := by
    have hkey : old.nodeId = id := hdescends.nodeId_eq.symm.trans (Table.key_of_lookup hpeer)
    rw [← hkey]
    exact g.peers.lookup_key hold
  refine ⟨old, hknown, (isDialable_of_descends hdescends g).symm.trans hdialable, ?_, ?_⟩
  · unfold barred
    split
    · next expiry reason escalation hbanned =>
      refine decide_eq_false (fun hlasts => ?_)
      have hkept := (phaseTrace floats iteration now g).lookup_banned hknown hbanned hlasts
      rw [hpeer] at hkept
      rw [← Option.some.inj hkept, hcold] at hbanned
      cases hbanned
    · rfl
  · have hstate : stateOf (afterPhases floats iteration now g) id = some .cold :=
      stateOf_eq_some_iff.mpr ⟨peer, hpeer, hcold⟩
    rcases (afterTick_evicts floats iteration now g).stateOf_eq id with hsame | ⟨hgone, -⟩
    · exact .inl (hsame.trans hstate)
    · exact .inr hgone

/-- Whatever the policy, the targets and the order, a tick dials only peers that it knew, that
    the policy lets it dial, that are not banned, and that it leaves cold or evicts. -/
theorem tick_dials_sound : ∀ id ∈ (tick floats iteration now g).2.connect,
    ∃ peer, SoundDial floats iteration now g id peer :=
  fun _ => soundDial_of_mem floats iteration now g

end Tick

section Example

def flakyAndFriend : Governor :=
  run (operate evenFloats) freshGovernor
    [.addPeer 0 "flaky" [] [], .markDialFailed 0 "flaky", .addPeer 0 "friend" [] [],
      .markConnected 0 "friend"]

theorem flaky_dialled : (tick evenFloats plainOrder 1 flakyAndFriend).2.connect = ["flaky"] := by
  decide +kernel

theorem flaky_dialled_soundly :
    "flaky" ∈ (tick evenFloats plainOrder 1 flakyAndFriend).2.connect ∧
      ∃ peer, SoundDial evenFloats plainOrder 1 flakyAndFriend "flaky" peer := by
  have hdialled : "flaky" ∈ (tick evenFloats plainOrder 1 flakyAndFriend).2.connect := by
    rw [flaky_dialled]
    exact List.mem_singleton.mpr rfl
  exact ⟨hdialled, tick_dials_sound evenFloats plainOrder 1 flakyAndFriend "flaky" hdialled⟩

end Example
end CordeliaCore.PeerGovernor
