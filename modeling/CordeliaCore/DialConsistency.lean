import CordeliaCore.DialBackoff
import CordeliaCore.SortedChoice

set_option autoImplicit false

namespace CordeliaCore.PeerGovernor
open ProtocolMessages KeyedTable StepRuns SortedChoice

section Order

def firstly (id : NodeId) : Iteration where
  values peers := peers.filter (fun p => p.nodeId = id) ++ peers.filter (fun p => !decide (p.nodeId = id))
  perm peers := List.filter_append_perm _ peers

theorem firstly_filter (t : Peers) {peer : PeerInfo} (hpeer : peer ∈ t.rows) {p : PeerInfo → Bool}
    (hp : p peer = true) :
    ∃ rest, ((firstly peer.nodeId).values t.rows).filter p = peer :: rest := by
  have hfirst : t.rows.filter (fun q => q.nodeId = peer.nodeId) = [peer] := by
    have hnodup : (t.rows.filter (fun q => q.nodeId = peer.nodeId)).Nodup :=
      (List.Nodup.of_map PeerInfo.nodeId t.nodup_keys).filter _
    refine List.Perm.eq_singleton ((List.perm_ext_iff_of_nodup hnodup (List.nodup_singleton _)).mpr
      (fun q => ?_))
    rw [List.mem_filter, List.mem_singleton]
    constructor
    · rintro ⟨hq, hid⟩
      exact t.key_injOn hq hpeer (of_decide_eq_true hid)
    · rintro rfl
      exact ⟨hpeer, by simp⟩
  refine ⟨(t.rows.filter (fun q => !decide (q.nodeId = peer.nodeId))).filter p, ?_⟩
  change (t.rows.filter _ ++ t.rows.filter _).filter p = _
  rw [hfirst, List.filter_append, List.filter_cons_of_pos hp]
  rfl

end Order

section Choice
variable {iteration : Iteration} {t : Peers} {p : PeerInfo → Bool} {le : PeerInfo → PeerInfo → Bool}
  (trans : ∀ a b c, le a b → le b c → le a c) (total : ∀ a b, le a b || le b a) {k : ℕ}

def front (iteration : Iteration) (t : Peers) (p : PeerInfo → Bool)
    (le : PeerInfo → PeerInfo → Bool) (k : ℕ) : List NodeId :=
  ((((iteration.values t.rows).filter p).mergeSort le).take k).map PeerInfo.nodeId

theorem front_picks : t.Picks p k (front iteration t p le k) :=
  Table.picks_take ((List.mergeSort_perm _ _).trans ((iteration.perm t.rows).filter p)) k

include trans total

theorem countP_lt_of_mem_front {peer : PeerInfo} (hpeer : peer ∈ t.rows)
    (h : peer.nodeId ∈ front iteration t p le k) :
    p peer = true ∧ t.rows.countP (fun q => !le peer q && p q) < k := by
  refine ⟨front_picks.of_mem hpeer h, ?_⟩
  obtain ⟨found, hfound, hid⟩ := List.mem_map.mp h
  have hrow := (List.mem_filter.mp (List.mem_mergeSort.mp (List.mem_of_mem_take hfound))).1
  obtain rfl := t.key_injOn ((iteration.perm t.rows).mem_iff.mp hrow) hpeer hid
  have hcount := countP_lt_of_mem_take trans total hfound
  rwa [((iteration.perm t.rows).filter p).countP_eq, List.countP_filter] at hcount

theorem mem_front_of_countP_lt {peer : PeerInfo} (hpeer : peer ∈ t.rows) (hp : p peer = true)
    (h : t.rows.countP (fun q => !le peer q && p q) < k) :
    peer.nodeId ∈ front (firstly peer.nodeId) t p le k := by
  obtain ⟨rest, hrest⟩ := firstly_filter t hpeer hp
  unfold front
  rw [hrest]
  apply List.mem_map_of_mem
  apply mem_take_of_countP_lt trans total
  rwa [← hrest, (((firstly peer.nodeId).perm t.rows).filter p).countP_eq, List.countP_filter]

end Choice
section Conditions
variable (now : ℕ) (g : Governor)

/-- A peer that is cold when the promotion looks, may be dialled and is not in its backoff. -/
def ready (peer : PeerInfo) : Bool :=
  candidate now peer && isDialable g peer && !waiting now peer

/-- Fewer peers that are preferred to it are ready than there are connections to fill. -/
def MayDial (peer : PeerInfo) : Prop :=
  ready now g peer = true ∧
    g.peers.rows.countP (fun q => !prefers g peer q && ready now g q) <
      g.targets.warmMax - g.peers.rows.countP (staysActive now)

theorem MayDial.candidate {now : ℕ} {g : Governor} {peer : PeerInfo} (h : MayDial now g peer) :
    candidate now peer = true := by
  have hready := h.1
  simp only [ready, Bool.and_eq_true] at hready
  exact hready.1.1

def MayEvict (peer : PeerInfo) : Prop :=
  g.peers.rows.countP (fun q => decide (q.lastActivity < peer.lastActivity) && candidate now q) <
    g.peers.rows.countP (candidate now) - g.targets.coldMax

/-- No peer that may be dialled is about to be reaped, which a ready warm peer is, or may be
    evicted. -/
def Orderly : Prop :=
  ∀ peer ∈ g.peers.rows, MayDial now g peer → peer.state ≠ .warm ∧ ¬ MayEvict now g peer

end Conditions

section Tick
variable {α : Type} [LinearOrder α] (floats : Floats α) (iteration : Iteration) (now : ℕ)
  (g : Governor)

structure Consistent : Prop where
  nodup : (tick floats iteration now g).2.connect.Nodup
  disjoint : ∀ id ∈ (tick floats iteration now g).2.connect,
    id ∉ (tick floats iteration now g).2.disconnect
  present : ∀ id ∈ (tick floats iteration now g).2.connect,
    ∃ old peer, g.peers.lookup id = some old ∧
      (afterTick floats iteration now g).peers.lookup id = some peer ∧ peer.addrs = old.addrs

theorem promotable_settle (peer : PeerInfo) :
    promotable now (settled now g) (settle now peer) = ready now g peer := by
  have hdialable : isDialable (settled now g) (settle now peer) = isDialable g peer :=
    settle_kept now (isDialable g) (fun _ _ _ _ => rfl) peer
  have hwaiting : waiting now (settle now peer) = waiting now peer :=
    settle_kept now (waiting now) (fun _ _ _ _ => rfl) peer
  rw [promotable_eq, hdialable, hwaiting, settle_cold, ready]

theorem prefers_trans (a b c : PeerInfo) (hab : prefers g a b = true) (hbc : prefers g b c = true) :
    prefers g a c = true := by
  unfold prefers at *
  cases ha : a.hasGroupOverlap g.ourGroups <;> cases hb : b.hasGroupOverlap g.ourGroups <;>
    cases hc : c.hasGroupOverlap g.ourGroups <;> simp_all

theorem prefers_total (a b : PeerInfo) : (prefers g a b || prefers g b a) = true := by
  unfold prefers
  cases a.hasGroupOverlap g.ourGroups <;> cases b.hasGroupOverlap g.ourGroups <;> rfl

theorem greedyDials_eq_front : greedyDials iteration now (settled now g) =
    front iteration (settled now g).peers (promotable now (settled now g)) (prefers g)
      (g.targets.warmMax - g.peers.rows.countP (staysActive now)) := by
  rw [← activeCount_settled]
  rfl

theorem prefers_settle (a b : PeerInfo) :
    prefers g (settle now a) (settle now b) = prefers g a b := by
  have hoverlap : ∀ peer, (settle now peer).hasGroupOverlap g.ourGroups =
      peer.hasGroupOverlap g.ourGroups :=
    settle_kept now (fun p => p.hasGroupOverlap g.ourGroups) (fun _ _ _ _ => rfl)
  unfold prefers
  rw [hoverlap, hoverlap]

theorem settle_nodeId (peer : PeerInfo) : (settle now peer).nodeId = peer.nodeId :=
  settle_kept now PeerInfo.nodeId (fun _ _ _ _ => rfl) peer

theorem countP_settled_preferred (peer : PeerInfo) :
    (settled now g).peers.rows.countP
        (fun q => !prefers g (settle now peer) q && promotable now (settled now g) q) =
      g.peers.rows.countP (fun q => !prefers g peer q && ready now g q) := by
  rw [countP_settled]
  simp only [prefers_settle, promotable_settle]

theorem settle_mem {peer : PeerInfo} (h : peer ∈ g.peers.rows) :
    settle now peer ∈ (settled now g).peers.rows := by
  rw [settled_rows]
  exact List.mem_map_of_mem h

theorem mayDial_of_mem {peer : PeerInfo} (hpeer : peer ∈ g.peers.rows)
    (h : peer.nodeId ∈ greedyDials iteration now (settled now g)) : MayDial now g peer := by
  rw [greedyDials_eq_front, ← settle_nodeId now peer] at h
  obtain ⟨hready, hcount⟩ :=
    countP_lt_of_mem_front (prefers_trans g) (prefers_total g) (settle_mem now g hpeer) h
  rw [promotable_settle] at hready
  rw [countP_settled_preferred] at hcount
  exact ⟨hready, hcount⟩

theorem mem_of_mayDial {peer : PeerInfo} (hpeer : peer ∈ g.peers.rows) (h : MayDial now g peer) :
    peer.nodeId ∈ greedyDials (firstly peer.nodeId) now (settled now g) := by
  rw [greedyDials_eq_front, ← settle_nodeId now peer]
  refine mem_front_of_countP_lt (prefers_trans g) (prefers_total g) (settle_mem now g hpeer) ?_ ?_
  · rw [promotable_settle]
    exact h.1
  · rw [countP_settled_preferred]
    exact h.2

def older (a b : PeerInfo) : Bool := a.lastActivity ≤ b.lastActivity

theorem older_trans (a b c : PeerInfo) (hab : older a b = true) (hbc : older b c = true) :
    older a c = true := by
  unfold older at *
  simp only [decide_eq_true_eq] at *
  omega

theorem older_total (a b : PeerInfo) : (older a b || older b a) = true := by
  unfold older
  simp only [Bool.or_eq_true, decide_eq_true_eq]
  omega

def evicted (t : Peers) (excess : ℕ) : List NodeId :=
  front iteration t (fun p => p.state = .cold) older excess

theorem evictExcessCold_peers (s : Governor × GovernorActions) :
    (evictExcessCold iteration s).1.peers =
      s.1.peers.eraseAll (evicted iteration s.1.peers (coldCount s.1 - s.1.targets.coldMax)) := by
  unfold evictExcessCold
  split_ifs with hmax
  · rw [Nat.sub_eq_zero_of_le hmax]
    rfl
  · rfl

theorem countP_cold (q : PeerInfo → Bool) :
    (beforeChurn floats iteration now g).1.peers.rows.countP
        (fun p => q p && decide (p.state = .cold)) =
      g.peers.rows.countP (fun p => q (settle now p) && candidate now p) := by
  simp only [Bool.and_comm (q _)]
  rw [countP_beforeChurn, countP_settled]
  simp only [settle_cold]

theorem coldCount_beforeChurn : coldCount (beforeChurn floats iteration now g).1 =
    g.peers.rows.countP (candidate now) := by
  have hcount := countP_cold floats iteration now g (fun _ => true)
  simp only [Bool.true_and] at hcount
  exact hcount

section Evicted
variable {now g} {peer : PeerInfo} (hpeer : peer ∈ g.peers.rows)
  (hcandidate : candidate now peer = true)
include hpeer hcandidate

theorem candidate_mem :
    settle now peer ∈ (beforeChurn floats iteration now g).1.peers.rows :=
  (cold_beforeChurn_iff floats iteration now g ((settle_cold_iff now peer).mpr hcandidate)).mpr
    (settle_mem now g hpeer)

omit hpeer hcandidate in
theorem countP_older (peer : PeerInfo) :
    (beforeChurn floats iteration now g).1.peers.rows.countP
        (fun q => !older (settle now peer) q && decide (q.state = .cold)) =
      g.peers.rows.countP
        (fun q => decide (q.lastActivity < peer.lastActivity) && candidate now q) := by
  have hactivity : ∀ p, (settle now p).lastActivity = p.lastActivity :=
    settle_kept now PeerInfo.lastActivity (fun _ _ _ _ => rfl)
  rw [countP_cold floats iteration now g (fun q => !older (settle now peer) q)]
  simp only [older, hactivity, ← decide_not, not_le]

theorem mayEvict_of_mem
    (h : peer.nodeId ∈ evicted iteration (beforeChurn floats iteration now g).1.peers
      (g.peers.rows.countP (candidate now) - g.targets.coldMax)) : MayEvict now g peer := by
  rw [← settle_nodeId now peer] at h
  have hcount := (countP_lt_of_mem_front older_trans older_total
    (candidate_mem floats iteration hpeer hcandidate) h).2
  rwa [countP_older] at hcount

theorem mem_of_mayEvict (h : MayEvict now g peer) : peer.nodeId ∈ evicted (firstly peer.nodeId)
    (beforeChurn floats (firstly peer.nodeId) now g).1.peers
    (g.peers.rows.countP (candidate now) - g.targets.coldMax) := by
  rw [← settle_nodeId now peer]
  refine mem_front_of_countP_lt older_trans older_total
    (candidate_mem floats _ hpeer hcandidate)
    (decide_eq_true ((settle_cold_iff now peer).mpr hcandidate)) ?_
  rw [countP_older]
  exact h

end Evicted

section Calm
variable {floats iteration now g} (hcalm : ¬ Churns floats now g)
include hcalm

theorem phases_calm : (phases floats iteration now g).2 = (beforeChurn floats iteration now g).2 ∧
    (phases floats iteration now g).1.peers = (beforeChurn floats iteration now g).1.peers := by
  rw [phases_eq]
  exact churn_idle floats iteration now (fun h => hcalm (churns_of_active floats iteration now g h))

theorem tick_connect_calm :
    (tick floats iteration now g).2.connect = greedyDials iteration now (settled now g) := by
  rw [tick_snd, (phases_calm hcalm).1, beforeChurn_connect]

theorem mem_tick_disconnect_calm (id : NodeId) :
    id ∈ (tick floats iteration now g).2.disconnect ↔
      ∃ peer ∈ g.peers.rows, peer.nodeId = id ∧ peer.state = .warm ∧ dead now peer = true := by
  rw [tick_snd, (phases_calm hcalm).1, mem_beforeChurn_disconnect]

theorem afterTick_peers_calm : (afterTick floats iteration now g).peers =
    (beforeChurn floats iteration now g).1.peers.eraseAll
      (evicted iteration (beforeChurn floats iteration now g).1.peers
        (g.peers.rows.countP (candidate now) - g.targets.coldMax)) := by
  have htargets := (phaseTrace floats iteration now g).last_targets
  unfold afterPhases at htargets
  have hcount : coldCount (phases floats iteration now g).1 = g.peers.rows.countP (candidate now) := by
    rw [← coldCount_beforeChurn floats iteration now g]
    unfold coldCount
    rw [(phases_calm hcalm).2]
  unfold afterTick tick
  rw [evictExcessCold_peers, htargets, hcount, (phases_calm hcalm).2]

theorem consistent_of_orderly (h : Orderly now g) : Consistent floats iteration now g := by
  have hdials : ∀ id ∈ (tick floats iteration now g).2.connect, ∃ peer ∈ g.peers.rows,
      peer.nodeId = id ∧ MayDial now g peer := by
    intro id hid
    obtain ⟨peer, hsound⟩ := soundDial_of_mem floats iteration now g hid
    have hpeer := Table.mem_of_lookup hsound.known
    have hkey : peer.nodeId = id := Table.key_of_lookup hsound.known
    rw [tick_connect_calm hcalm, ← hkey] at hid
    exact ⟨peer, hpeer, hkey, mayDial_of_mem iteration now g hpeer hid⟩
  refine ⟨?_, fun id hid hdisconnect => ?_, fun id hid => ?_⟩
  · rw [tick_connect_calm hcalm, greedyDials_eq_front]
    exact front_picks.nodup
  · obtain ⟨peer, hpeer, hkey, hmay⟩ := hdials id hid
    obtain ⟨other, hother, hkey', hwarm, -⟩ := (mem_tick_disconnect_calm hcalm id).mp hdisconnect
    have hsame : peer = other := g.peers.key_injOn hpeer hother (hkey.trans hkey'.symm)
    exact (h peer hpeer hmay).1 (hsame ▸ hwarm)
  · obtain ⟨peer, hpeer, rfl, hmay⟩ := hdials id hid
    have hcandidate := hmay.candidate
    refine ⟨peer, settle now peer, g.peers.lookup_key hpeer, ?_,
      settle_kept now PeerInfo.addrs (fun _ _ _ _ => rfl) peer⟩
    rw [afterTick_peers_calm hcalm, Table.lookup_eraseAll, if_neg, ← settle_nodeId now peer]
    · exact Table.lookup_key _ (candidate_mem floats iteration hpeer hcandidate)
    · intro hevicted
      exact (h peer hpeer hmay).2 (mayEvict_of_mem floats iteration hpeer hcandidate hevicted)

/-- The order that puts the peer first dials it, and evicts it too if it may. -/
theorem orderly_of_consistent (h : ∀ iteration, Consistent floats iteration now g) :
    Orderly now g := by
  intro peer hpeer hmay
  have hcandidate := hmay.candidate
  have hconsistent := h (firstly peer.nodeId)
  have hdialled : peer.nodeId ∈ (tick floats (firstly peer.nodeId) now g).2.connect := by
    rw [tick_connect_calm hcalm]
    exact mem_of_mayDial now g hpeer hmay
  refine ⟨fun hwarm => ?_, fun hevict => ?_⟩
  · have hdead : dead now peer = true := by
      simpa [candidate, hwarm, expired] using hcandidate
    exact hconsistent.disjoint peer.nodeId hdialled
      ((mem_tick_disconnect_calm hcalm _).mpr ⟨peer, hpeer, rfl, hwarm, hdead⟩)
  · obtain ⟨_, after, -, hafter, -⟩ := hconsistent.present peer.nodeId hdialled
    rw [afterTick_peers_calm hcalm, Table.lookup_eraseAll,
      if_pos (mem_of_mayEvict floats hpeer hcandidate hevict)] at hafter
    cases hafter

theorem consistent_iff : (∀ iteration, Consistent floats iteration now g) ↔ Orderly now g :=
  ⟨orderly_of_consistent hcalm, fun h _ => consistent_of_orderly hcalm h⟩

end Calm
end Tick

/-- In a run without churn every tick can be carried out, in any order of the peers, when no
    peer that may be dialled is about to be reaped or may be evicted, and only then. -/
theorem dials_consistent_iff {α : Type} [LinearOrder α] (floats : Floats α) (g : Governor)
    (ops : List Operation)
    (hcalm : Along (operate floats) (EachTick (fun now g => ¬ Churns floats now g)) g ops) :
    Along (operate floats)
        (EachTick (fun now g => ∀ iteration, Consistent floats iteration now g)) g ops ↔
      Along (operate floats) (EachTick Orderly) g ops := by
  refine along_congr_of_guard (fun g op hop => ?_) hcalm
  cases op with
  | tick iteration now => exact consistent_iff hop
  | _ => rfl

section Example

def dialling : GovernorTargets := ⟨0, 0, 0, 5, 10, 3600, 0⟩

def dialler : Governor := withDialPolicy 0 dialling [] .all

theorem dialler_calm : Along (operate evenFloats) (EachTick (fun now g => ¬ Churns evenFloats now g))
    dialler friendAndNewcomer := by
  refine ⟨trivial, trivial, trivial, fun h => ?_, trivial⟩
  exact absurd h.1 (by decide +kernel)

theorem newcomer_dialled_consistently :
    Along (operate evenFloats) (EachTick (fun now g => ¬ Churns evenFloats now g)) dialler
        friendAndNewcomer ∧
      (Along (operate evenFloats)
          (EachTick (fun now g => ∀ iteration, Consistent evenFloats iteration now g)) dialler
          friendAndNewcomer ↔
        Along (operate evenFloats) (EachTick Orderly) dialler friendAndNewcomer) :=
  ⟨dialler_calm, dials_consistent_iff evenFloats dialler friendAndNewcomer dialler_calm⟩

def silentFriend : Governor :=
  run (operate evenFloats) dialler [.addPeer 0 "friend" [] [], .markConnected 0 "friend"]

theorem friend_reaped : (tick evenFloats plainOrder (fromSecs 91) silentFriend).2 =
    ⟨["friend"], ["friend"], [("friend", "warm", "cold")]⟩ := by
  decide +kernel

theorem friend_churned : (tick evenFloats (firstly "friend") 1 flakyAndFriend).2 =
    ⟨["friend"], ["friend"], [("friend", "warm", "cold")]⟩ := by
  decide +kernel

theorem not_consistent_of_shared {iteration : Iteration} {now : ℕ} {g : Governor} {id : NodeId}
    {transitions : List (NodeId × String × String)}
    (h : (tick evenFloats iteration now g).2 = ⟨[id], [id], transitions⟩) :
    ¬ Consistent evenFloats iteration now g := by
  intro hconsistent
  refine hconsistent.disjoint id ?_ ?_
  · rw [h]
    exact List.mem_singleton.mpr rfl
  · rw [h]
    exact List.mem_singleton.mpr rfl

/-- A silent peer is disconnected and dialled in one tick, and so is one that churn replaces. -/
theorem dropped_and_redialled :
    ((tick evenFloats plainOrder (fromSecs 91) silentFriend).2 =
        ⟨["friend"], ["friend"], [("friend", "warm", "cold")]⟩ ∧
      ¬ Consistent evenFloats plainOrder (fromSecs 91) silentFriend) ∧
    (tick evenFloats (firstly "friend") 1 flakyAndFriend).2 =
        ⟨["friend"], ["friend"], [("friend", "warm", "cold")]⟩ ∧
      ¬ Consistent evenFloats (firstly "friend") 1 flakyAndFriend :=
  ⟨⟨friend_reaped, not_consistent_of_shared friend_reaped⟩, friend_churned,
    not_consistent_of_shared friend_churned⟩

end Example

end CordeliaCore.PeerGovernor
