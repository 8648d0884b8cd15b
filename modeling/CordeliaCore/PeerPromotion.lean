import CordeliaCore.ConnectedFlag
import CordeliaCore.DialConsistency
import CordeliaCore.PeerTransitions

set_option autoImplicit false

namespace CordeliaCore.PeerGovernor
open KeyedTable StepRuns SortedChoice

section Dials
variable (iteration : Iteration) (now : ℕ)

def dialCandidates (g : Governor) : List PeerInfo :=
  g.peers.rows.filter (fun peer => peer.state = .cold && isDialable g peer && !waiting now peer)

theorem candidates_perm (g : Governor) :
    (((iteration.values g.peers.rows).filter (promotable now g)).mergeSort (prefers g)).Perm
      (dialCandidates now g) := by
  have hpromotable : promotable now g =
      fun peer => peer.state = .cold && isDialable g peer && !waiting now peer := by
    funext peer
    exact promotable_eq now g peer
  unfold dialCandidates
  rw [← hpromotable]
  exact (List.mergeSort_perm _ _).trans ((iteration.perm g.peers.rows).filter _)

/-- A phase dials as many candidates as there is room for, and one without a common group
    only when all with one are dialled. -/
theorem promoteColdToWarm_picks (s : Governor × GovernorActions) :
    let g := s.1
    ∃ chosen : List PeerInfo,
      promoteColdToWarm iteration now s =
          (g, { s.2 with connect := s.2.connect ++ chosen.map PeerInfo.nodeId }) ∧
        (chosen.map PeerInfo.nodeId).Nodup ∧
        chosen.length =
          min (g.targets.warmMax - (hotCount g + warmCount g)) (dialCandidates now g).length ∧
        (∀ peer ∈ chosen, peer ∈ dialCandidates now g) ∧
        ((∃ peer ∈ chosen, peer.hasGroupOverlap g.ourGroups = false) →
          ∀ peer ∈ dialCandidates now g, peer.hasGroupOverlap g.ourGroups = true →
            peer ∈ chosen) := by
  intro g
  have hperm := candidates_perm iteration now g
  have hpicks := Table.picks_take hperm (g.targets.warmMax - (warmCount g + hotCount g))
  refine ⟨(((iteration.values g.peers.rows).filter (promotable now g)).mergeSort (prefers g)).take
    (g.targets.warmMax - (warmCount g + hotCount g)), ?_, hpicks.nodup, ?_, ?_, ?_⟩
  · exact Prod.ext (promoteColdToWarm_fst iteration now s) (promoteColdToWarm_snd iteration now s)
  · rw [List.length_take, hperm.length_eq, Nat.add_comm]
  · intro peer hpeer
    exact hperm.mem_iff.mp (List.mem_of_mem_take hpeer)
  · rintro ⟨last, hlast, hnone⟩ peer hpeer hoverlap
    have hready := List.mem_mergeSort.mp (hperm.mem_iff.mpr hpeer)
    refine mem_take_of_not_le (prefers_trans g) (prefers_total g) hlast hready ?_
    simp [prefers, hnone, hoverlap]

end Dials

section Cooldown
variable {now since : ℕ} {op : Operation} {old new : PeerInfo}

/-- The peer was reaped at that time and has not been hot again. -/
def Cooling (since : ℕ) (peer : PeerInfo) : Prop :=
  peer.state ≠ .hot ∧ peer.demotedAt = some since

theorem Touched.cooling {p : PeerInfo → Bool} {e : Edit PeerInfo.nodeId (fun _ => True)}
    (h : Touched p e old new) (hold : Cooling since old)
    (he : p old = true → Cooling since (e.apply old)) : Cooling since new := by
  rcases h with rfl | ⟨hp, rfl⟩
  · exact hold
  · exact he hp

theorem Passes.cooling (h : Passes now old new) (hsettled : Cooling since (settle now old))
    (hsoon : now - since ≤ deadTimeout) : Cooling since new := by
  obtain ⟨h₁, h₂, h₃⟩ := h
  have hwarm := h₁.cooling hsettled (fun heligible => by
    have hcooled : deadTimeout < now - since := (eligible_iff.mp heligible).2 since hsettled.2
    omega)
  have hcooler := h₂.cooling hwarm (fun hhot => absurd (of_decide_eq_true hhot) hwarm.1)
  exact h₃.cooling hcooler (fun _ => ⟨by simp [churned, editing], hcooler.2⟩)

theorem settle_cooling (h : Cooling since old) : Cooling since (settle now old) := by
  constructor
  · rw [settle_state]
    split_ifs
    · simp
    · simp
    · exact h.1
  · rw [settle_demotedAt, if_neg (fun hdead => h.1 hdead.1)]
    exact h.2

theorem settle_reaped (hhot : old.state = .hot) (hdead : dead now old = true) :
    Cooling now (settle now old) := by
  constructor
  · rw [settle_state]
    simp [candidate, expired, hhot, hdead]
  · rw [settle_demotedAt, if_pos ⟨hhot, hdead⟩]

theorem EntryStep.cooling (h : EntryStep old op new) (hold : Cooling since old)
    (hsoon : ∀ iteration now, op = .tick iteration now → now - since ≤ deadTimeout) :
    Cooling since new := by
  cases h with
  | connected now hcold => exact ⟨by simp, hold.2⟩
  | disconnected now hactive => exact ⟨by simp, hold.2⟩
  | banned now reason => exact ⟨by simp, hold.2⟩
  | ticked iteration hpasses =>
    exact hpasses.cooling (settle_cooling hold) (hsoon iteration _ rfl)
  | _ => exact hold

end Cooldown

section Runs
variable {α : Type} [LinearOrder α] (floats : Floats α)

def keepsIds : Operation → Bool
  | .replaceNodeId _ _ _ => false
  | _ => true

theorem renamed_of_keepsIds {op : Operation} (h : keepsIds op = true) (id : NodeId) :
    renamed id op = id := by
  cases op with
  | replaceNodeId old new groups => cases h
  | _ => rfl

def Meets (id : NodeId) (s : ℕ × Governor) (a : ℕ × Operation) : Prop :=
  OnTime s a ∧ keepsIds a.2 = true ∧ (s.2.peers.lookup id).isSome = true

theorem operate_cooling {g : Governor} {id : NodeId} {since : ℕ} {op : Operation}
    (h : ∀ peer, g.peers.lookup id = some peer → Cooling since peer)
    (hkeeps : keepsIds op = true) (hpresent : (g.peers.lookup id).isSome = true)
    (hsoon : ∀ iteration now, op = .tick iteration now → now - since ≤ deadTimeout) :
    ∀ peer, (operate floats g op).peers.lookup id = some peer → Cooling since peer := by
  intro peer hpeer
  have hid : peer.nodeId = id := Table.key_of_lookup hpeer
  rcases operate_derives floats (Table.mem_of_lookup hpeer) with
    ⟨_, _, _, -, hnone, -⟩ | ⟨old, hold, hname, hstep⟩
  · rw [hid] at hnone
    simp [hnone] at hpresent
  · rw [renamed_of_keepsIds hkeeps, hid] at hname
    exact hstep.cooling (h old (hname ▸ Table.lookup_key _ hold)) hsoon

theorem run_cooling {g : Governor} {id : NodeId} {t since : ℕ}
    (h : ∀ peer, g.peers.lookup id = some peer → Cooling since peer)
    {coming : List (ℕ × Operation)} (hcoming : Along (timed floats) (Meets id) (t, g) coming)
    (hsoon : (run (timed floats) (t, g) coming).1 - since ≤ deadTimeout) :
    ∀ peer, (run (timed floats) (t, g) coming).2.peers.lookup id = some peer →
      Cooling since peer := by
  -- the clock only advances, so that the timeout has not passed at any operation of the run
  refine invariant_run (I := fun s => s.1 - since ≤ deadTimeout →
    ∀ peer, s.2.peers.lookup id = some peer → Cooling since peer) ?_ (fun _ => h) hcoming hsoon
  rintro s ⟨now, op⟩ hs ⟨htime, hkeeps, hpresent⟩ hnow
  have hbefore : s.1 ≤ now := htime.1
  change now - since ≤ deadTimeout at hnow
  refine operate_cooling floats (hs (by omega)) hkeeps hpresent ?_
  rintro iteration clock rfl
  rw [htime.2 clock rfl]
  exact hnow

theorem tick_cooling {g : Governor} (iteration : Iteration) {t : ℕ} {peer : PeerInfo}
    (hpeer : peer ∈ g.peers.rows) (hhot : peer.state = .hot) (hdead : dead t peer = true) :
    ∀ entry, (operate floats g (.tick iteration t)).peers.lookup peer.nodeId = some entry →
      Cooling t entry := by
  intro entry hentry
  rcases operate_derives floats (Table.mem_of_lookup hentry) with
    ⟨_, _, _, hop, -, -⟩ | ⟨old, hold, hname, hstep⟩
  · cases hop
  · have hsame : old = peer :=
      g.peers.key_injOn hold hpeer (hname.trans (Table.key_of_lookup hentry))
    subst hsame
    cases hstep with
    | kept hop => exact absurd rfl (hop iteration t)
    | ticked _ hpasses => exact hpasses.cooling (settle_reaped hhot hdead) (by omega)

/-- A hot peer that a tick finds dead is not hot while the dead timeout runs, as long as its
    entry is kept. -/
theorem reaped_not_hot (g : Governor) (iteration : Iteration) (t : ℕ) (peer : PeerInfo)
    (hpeer : peer ∈ g.peers.rows) (hhot : peer.state = .hot) (hdead : dead t peer = true)
    (coming : List (ℕ × Operation))
    (hcoming : Along (timed floats) (Meets peer.nodeId)
      (t, operate floats g (.tick iteration t)) coming) :
    let s := run (timed floats) (t, operate floats g (.tick iteration t)) coming
    ∀ later, s.1 ≤ later → later - t ≤ deadTimeout → stateOf s.2 peer.nodeId ≠ some .hot := by
  intro s later hlater hsoon hstate
  obtain ⟨entry, hentry, hentryHot⟩ := stateOf_eq_some_iff.mp hstate
  have hcooling := run_cooling floats (tick_cooling floats iteration hpeer hhot hdead) hcoming
    ((Nat.sub_le_sub_right hlater t).trans hsoon) entry hentry
  exact hcooling.1 hentryHot

end Runs

section Example

def hotFriend : Governor := run (operate evenFloats) (withDialPolicy 0 oneHot [] .all) friendPromoted

def friendReturns : List (ℕ × Operation) :=
  [(92000000000, .markDisconnected 92000000000 "friend"),
    (93000000000, .markConnected 93000000000 "friend"),
    (94000000000, .tick plainOrder 94000000000)]

theorem hotFriend_silent : (hotFriend.peers.lookup "friend").map
    (fun peer => (peer.state, dead 91000000000 peer)) = some (.hot, true) := by
  decide +kernel

theorem friendReturns_meets : Along (timed evenFloats) (Meets "friend")
    (91000000000, operate evenFloats hotFriend (.tick plainOrder 91000000000)) friendReturns := by
  refine ⟨⟨⟨by decide, ?_⟩, rfl, by decide +kernel⟩, ⟨⟨by decide, ?_⟩, rfl, by decide +kernel⟩,
    ⟨⟨by decide, ?_⟩, rfl, by decide +kernel⟩, trivial⟩ <;>
  exact fun now h => (Option.some.inj h).symm

theorem friend_cools :
    stateOf hotFriend "friend" = some .hot ∧
      stateOf (run (timed evenFloats)
        (91000000000, operate evenFloats hotFriend (.tick plainOrder 91000000000))
        friendReturns).2 "friend" ≠ some .hot := by
  obtain ⟨peer, hpeer, hsilent⟩ := Option.map_eq_some_iff.mp hotFriend_silent
  obtain ⟨hhot, hdead⟩ := Prod.mk.inj hsilent
  have hid : peer.nodeId = "friend" := Table.key_of_lookup hpeer
  have hcools := reaped_not_hot evenFloats hotFriend plainOrder 91000000000 peer
    (Table.mem_of_lookup hpeer) hhot hdead friendReturns (hid ▸ friendReturns_meets)
    94000000000 (by decide +kernel) (by decide)
  rw [hid] at hcools
  exact ⟨stateOf_eq_some_iff.mpr ⟨peer, hpeer, hhot⟩, hcools⟩

end Example
end CordeliaCore.PeerGovernor
