import CordeliaCore.GovernorLoop
import CordeliaCore.PeerStates

set_option autoImplicit false

namespace CordeliaCore.PeerGovernor
open KeyedTable GovernorLoop

inductive NodeRole where
  | relay
  | personal
  | keeper
deriving DecidableEq

/-- The dial policy that `run_node` gives to a governor. -/
def dialPolicyOf [Libp2p] (trustedRelays : List String) : NodeRole → DialPolicy
  | .relay => .all
  | .personal => .relaysOnly
  | .keeper => .trustedOnly (trustedRelays.map Libp2p.placeholderId)

def DialPolicy.trusts (id : NodeId) : DialPolicy → Bool
  | .trustedOnly trusted => trusted.contains id
  | _ => true

section Replacement
variable (g : Governor) {old new : NodeId} (groups : List GroupId)

theorem isDialable_moved {peer moved : PeerInfo} (hdialable : isDialable g peer = true)
    (hid : moved.nodeId = new) (hrelay : peer.isRelay = true → moved.isRelay = true) :
    isDialable g moved = g.dialPolicy.trusts new := by
  unfold isDialable at hdialable ⊢
  cases hpolicy : g.dialPolicy with
  | all => rfl
  | relaysOnly =>
    rw [hpolicy] at hdialable
    exact hrelay hdialable
  | trustedOnly trusted => exact congrArg trusted.contains hid

/-- The entry under the new id is the old one, or the live one that was there; either
    way it has the relay flag of the old one. -/
theorem replaceNodeId_entry (hne : old ≠ new) {peer : PeerInfo}
    (hpeer : g.peers.lookup old = some peer) :
    (replaceNodeId g old new groups).1.peers.lookup old = none ∧
      ∃ moved, (replaceNodeId g old new groups).1.peers.lookup new = some moved ∧
        (peer.isRelay = true → moved.isRelay = true) := by
  cases hidle : idle g new with
  | true =>
    rw [replaceNodeId_of_idle g groups hidle]
    constructor
    · rw [lookup_moveEntry g groups old hpeer, if_neg hne, if_pos rfl]
    · refine ⟨{ peer with nodeId := new, groups := groups }, ?_, fun h => h⟩
      rw [lookup_moveEntry g groups new hpeer, if_pos rfl]
  | false =>
    rw [replaceNodeId_of_live g groups hidle]
    constructor
    · rw [lookup_dropPlaceholder g old hpeer, if_pos rfl]
    · cases hexisting : g.peers.lookup new with
      | none =>
        rw [idle, stateOf_eq_none_iff.mpr hexisting] at hidle
        cases hidle
      | some existing =>
        have hlive : (dropPlaceholder g old new).peers.lookup new = _ :=
          lookup_dropPlaceholder g new hpeer
        rw [if_neg (Ne.symm hne), hexisting, Option.map_some] at hlive
        refine ⟨_, hlive, fun hrelay => ?_⟩
        rw [if_pos ⟨rfl, hrelay⟩]

/-- After the replacement the old id is gone, and the peer can be dialled under the new one
    exactly when the policy has no list of trusted ids or the new id is on it. -/
theorem replaced_dialable_iff (hne : old ≠ new) {peer : PeerInfo}
    (hpeer : g.peers.lookup old = some peer) (hdialable : isDialable g peer = true) :
    let replaced := (replaceNodeId g old new groups).1
    (replaced.peers.lookup old = none ∧
        ∃ moved, replaced.peers.lookup new = some moved ∧ isDialable replaced moved = true) ↔
      g.dialPolicy.trusts new = true := by
  obtain ⟨hgone, moved, hmoved, hrelay⟩ := replaceNodeId_entry g groups hne hpeer
  have hpolicy : isDialable (replaceNodeId g old new groups).1 moved = g.dialPolicy.trusts new := by
    rw [replaceNodeId_fst]
    exact isDialable_moved g hdialable (Table.key_of_lookup hmoved) hrelay
  constructor
  · rintro ⟨-, found, hfound, htrue⟩
    rw [hmoved] at hfound
    rw [← hpolicy, Option.some.inj hfound]
    exact htrue
  · intro htrusts
    exact ⟨hgone, moved, hmoved, hpolicy.trans htrusts⟩

end Replacement

section Example

def boot1 : String := "boot1.cordelia.seeddrill.ai:9474"

def seededNode (role : NodeRole) : Governor :=
  let := plainLibp2p
  seedBootnode (withDialPolicy 0 churning [] (dialPolicyOf [boot1] role)) 0 boot1
    "/ip4/203.0.113.7/tcp/9474"

/-- A personal node dials the relay under either id. -/
theorem personal_redials_relay :
    let replaced := (replaceNodeId (seededNode .personal) boot1 "relay" []).1
    ∃ moved, replaced.peers.lookup "relay" = some moved ∧ isDialable replaced moved = true :=
  ((replaced_dialable_iff (seededNode .personal) [] (by decide) rfl rfl).mpr rfl).2

/-- A keeper does not dial its trusted relay again once it knows the relay's id. -/
theorem keeper_loses_relay :
    let g := seededNode .keeper
    let replaced := (replaceNodeId g boot1 "relay" []).1
    (g.peers.lookup boot1).map (isDialable g) = some true ∧
      (replaced.peers.lookup "relay").map (isDialable replaced) = some false := by
  decide +kernel

end Example
end CordeliaCore.PeerGovernor
