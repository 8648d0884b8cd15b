import CordeliaCore.GovernorLoop

set_option autoImplicit false

namespace CordeliaCore.GovernorLoop
open ProtocolMessages KeyedTable PeerGovernor PeerPool

/-- Every handle was there before, as far as the view goes. -/
def Inherits {β : Type} (view : PeerHandle → β) (pool after : Pool) : Prop :=
  ∀ h ∈ after.rows, ∃ old ∈ pool.rows, old.nodeId = h.nodeId ∧ view old = view h

section Pools
variable {β : Type} {view : PeerHandle → β}

theorem Inherits.refl (pool : Pool) : Inherits view pool pool := fun h hh => ⟨h, hh, rfl, rfl⟩

theorem Inherits.trans {a b c : Pool} (hab : Inherits view a b) (hbc : Inherits view b c) :
    Inherits view a c := by
  intro h hh
  obtain ⟨old, hold, hid, hview⟩ := hbc h hh
  obtain ⟨older, holder, hid', hview'⟩ := hab old hold
  exact ⟨older, holder, hid'.trans hid, hview'.trans hview⟩

theorem inherits_modify (pool : Pool) {e : Edit PeerHandle.nodeId (fun _ => True)}
    (he : ∀ h : PeerHandle, view (e.apply h) = view h) (id : NodeId) :
    Inherits view pool (pool.modify e id) := by
  intro h hh
  rcases Table.mem_edit_only hh with ⟨hold, -⟩ | ⟨old, hold, -, rfl⟩
  · exact ⟨h, hold, rfl, rfl⟩
  · exact ⟨old, hold, (e.key_apply old).symm, (he old).symm⟩

theorem inherits_remove (pool : Pool) (id : NodeId) : Inherits view pool (remove pool id) :=
  fun h hh => ⟨h, (List.mem_filter.mp hh).1, rfl, rfl⟩

theorem inherits_foldl {γ : Type} {f : Pool → γ → Pool}
    (hf : ∀ pool c, Inherits view pool (f pool c)) (pool : Pool) (cs : List γ) :
    Inherits view pool (cs.foldl f pool) := by
  induction cs generalizing pool with
  | nil => exact .refl pool
  | cons c cs ih => exact (hf pool c).trans (ih (f pool c))

theorem inherits_applyDisconnects (pool : Pool) (ids : List NodeId) :
    Inherits view pool (applyDisconnects pool ids).1 := by
  suffices hall : ∀ s : Pool × List NodeId, Inherits view s.1 (ids.foldl applyDisconnect s).1 from
    hall (pool, [])
  induction ids with
  | nil => exact fun s => .refl s.1
  | cons id ids ih =>
    intro s
    refine Inherits.trans ?_ (ih (applyDisconnect s id))
    unfold applyDisconnect
    split
    · exact inherits_remove s.1 id
    · exact .refl s.1

end Pools

section Bootnodes
variable [Libp2p]

theorem resolveBootnodes_pool (now : ℕ) (resolve : String → Option Multiaddr) (boots : List String)
    (t : GovernorTask) : (resolveBootnodes now resolve boots t).pool = t.pool := by
  unfold resolveBootnodes
  suffices hall : ∀ t : GovernorTask,
      (boots.foldl (resolveBootnode now resolve) t).pool = t.pool from hall _
  induction boots with
  | nil => exact fun _ => rfl
  | cons boot boots ih =>
    intro t
    rw [List.foldl_cons, ih]
    unfold resolveBootnode
    split <;> rfl

theorem retryBootnodes_pool (env : TickEnv) (t : GovernorTask) :
    (retryBootnodes env t).pool = t.pool := by
  unfold retryBootnodes
  split_ifs
  · exact resolveBootnodes_pool _ _ _ t
  · rfl

end Bootnodes

section Events
variable {β : Type} {view : PeerHandle → β}
  (hview : ∀ h state addrs rttMs,
    view { h with state := state, addrs := addrs, rttMs := rttMs } = view h)
include hview

theorem inherits_applyTransition (pool : Pool) (transition : NodeId × String × String) :
    Inherits view pool (applyTransition pool transition) := by
  unfold applyTransition
  split_ifs
  · exact inherits_modify pool (fun h => hview h .hot _ _) _
  · exact inherits_modify pool (fun h => hview h .warm _ _) _
  · exact .refl pool

theorem inherits_applyGovernorActions (pool : Pool) (actions : GovernorActions) :
    Inherits view pool (applyGovernorActions pool actions).1 :=
  (inherits_foldl (inherits_applyTransition hview) pool actions.transitions).trans
    (inherits_applyDisconnects _ actions.disconnect)

theorem inherits_learnAddrs (now : ℕ) (peerId : NodeId) (addrs : List Multiaddr) (t : GovernorTask) :
    Inherits view t.pool (learnAddrs now peerId addrs t).pool := by
  unfold learnAddrs
  split
  · split_ifs
    · exact inherits_modify t.pool (fun h => hview h _ addrs _) peerId
    · exact .refl t.pool
  · exact .refl t.pool

theorem inherits_executeTick (t : GovernorTask) (ticked : Governor × GovernorActions) :
    Inherits view t.pool (executeTick t ticked).pool :=
  inherits_applyGovernorActions hview t.pool ticked.2

variable {α : Type} [LinearOrder α] [Libp2p] (floats : Floats α)

theorem inherits_onTick (env : TickEnv) (t : GovernorTask) :
    Inherits view t.pool (onTick floats env t).2.pool := by
  rw [onTick_snd, retryBootnodes_pool]
  exact inherits_executeTick hview t _

/-- Only a connection brings a handle, and only an exchange changes its groups. -/
theorem inherits_handle (t : GovernorTask) {event : LoopEvent}
    (hconnected : ∀ now sets id addrs, event ≠ .peerConnected now sets id addrs)
    (hgroups : ∀ sets id groups, event ≠ .groupsReceived sets id groups) :
    Inherits view t.pool (handle floats t event).pool := by
  cases event with
  | tick env => exact inherits_onTick hview floats env t
  | peerConnected now sets peerId addrs => exact absurd rfl (hconnected now sets peerId addrs)
  | peerDisconnected now peerId => exact inherits_remove _ _
  | pingRtt now peerId rttMs => exact inherits_modify _ (fun h => hview h _ _ (some rttMs)) _
  | identifyReceived now iteration peerId listenAddrs => exact inherits_learnAddrs hview _ _ _ _
  | dialFailure now peerId =>
    change Inherits view t.pool (onDialFailure now peerId t).pool
    unfold onDialFailure
    split <;> exact .refl t.pool
  | peersDiscovered now ourPeerId peers => exact .refl _
  | groupsReceived sets peerId groups => exact absurd rfl (hgroups sets peerId groups)
  | groupsRecorded now peerId addrs groups => exact .refl _

end Events
end CordeliaCore.GovernorLoop
