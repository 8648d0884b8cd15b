import CordeliaCore.PeerStates

set_option autoImplicit false

namespace CordeliaCore.PeerGovernor
open KeyedTable StepRuns

section Legal

/-- The transitions of the network model, and no transition at all. -/
inductive Legal : PeerState → PeerState → Prop where
  | stay (s : PeerState) : Legal s s
  | coldToWarm : Legal .cold .warm
  | warmToHot : Legal .warm .hot
  | hotToWarm : Legal .hot .warm
  | warmToCold : Legal .warm .cold
  | hotToCold : Legal .hot .cold
  | ban (s : PeerState) (expiry : ℕ) (reason : String) (escalation : UInt32) :
      Legal s (.banned expiry reason escalation)
  | unban (expiry : ℕ) (reason : String) (escalation : UInt32) :
      Legal (.banned expiry reason escalation) .cold

theorem legal_of_active {s : PeerState} (h : s.isActive = true) (t : PeerState) : Legal s t := by
  cases s with
  | warm => cases t <;> constructor
  | hot => cases t <;> constructor
  | _ => cases h

def Changes (g g' : Governor) : Prop :=
  ∀ id s s', stateOf g id = some s → stateOf g' id = some s' → Legal s s'

theorem changes_of_stateOf {g g' : Governor} {f : NodeId → PeerState → PeerState}
    (h : ∀ id, stateOf g' id = (stateOf g id).map (f id)) (hf : ∀ id s, Legal s (f id s)) :
    Changes g g' := by
  intro id s s' hs hs'
  rw [h, hs, Option.map_some, Option.some.injEq] at hs'
  rw [← hs']
  exact hf id s

theorem changes_of_same {g g' : Governor} (h : ∀ id, stateOf g' id = stateOf g id) :
    Changes g g' :=
  changes_of_stateOf (f := fun _ s => s) (fun id => by simp [h]) (fun _ s => .stay s)

theorem Moves.changes {p : PeerInfo → Bool} {e : Edit PeerInfo.nodeId (fun _ => True)} {limit : ℕ}
    {g g' : Governor} (h : Moves p e limit g g')
    (he : ∀ peer, p peer = true → Legal peer.state (e.apply peer).state) : Changes g g' := by
  intro id s s' hs hs'
  obtain ⟨peer, hpeer, rfl⟩ := stateOf_eq_some_iff.mp hs
  obtain ⟨peer', hpeer', rfl⟩ := stateOf_eq_some_iff.mp hs'
  rcases h.lookup hpeer with hsame | ⟨hp, hmoved⟩
  · rw [hsame] at hpeer'
    cases hpeer'
    exact .stay _
  · rw [hmoved] at hpeer'
    cases hpeer'
    exact he peer hp

theorem Evicts.changes {g g' : Governor} (h : Evicts g g') : Changes g g' := by
  intro id s s' hs hs'
  rcases h.stateOf_eq id with hsame | ⟨hnone, _⟩
  · rw [hsame, hs, Option.some.injEq] at hs'
    exact hs' ▸ .stay s
  · rw [hnone] at hs'
    cases hs'

end Legal

section Phases
variable {α : Type} [LinearOrder α] (floats : Floats α) (iteration : Iteration) (now : ℕ)

def tickPhases (g : Governor) : List Governor :=
  let unbanned := unbanExpired iteration now (g, .default)
  let reaped := reapDead iteration now unbanned
  let dialled := promoteColdToWarm iteration now reaped
  let promoted := promoteWarmToHot floats iteration now dialled
  let demoted := demoteExcessHot floats iteration now promoted
  let churned := churn floats iteration now demoted
  [unbanned.1, reaped.1, dialled.1, promoted.1, demoted.1, churned.1,
    (evictExcessCold iteration churned).1]

theorem unbanExpired_changes (s : Governor × GovernorActions) :
    Changes s.1 (unbanExpired iteration now s).1 := by
  obtain ⟨_, hmoves⟩ := unbanExpired_moves iteration now s
  apply hmoves.changes
  intro peer hexpired
  change Legal peer.state .cold
  cases hstate : peer.state with
  | banned expiry reason escalation => exact .unban expiry reason escalation
  | _ => simp [expired, hstate] at hexpired

theorem reapDead_changes (s : Governor × GovernorActions) :
    Changes s.1 (reapDead iteration now s).1 := by
  obtain ⟨_, hmoves⟩ := reapDead_moves iteration now s
  apply hmoves.changes
  intro peer hdead
  apply legal_of_active
  simp only [dead, Bool.and_eq_true] at hdead
  exact hdead.1

theorem promoteWarmToHot_changes (s : Governor × GovernorActions) :
    Changes s.1 (promoteWarmToHot floats iteration now s).1 := by
  apply (promoteWarmToHot_moves floats iteration now s).changes
  intro peer heligible
  apply legal_of_active
  rw [(eligible_iff.mp heligible).1]
  rfl

theorem demoteExcessHot_changes (s : Governor × GovernorActions) :
    Changes s.1 (demoteExcessHot floats iteration now s).1 := by
  apply (demoteExcessHot_moves floats iteration now s).changes
  intro peer hhot
  apply legal_of_active
  rw [of_decide_eq_true hhot]
  rfl

omit [LinearOrder α] in
theorem churn_changes (s : Governor × GovernorActions) :
    Changes s.1 (churn floats iteration now s).1 := by
  obtain ⟨_, hmoves⟩ := churn_moves floats iteration now s
  apply hmoves.changes
  intro peer hwarm
  apply legal_of_active
  rw [of_decide_eq_true hwarm]
  rfl

theorem tickPhases_changes (g : Governor) :
    (g :: tickPhases floats iteration now g).IsChain Changes := by
  unfold tickPhases
  simp only [List.isChain_cons_cons]
  refine ⟨unbanExpired_changes iteration now (g, .default), reapDead_changes iteration now _, ?_,
    promoteWarmToHot_changes floats iteration now _, demoteExcessHot_changes floats iteration now _,
    churn_changes floats iteration now _, (evictExcessCold_evicts iteration _).changes,
    .singleton _⟩
  rw [promoteColdToWarm_fst]
  exact changes_of_same (fun _ => rfl)

theorem tickPhases_last (g : Governor) :
    (tickPhases floats iteration now g).getLast? = some (afterTick floats iteration now g) := by
  unfold tickPhases afterTick tick phases
  rfl

end Phases

section Operations
variable {α : Type} [LinearOrder α] (floats : Floats α) (g : Governor)

/-- A tick counts as the composition of its phases. -/
def LegalOperation : Operation → Prop
  | .tick iteration now =>
    (g :: tickPhases floats iteration now g).IsChain Changes ∧
      (tickPhases floats iteration now g).getLast? = some (operate floats g (.tick iteration now))
  | op => Changes g (operate floats g op)

/-- The operation moves an entry over one whose state may not become its own. -/
def Overwrites : Operation → Prop
  | .replaceNodeId old new _ =>
    ∃ moved existing, stateOf g old = some moved ∧ stateOf g new = some existing ∧
      ¬ Legal existing moved
  | _ => False

def bannedUntil (u : ℕ) : PeerState → Bool
  | .banned expiry _ _ => u ≤ expiry
  | _ => false

/-- No ban begins or ends, peers move along edges of the model and new ones are cold. -/
def Calm (g g' : Governor) : Prop :=
  ∀ id, stateOf g' id = stateOf g id ∨ ∃ s', stateOf g' id = some s' ∧ bannedUntil 0 s' = false ∧
    ∀ s ∈ stateOf g id, bannedUntil 0 s = false ∧ Legal s s'

def plain : Operation → Bool
  | .replaceNodeId _ _ _ => false
  | .banPeer _ _ _ => false
  | .tick _ _ => false
  | _ => true

theorem calm_of_map {g g' : Governor} {f : NodeId → PeerState → PeerState}
    (h : ∀ id, stateOf g' id = (stateOf g id).map (f id))
    (hf : ∀ id s, f id s = s ∨
      bannedUntil 0 (f id s) = false ∧ bannedUntil 0 s = false ∧ Legal s (f id s)) : Calm g g' := by
  intro id
  cases hs : stateOf g id with
  | none => exact .inl (by rw [h, hs]; rfl)
  | some s =>
    rcases hf id s with hsame | ⟨hafter, hbefore, hlegal⟩
    · exact .inl (by rw [h, hs, Option.map_some, hsame])
    · refine .inr ⟨f id s, by rw [h, hs, Option.map_some], hafter, ?_⟩
      rintro _ ⟨⟩
      exact ⟨hbefore, hlegal⟩

theorem operate_calm {op : Operation} (h : plain op = true) : Calm g (operate floats g op) := by
  have hsame : ∀ {e : Edit PeerInfo.nodeId (fun _ => True)} {nodeId : NodeId},
      (∀ peer, (e.apply peer).state = peer.state) → Calm g (modifyPeer g e nodeId) :=
    fun he id => .inl (stateOf_modifyPeer_same g _ id he)
  cases op with
  | setGroups groups => exact fun _ => .inl rfl
  | addPeer now nodeId addrs groups =>
    intro id
    have hafter := stateOf_addPeer g nodeId id now addrs groups
    by_cases hid : id = nodeId
    · subst hid
      rw [if_pos rfl] at hafter
      cases hs : stateOf g id with
      | none =>
        rw [hs] at hafter
        exact .inr ⟨.cold, hafter, rfl, by rintro _ ⟨⟩⟩
      | some s =>
        rw [hs] at hafter
        exact .inl hafter
    · exact .inl (hafter.trans (if_neg hid))
  | recordActivity now nodeId rttMs => exact hsame (fun _ => rfl)
  | recordItemsDelivered now nodeId count => exact hsame (fun _ => rfl)
  | markConnected now nodeId =>
    refine calm_of_map (fun id => stateOf_markConnected g nodeId id now) (fun id s => ?_)
    split_ifs with hcold
    · rw [hcold.2]
      exact .inr ⟨rfl, rfl, .coldToWarm⟩
    · exact .inl rfl
  | markDisconnected now nodeId =>
    refine calm_of_map (fun id => stateOf_markDisconnected g nodeId id now) (fun id s => ?_)
    split_ifs with hactive
    · refine .inr ⟨rfl, ?_, legal_of_active hactive.2 .cold⟩
      cases s with
      | banned expiry reason escalation => cases hactive.2
      | _ => rfl
    · exact .inl rfl
  | markDialFailed now nodeId => exact hsame (fun _ => rfl)
  | setPeerRelay nodeId isRelay => exact hsame (fun _ => rfl)
  | _ => cases h

theorem Calm.changes {g g' : Governor} (h : Calm g g') : Changes g g' := by
  intro id s s' hs hs'
  rcases h id with hsame | ⟨after, hafter, -, hlegal⟩
  · rw [hsame, hs, Option.some.injEq] at hs'
    exact hs' ▸ .stay s
  · rw [hafter, Option.some.injEq] at hs'
    exact hs' ▸ (hlegal s hs).2

theorem Calm.stateOf_banned {g g' : Governor} (h : Calm g g') {id : NodeId} {expiry : ℕ}
    {reason : String} {escalation : UInt32} :
    stateOf g' id = some (.banned expiry reason escalation) ↔
      stateOf g id = some (.banned expiry reason escalation) := by
  rcases h id with hsame | ⟨after, hafter, hfree, hbefore⟩
  · rw [hsame]
  · rw [hafter]
    constructor
    · rintro ⟨⟩
      cases hfree
    · intro hs
      cases (hbefore _ hs).1

theorem replaceNodeId_changes_iff (old new : NodeId) (groups : List GroupId) :
    Changes g (replaceNodeId g old new groups).1 ↔
      ∀ moved existing, stateOf g old = some moved → stateOf g new = some existing →
        Legal existing moved := by
  by_cases hne : old = new
  · subst hne
    refine iff_of_true ?_ (fun moved existing hmoved hexisting => ?_)
    · intro id s s' hs hs'
      rw [stateOf_replaceNodeId_self] at hs'
      split_ifs at hs'
      rw [hs, Option.some.injEq] at hs'
      exact hs' ▸ .stay s
    · rw [hmoved, Option.some.injEq] at hexisting
      exact hexisting ▸ .stay moved
  cases hold : stateOf g old with
  | none =>
    exact iff_of_true (changes_of_same (fun id => stateOf_replaceNodeId_none g groups id hold))
      (fun moved existing h => by cases h)
  | some moved =>
    have hafter := fun id => stateOf_replaceNodeId g groups id hne hold
    constructor
    · rintro hchanges _ existing ⟨⟩ hexisting
      by_cases hactive : existing.isActive = true
      · exact legal_of_active hactive moved
      · apply hchanges new existing moved hexisting
        rw [hafter, if_neg (Ne.symm hne), if_pos]
        exact ⟨rfl, by simp [idle, hexisting, hactive]⟩
    · intro hlegal id s s' hs hs'
      rw [hafter] at hs'
      split_ifs at hs' with hid hnew
      · cases hs'
        exact hlegal moved s rfl (hnew.1 ▸ hs)
      · rw [hs, Option.some.injEq] at hs'
        exact hs' ▸ .stay s

theorem legalOperation_iff (op : Operation) :
    LegalOperation floats g op ↔ ¬ Overwrites g op := by
  cases op with
  | replaceNodeId old new groups =>
    change Changes g (replaceNodeId g old new groups).1 ↔ _
    rw [replaceNodeId_changes_iff]
    simp only [Overwrites, not_exists, not_and, not_not]
  | banPeer now nodeId reason =>
    refine iff_of_true (changes_of_stateOf (fun k => stateOf_banPeer g nodeId k now reason) ?_)
      not_false
    intro k s
    split_ifs
    · exact .ban s _ _ _
    · exact .stay s
  | tick iteration now =>
    refine iff_of_true ⟨tickPhases_changes floats iteration now g, ?_⟩ not_false
    rw [operate_tick]
    exact tickPhases_last floats iteration now g
  | _ => exact iff_of_true (operate_calm floats g rfl).changes not_false

end Operations

section Bans
variable {α : Type} [LinearOrder α] (floats : Floats α)

def Operation.clock : Operation → Option ℕ
  | .addPeer now _ _ _ => some now
  | .recordActivity now _ _ => some now
  | .recordItemsDelivered now _ _ => some now
  | .markConnected now _ => some now
  | .markDisconnected now _ => some now
  | .markDialFailed now _ => some now
  | .banPeer now _ _ => some now
  | .tick _ now => some now
  | .setGroups _ => none
  | .replaceNodeId _ _ _ => none
  | .setPeerRelay _ _ => none

def timed (s : ℕ × Governor) (a : ℕ × Operation) : ℕ × Governor := (a.1, operate floats s.2 a.2)

def OnTime (s : ℕ × Governor) (a : ℕ × Operation) : Prop :=
  s.1 ≤ a.1 ∧ ∀ now ∈ a.2.clock, now = a.1

def Banned (u : ℕ) (id : NodeId) (g : Governor) : Prop :=
  ∃ s, stateOf g id = some s ∧ bannedUntil u s = true

/-- The operation moves the entry of a banned peer away, moves one over it whose
    ban ends sooner, or bans it once more when the `u32` escalation wraps to zero. -/
def Lifts (u : ℕ) (id : NodeId) (g : Governor) : Operation → Prop
  | .replaceNodeId old new _ =>
    old ≠ new ∧ ∃ moved, stateOf g old = some moved ∧
      (old = id ∨ new = id ∧ bannedUntil u moved = false)
  | .banPeer _ nodeId _ => nodeId = id ∧ ∃ s, stateOf g id = some s ∧ nextEscalation s = 0
  | _ => False

/-- No ban lasts longer than its escalation allows, counted from now. -/
def Escalated (now : ℕ) (g : Governor) : Prop :=
  ∀ id expiry reason escalation, stateOf g id = some (.banned expiry reason escalation) →
    expiry ≤ now + defaultBanDuration * escalation.toNat

theorem Touched.of_banned {p : PeerInfo → Bool} {e : Edit PeerInfo.nodeId (fun _ => True)}
    {old new : PeerInfo} (h : Touched p e old new) (he : bannedUntil 0 (e.apply old).state = false)
    {expiry : ℕ} {reason : String} {escalation : UInt32}
    (hnew : new.state = .banned expiry reason escalation) :
    old.state = .banned expiry reason escalation := by
  rcases h with rfl | ⟨-, rfl⟩
  · exact hnew
  · rw [hnew] at he
    cases he

theorem Passes.of_banned {now : ℕ} {old new : PeerInfo} (h : Passes now old new) {expiry : ℕ}
    {reason : String} {escalation : UInt32}
    (hnew : new.state = .banned expiry reason escalation) :
    old.state = .banned expiry reason escalation := by
  obtain ⟨h₁, h₂, h₃⟩ := h
  have hcooler := h₃.of_banned rfl hnew
  have hhotter := h₂.of_banned rfl hcooler
  have hsettled := h₁.of_banned rfl hhotter
  rw [settle_state] at hsettled
  split_ifs at hsettled
  exact hsettled

theorem EntryStep.of_banned {op : Operation} {old new : PeerInfo} (h : EntryStep old op new)
    {expiry : ℕ} {reason : String} {escalation : UInt32}
    (hnew : new.state = .banned expiry reason escalation) :
    old.state = .banned expiry reason escalation ∨
      ∃ now nodeId, op = .banPeer now nodeId reason ∧
        expiry = now + defaultBanDuration * escalation.toNat := by
  cases h with
  | connected now hcold => cases hnew
  | disconnected now hactive => cases hnew
  | banned now why =>
    cases hnew
    exact .inr ⟨now, _, rfl, rfl⟩
  | ticked iteration hpasses => exact .inl (hpasses.of_banned hnew)
  | _ => exact .inl hnew

/-- A ban after an operation is an older one, or the operation's own. -/
theorem operate_banned {g : Governor} {op : Operation} {id : NodeId} {expiry : ℕ} {reason : String}
    {escalation : UInt32}
    (h : stateOf (operate floats g op) id = some (.banned expiry reason escalation)) :
    (∃ k, stateOf g k = some (.banned expiry reason escalation)) ∨
      ∃ now nodeId, op = .banPeer now nodeId reason ∧
        expiry = now + defaultBanDuration * escalation.toNat := by
  obtain ⟨peer, hpeer, hstate⟩ := stateOf_eq_some_iff.mp h
  rcases operate_derives floats (Table.mem_of_lookup hpeer) with
    ⟨_, _, _, -, -, hnew⟩ | ⟨old, hold, -, hstep⟩
  · rw [hnew] at hstate
    cases hstate
  · refine (hstep.of_banned hstate).imp_left (fun hbanned => ?_)
    exact ⟨old.nodeId, stateOf_eq_some_iff.mpr ⟨old, Table.lookup_key _ hold, hbanned⟩⟩

theorem timed_escalated {s : ℕ × Governor} {a : ℕ × Operation} (h : Escalated s.1 s.2)
    (ha : OnTime s a) : Escalated (timed floats s a).1 (timed floats s a).2 := by
  intro id expiry reason escalation hbanned
  change expiry ≤ a.1 + _
  rcases operate_banned floats hbanned with ⟨k, hk⟩ | ⟨now, nodeId, hop, hexpiry⟩
  · have hold := h k expiry reason escalation hk
    have htime := ha.1
    omega
  · have hnow : now = a.1 := ha.2 now (by rw [hop]; rfl)
    omega

theorem banned_congr {u : ℕ} {id : NodeId} {g g' : Governor} (h : stateOf g' id = stateOf g id) :
    Banned u id g' ↔ Banned u id g := by
  unfold Banned
  rw [h]

theorem banned_iff {u : ℕ} {id : NodeId} {g : Governor} {s : PeerState}
    (h : stateOf g id = some s) : Banned u id g ↔ bannedUntil u s = true := by
  simp [Banned, h]

/-- A further ban ends later than the one it replaces, unless its escalation wraps. -/
theorem bannedUntil_bannedFrom_iff {u t now : ℕ} {expiry : ℕ} {escalation : UInt32}
    (reason why : String) (hexpiry : expiry ≤ t + defaultBanDuration * escalation.toNat)
    (hlasts : u ≤ expiry) (htime : t ≤ now) (hnow : now < u) :
    bannedUntil u (bannedFrom now why (.banned expiry reason escalation)) = true ↔
      ¬ escalation + 1 = 0 := by
  change decide (u ≤ now + defaultBanDuration * (escalation + 1).toNat) = true ↔ _
  rw [decide_eq_true_iff]
  by_cases hwraps : escalation + 1 = 0
  · rw [hwraps, UInt32.toNat_zero, Nat.mul_zero]
    exact iff_of_false (by omega) (not_not.mpr rfl)
  · have hnext : (escalation + 1).toNat = escalation.toNat + 1 := by
      have hne : (escalation + 1).toNat ≠ 0 := fun h => hwraps (UInt32.toNat_inj.mp h)
      have hlt := escalation.toNat_lt
      rw [UInt32.toNat_add] at hne ⊢
      simp only [UInt32.toNat_one] at hne ⊢
      omega
    rw [hnext, Nat.mul_succ]
    exact iff_of_true (by omega) hwraps

theorem replaceNodeId_banned_iff {u : ℕ} {id : NodeId} {g : Governor} (h : Banned u id g)
    (old new : NodeId) (groups : List GroupId) :
    Banned u id (replaceNodeId g old new groups).1 ↔
      ¬ Lifts u id g (.replaceNodeId old new groups) := by
  have hidle : idle g id = true := by
    obtain ⟨s, hs, hbanned⟩ := h
    rw [idle, hs]
    cases s with
    | banned expiry reason escalation => rfl
    | _ => cases hbanned
  by_cases hne : old = new
  · refine iff_of_true ((banned_congr ?_).mpr h) (fun hlifts => hlifts.1 hne)
    rw [hne, stateOf_replaceNodeId_self, if_neg]
    rintro ⟨rfl, hlive⟩
    rw [hidle] at hlive
    cases hlive
  cases hold : stateOf g old with
  | none =>
    refine iff_of_true ((banned_congr (stateOf_replaceNodeId_none g groups id hold)).mpr h) ?_
    rintro ⟨_, moved, hmoved, _⟩
    rw [hold] at hmoved
    cases hmoved
  | some moved =>
    have hafter := stateOf_replaceNodeId g groups id hne hold
    have hlifts : Lifts u id g (.replaceNodeId old new groups) ↔
        old = id ∨ new = id ∧ bannedUntil u moved = false := by
      simp [Lifts, hne, hold]
    rw [hlifts]
    by_cases hid : id = old
    · refine iff_of_false ?_ (not_not.mpr (.inl hid.symm))
      rintro ⟨_, hstate, _⟩
      rw [hafter, if_pos hid] at hstate
      cases hstate
    by_cases hnew : id = new
    · rw [if_neg hid, if_pos ⟨hnew, hnew ▸ hidle⟩] at hafter
      rw [banned_iff hafter]
      simp [Ne.symm hid, hnew.symm]
    · rw [if_neg hid, if_neg (fun hboth => hnew hboth.1)] at hafter
      refine iff_of_true ((banned_congr hafter).mpr h) ?_
      rintro (hsame | ⟨hsame, _⟩)
      · exact hid hsame.symm
      · exact hnew hsame.symm

theorem afterTick_keeps_ban (iteration : Iteration) {now u : ℕ} {id : NodeId} {g : Governor}
    (h : Banned u id g) (hnow : now < u) : Banned u id (afterTick floats iteration now g) := by
  obtain ⟨s, hs, hbanned⟩ := h
  obtain ⟨peer, hpeer, rfl⟩ := stateOf_eq_some_iff.mp hs
  refine ⟨peer.state, stateOf_eq_some_iff.mpr ⟨peer, ?_, rfl⟩, hbanned⟩
  cases hstate : peer.state with
  | banned expiry reason escalation =>
    rw [hstate] at hbanned
    have hlasts : now < expiry := hnow.trans_le (of_decide_eq_true hbanned)
    apply afterTick_keeps floats iteration now g
      ((phaseTrace floats iteration now g).lookup_banned hpeer hstate hlasts)
    simp [hstate]
  | _ =>
    rw [hstate] at hbanned
    cases hbanned

theorem timed_banned_iff {s : ℕ × Governor} {a : ℕ × Operation} {u : ℕ} {id : NodeId}
    (hescalated : Escalated s.1 s.2) (htime : OnTime s a) (hbefore : a.1 < u)
    (h : Banned u id s.2) :
    Banned u id (timed floats s a).2 ↔ ¬ Lifts u id s.2 a.2 := by
  obtain ⟨t, g⟩ := s
  obtain ⟨now, op⟩ := a
  have hkept := h
  obtain ⟨s, hs, hbanned⟩ := h
  obtain ⟨expiry, reason, escalation, rfl⟩ : ∃ x r e, s = .banned x r e := by
    cases s with
    | banned x r e => exact ⟨x, r, e, rfl⟩
    | _ => cases hbanned
  change Banned u id (operate floats g op) ↔ ¬ Lifts u id g op
  cases op with
  | replaceNodeId old new groups => exact replaceNodeId_banned_iff hkept old new groups
  | banPeer instant nodeId why =>
    have hnow : instant = now := htime.2 instant rfl
    have hafter := stateOf_banPeer g nodeId id instant why
    rw [hs, Option.map_some] at hafter
    by_cases hid : id = nodeId
    · have hnext := bannedUntil_bannedFrom_iff reason why
        (hescalated id expiry reason escalation hs) (of_decide_eq_true hbanned)
        (hnow ▸ htime.1) (hnow ▸ hbefore)
      rw [if_pos hid, hnow] at hafter
      change Banned u id (banPeer g instant nodeId why) ↔ _
      rw [hnow, banned_iff hafter, hnext]
      simp [Lifts, hid.symm, hs, nextEscalation]
    · rw [if_neg hid, ← hs] at hafter
      exact iff_of_true ((banned_congr hafter).mpr hkept) (fun hlifts => hid hlifts.1.symm)
  | tick iteration instant =>
    have hnow : instant = now := htime.2 instant rfl
    rw [operate_tick]
    exact iff_of_true (afterTick_keeps_ban floats iteration hkept (hnow ▸ hbefore)) not_false
  | _ =>
    exact iff_of_true ⟨_, (operate_calm floats g rfl).stateOf_banned.mpr hs, hbanned⟩ not_false

def Before (u : ℕ) (s : ℕ × Governor) (a : ℕ × Operation) : Prop := OnTime s a ∧ a.1 < u

theorem along_banned_iff {s : ℕ × Governor} {u : ℕ} {id : NodeId} (hescalated : Escalated s.1 s.2)
    (h : Banned u id s.2) {coming : List (ℕ × Operation)}
    (hbefore : Along (timed floats) (Before u) s coming) :
    Along (timed floats) (fun s a => Banned u id (timed floats s a).2) s coming ↔
      Along (timed floats) (fun s a => ¬ Lifts u id s.2 a.2) s coming := by
  have hboth : Along (timed floats) (fun s a => Before u s a ∧ Banned u id (timed floats s a).2) s
      coming ↔ Along (timed floats) (fun s a => Before u s a ∧ ¬ Lifts u id s.2 a.2) s coming := by
    refine along_congr (I := fun s => Escalated s.1 s.2 ∧ Banned u id s.2) ?_ ?_ ⟨hescalated, h⟩
    · exact fun s a hs ha => ⟨timed_escalated floats hs.1 ha.1.1, ha.2⟩
    · exact fun s a hs => and_congr_right
        (fun ha => timed_banned_iff floats hs.1 ha.1 ha.2 hs.2)
  rwa [along_and, along_and, and_iff_right hbefore, and_iff_right hbefore] at hboth

/-- In every reachable state an operation is legal exactly when it does not move
    an entry over one that may not take its state, and a ban holds through
    operations before its end exactly when none of them lifts it. -/
theorem transitions_and_bans_iff (created : ℕ) (targets : GovernorTargets)
    (ourGroups : List GroupId) (dialPolicy : DialPolicy) (past : List (ℕ × Operation))
    (hpast : Along (timed floats) OnTime
      (created, withDialPolicy created targets ourGroups dialPolicy) past) :
    let s := run (timed floats) (created, withDialPolicy created targets ourGroups dialPolicy) past
    (∀ op, LegalOperation floats s.2 op ↔ ¬ Overwrites s.2 op) ∧
      ∀ u id coming, Banned u id s.2 → Along (timed floats) (Before u) s coming →
        (Along (timed floats) (fun s a => Banned u id (timed floats s a).2) s coming ↔
          Along (timed floats) (fun s a => ¬ Lifts u id s.2 a.2) s coming) := by
  intro s
  have hescalated : Escalated s.1 s.2 := by
    refine invariant_run (I := fun s => Escalated s.1 s.2)
      (fun s a hs ha => timed_escalated floats hs ha) ?_ hpast
    intro id expiry reason escalation h
    cases h
  exact ⟨legalOperation_iff floats s.2,
    fun u id coming hbanned hbefore => along_banned_iff floats hescalated hbanned hbefore⟩

end Bans

section Example

def spammerBanned : List (ℕ × Operation) :=
  [(0, .addPeer 0 "friend" [] []), (0, .markConnected 0 "friend"),
    (0, .addPeer 0 "bootnode" [] []), (0, .addPeer 0 "spammer" [] []),
    (0, .banPeer 0 "spammer" "spam")]

theorem spammerBanned_onTime :
    Along (timed evenFloats) OnTime (0, freshGovernor) spammerBanned := by
  simp [spammerBanned, OnTime, timed, Operation.clock]

theorem spammer_banned :
    Banned defaultBanDuration "spammer"
      (run (timed evenFloats) (0, freshGovernor) spammerBanned).2 :=
  ⟨.banned defaultBanDuration "spam" 1, rfl, rfl⟩

/-- Pings of a banned peer leave its ban alone. -/
theorem ping_keeps_ban :
    let s := run (timed evenFloats) (0, freshGovernor) spammerBanned
    Along (timed evenFloats) OnTime (0, freshGovernor) spammerBanned ∧
      Along (timed evenFloats) (fun s a => Banned defaultBanDuration "spammer" (timed evenFloats s a).2)
        s [(5, .recordActivity 5 "spammer" none)] := by
  intro s
  refine ⟨spammerBanned_onTime, ?_⟩
  have hiff := transitions_and_bans_iff evenFloats 0 churning [] .all spammerBanned
    spammerBanned_onTime
  refine (hiff.2 defaultBanDuration "spammer" [(5, .recordActivity 5 "spammer" none)]
    spammer_banned ?_).mpr ⟨not_false, trivial⟩
  exact ⟨⟨⟨Nat.zero_le 5, fun now h => (Option.some.inj h).symm⟩, by decide⟩, trivial⟩

/-- Replacing the id of the connected peer, or of the placeholder, by that of the
    banned one makes it warm or cold at once. -/
theorem replacement_ends_ban :
    let s := run (timed evenFloats) (0, freshGovernor) spammerBanned
    Banned defaultBanDuration "spammer" s.2 ∧
      stateOf (operate evenFloats s.2 (.replaceNodeId "friend" "spammer" [])) "spammer" = some .warm ∧
      stateOf (operate evenFloats s.2 (.replaceNodeId "bootnode" "spammer" [])) "spammer" =
        some .cold ∧
      ¬ LegalOperation evenFloats s.2 (.replaceNodeId "friend" "spammer" []) := by
  refine ⟨spammer_banned, rfl, rfl, fun hlegal => ?_⟩
  have hillegal := hlegal "spammer" (.banned defaultBanDuration "spam" 1) .warm rfl rfl
  cases hillegal

end Example
end CordeliaCore.PeerGovernor
