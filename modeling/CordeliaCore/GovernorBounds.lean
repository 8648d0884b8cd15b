import CordeliaCore.EntrySteps
import CordeliaCore.StepRuns

set_option autoImplicit false

namespace CordeliaCore.PeerGovernor
open KeyedTable StepRuns

section Phases
variable {now : ℕ} {g last : Governor} {limit : ℕ}

theorem eligible_iff {peer : PeerInfo} : eligible now peer = true ↔
    peer.state = .warm ∧ ∀ d, peer.demotedAt = some d → deadTimeout < now - d := by
  unfold eligible
  cases peer.demotedAt <;> simp

theorem demotedAt_of_ineligible {peer : PeerInfo} (hwarm : peer.state = .warm)
    (h : eligible now peer = false) :
    ∃ instant, peer.demotedAt = some instant ∧ now - instant ≤ deadTimeout := by
  by_contra hnone
  have heligible : eligible now peer = true := by
    refine eligible_iff.mpr ⟨hwarm, fun d hd => ?_⟩
    by_contra hlately
    exact hnone ⟨d, hd, not_lt.mp hlately⟩
  rw [h] at heligible
  cases heligible

theorem Moves.hotCount_promoted (h : Moves (eligible now) promoted limit g last) :
    hotCount last = hotCount g + min limit (g.peers.rows.countP (eligible now)) := by
  have hcount := h.countP (q := fun p => p.state = .hot) (b := false) (c := true)
    (fun peer hp => by simp [(eligible_iff.mp hp).1]) (fun peer _ => by simp [promoted, editing])
  simpa [hotCount] using hcount

theorem Moves.hotCount_demoted (h : Moves (fun p => p.state = .hot) demoted limit g last) :
    hotCount last + min limit (hotCount g) = hotCount g := by
  have hcount := h.countP (q := fun p => p.state = .hot) (b := true) (c := false)
    (fun peer hp => hp) (fun peer _ => by simp [demoted, editing])
  simpa [hotCount] using hcount

theorem Moves.hotCount_churned (h : Moves (fun p => p.state = .warm) churned limit g last) :
    hotCount last = hotCount g := by
  have hcount := h.countP (q := fun p => p.state = .hot) (b := false) (c := false)
    (fun peer hp => by simp [of_decide_eq_true hp]) (fun peer _ => by simp [churned, editing])
  simpa [hotCount] using hcount

def Exhausted (now : ℕ) (g : Governor) : Prop :=
  ∀ peer ∈ g.peers.rows, peer.state = .warm → eligible now peer = false

theorem Moves.filled
    (h : Moves (eligible now) promoted limit g last)
    (hlimit : g.targets.hotMin ≤ hotCount g ∨ limit = g.targets.hotMin - hotCount g) :
    g.targets.hotMin ≤ hotCount last ∨ Exhausted now last := by
  have hhot := h.hotCount_promoted
  rcases hlimit with henough | hlimit
  · left
    omega
  by_cases hroom : g.peers.rows.countP (eligible now) ≤ limit
  · right
    intro peer hpeer hwarm
    rcases h.all_moved hroom hpeer with hleft | ⟨old, _, rfl⟩
    · exact hleft
    · cases hwarm
  · left
    omega

namespace PhaseTrace
variable (trace : PhaseTrace now g last)
include trace

theorem reaped_targets : trace.reaped.targets = g.targets := by
  obtain ⟨_, hunbans⟩ := trace.unbans
  obtain ⟨_, hreaps⟩ := trace.reaps
  rw [hreaps.targets_eq, hunbans.targets_eq]

theorem promoted_targets : trace.promoted.targets = g.targets := by
  obtain ⟨_, _, hpromotes⟩ := trace.promotes
  rw [hpromotes.targets_eq, trace.reaped_targets]

theorem last_targets : last.targets = g.targets := by
  obtain ⟨_, hchurns⟩ := trace.churns
  rw [hchurns.targets_eq, trace.demotes.targets_eq, trace.promoted_targets]

theorem hotCount_eq : hotCount last = min (hotCount trace.promoted) g.targets.hotMax := by
  obtain ⟨_, hchurns⟩ := trace.churns
  have hdemotes := trace.demotes.hotCount_demoted
  rw [trace.promoted_targets] at hdemotes
  rw [hchurns.hotCount_churned]
  omega

theorem exhausted_last (hexhausted : Exhausted now trace.demoted) : Exhausted now last := by
  obtain ⟨_, hchurns⟩ := trace.churns
  intro peer hpeer hwarm
  rcases hchurns.origin hpeer with hold | ⟨old, _, _, rfl⟩
  · exact hexhausted peer hold hwarm
  · cases hwarm

theorem filled :
    min g.targets.hotMin g.targets.hotMax ≤ hotCount last ∨ Exhausted now last := by
  obtain ⟨limit, hlimit, hpromotes⟩ := trace.promotes
  have hfilled := hpromotes.filled hlimit
  rw [trace.reaped_targets] at hfilled
  have hhot := trace.hotCount_eq
  rcases hfilled with hmin | hexhausted
  · left
    omega
  by_cases hmax : hotCount trace.promoted ≤ g.targets.hotMax
  · right
    have hdemotes := trace.demotes
    rw [trace.promoted_targets, Nat.sub_eq_zero_of_le hmax] at hdemotes
    apply trace.exhausted_last
    intro peer hpeer
    rw [hdemotes.peers_eq] at hpeer
    exact hexhausted peer hpeer
  · left
    omega

theorem lookup_last {id : NodeId} (h : (g.peers.lookup id).isSome) :
    (last.peers.lookup id).isSome := by
  have hkeeps : ∀ {p e limit} {a b : Governor}, Moves p e limit a b →
      (a.peers.lookup id).isSome → (b.peers.lookup id).isSome := by
    intro p e limit a b hmoves hsome
    obtain ⟨peer, hpeer⟩ := Option.isSome_iff_exists.mp hsome
    rcases hmoves.lookup hpeer with hsame | ⟨_, hmoved⟩
    · simp [hsame]
    · simp [hmoved]
  obtain ⟨_, hunbans⟩ := trace.unbans
  obtain ⟨_, hreaps⟩ := trace.reaps
  obtain ⟨_, _, hpromotes⟩ := trace.promotes
  obtain ⟨_, hchurns⟩ := trace.churns
  exact hkeeps hchurns (hkeeps trace.demotes (hkeeps hpromotes (hkeeps hreaps (hkeeps hunbans h))))

theorem lookup_banned {id : NodeId} {peer : PeerInfo} (hpeer : g.peers.lookup id = some peer)
    {expiry : ℕ} {reason : String} {escalation : UInt32}
    (hbanned : peer.state = .banned expiry reason escalation) (hlasts : now < expiry) :
    last.peers.lookup id = some peer := by
  obtain ⟨_, hunbans⟩ := trace.unbans
  obtain ⟨_, hreaps⟩ := trace.reaps
  obtain ⟨_, _, hpromotes⟩ := trace.promotes
  obtain ⟨_, hchurns⟩ := trace.churns
  have hunbanned := hunbans.lookup_of_not hpeer (by simp [expired, hbanned, hlasts])
  have hreaped := hreaps.lookup_of_not hunbanned (by simp [dead, PeerState.isActive, hbanned])
  have hpromoted := hpromotes.lookup_of_not hreaped (by simp [eligible, hbanned])
  have hdemoted := trace.demotes.lookup_of_not hpromoted (by simp [hbanned])
  exact hchurns.lookup_of_not hdemoted (by simp [hbanned])

end PhaseTrace
end Phases

section Runs
variable {α : Type} [LinearOrder α] (floats : Floats α)

theorem afterTick_targets (iteration : Iteration) (now : ℕ) (g : Governor) :
    (afterTick floats iteration now g).targets = g.targets := by
  rw [(afterTick_evicts floats iteration now g).targets_eq]
  exact (phaseTrace floats iteration now g).last_targets

theorem operate_targets (g : Governor) (op : Operation) :
    (operate floats g op).targets = g.targets := by
  cases op with
  | addPeer now nodeId addrs groups => exact addPeer_targets g now addrs groups
  | replaceNodeId old new groups => exact replaceNodeId_targets g old new groups
  | tick iteration now => exact afterTick_targets floats iteration now g
  | setGroups groups => rfl
  | recordActivity now nodeId rttMs => exact modifyPeer_targets g
  | recordItemsDelivered now nodeId count => exact modifyPeer_targets g
  | markConnected now nodeId => exact modifyPeer_targets g
  | markDisconnected now nodeId => exact modifyPeer_targets g
  | markDialFailed now nodeId => exact modifyPeer_targets g
  | banPeer now nodeId reason => exact modifyPeer_targets g
  | setPeerRelay nodeId isRelay => exact modifyPeer_targets g

theorem operate_hotCount_le (g : Governor) {op : Operation}
    (hop : ∀ iteration now, op ≠ .tick iteration now) :
    hotCount (operate floats g op) ≤ hotCount g := by
  cases op with
  | setGroups groups => exact le_rfl
  | addPeer now nodeId addrs groups => exact addPeer_hotCount_le g now addrs groups
  | recordActivity now nodeId rttMs => exact modifyPeer_hotCount_le g (fun peer h => h)
  | recordItemsDelivered now nodeId count => exact modifyPeer_hotCount_le g (fun peer h => h)
  | markConnected now nodeId =>
    exact modifyPeer_hotCount_le g (only_hot (fun peer h => by cases h) _)
  | markDisconnected now nodeId =>
    exact modifyPeer_hotCount_le g (only_hot (fun peer h => by cases h) _)
  | markDialFailed now nodeId => exact modifyPeer_hotCount_le g (fun peer h => h)
  | replaceNodeId old new groups => exact replaceNodeId_hotCount_le g old new groups
  | banPeer now nodeId reason => exact modifyPeer_hotCount_le g (fun peer h => by cases h)
  | setPeerRelay nodeId isRelay => exact modifyPeer_hotCount_le g (fun peer h => h)
  | tick iteration now => exact absurd rfl (hop iteration now)

theorem afterTick_hotCount_le (iteration : Iteration) (now : ℕ) (g : Governor) :
    hotCount (afterTick floats iteration now g) ≤ g.targets.hotMax := by
  rw [(afterTick_evicts floats iteration now g).hotCount_eq,
    (phaseTrace floats iteration now g).hotCount_eq]
  exact min_le_right _ _

theorem run_targets (g : Governor) (ops : List Operation) :
    (run (operate floats) g ops).targets = g.targets := by
  induction ops generalizing g with
  | nil => rfl
  | cons op ops ih => rw [run_cons, ih, operate_targets]

theorem run_hotCount_le {g : Governor} (h : hotCount g ≤ g.targets.hotMax) (ops : List Operation) :
    hotCount (run (operate floats) g ops) ≤ g.targets.hotMax := by
  induction ops generalizing g with
  | nil => exact h
  | cons op ops ih =>
    have hstep : hotCount (operate floats g op) ≤ (operate floats g op).targets.hotMax := by
      rw [operate_targets]
      by_cases htick : ∃ iteration now, op = .tick iteration now
      · obtain ⟨iteration, now, rfl⟩ := htick
        exact afterTick_hotCount_le floats iteration now g
      · apply le_trans (operate_hotCount_le floats g _) h
        intro iteration now hop
        exact htick ⟨iteration, now, hop⟩
    have hrun := ih hstep
    rwa [operate_targets] at hrun

end Runs

section Origins
variable {α : Type} [LinearOrder α] (floats : Floats α)

/-- A property of an entry that no new entry has was brought about by an operation of the
    run, and the entry has had it since, under the ids that it had. -/
theorem run_origin (P : PeerInfo → Prop) (Sets : PeerInfo → Operation → Prop) {start : Governor}
    (hstart : start.peers.rows = [])
    (hfresh : ∀ now id addrs groups, ¬ P (.new now id addrs groups))
    (hsets : ∀ old op new, EntryStep old op new → P new → Sets old op ∨ P old)
    {ops : List Operation} {peer : PeerInfo}
    (hpeer : peer ∈ (run (operate floats) start ops).peers.rows) (hP : P peer) :
    ∃ past op coming old, ops = past ++ op :: coming ∧
      (old ∈ (run (operate floats) start past).peers.rows ∧ Sets old op ∧
        coming.foldl renamed (renamed old.nodeId op) = peer.nodeId) ∧
      ∀ mid rest, coming = mid ++ rest →
        ∃ entry ∈ (run (operate floats) start (past ++ op :: mid)).peers.rows,
          entry.nodeId = mid.foldl renamed (renamed old.nodeId op) ∧ P entry := by
  induction ops using List.reverseRecOn generalizing peer with
  | nil =>
    rw [run_nil, hstart] at hpeer
    cases hpeer
  | append_singleton ops op ih =>
    have hlast := hpeer
    rw [run_append, run_cons, run_nil] at hpeer
    rcases operate_derives floats hpeer with ⟨_, _, _, -, -, hnew⟩ | ⟨old, hold, hid, hstep⟩
    · exact absurd (hnew ▸ hP) (hfresh _ _ _ _)
    rcases hsets old op peer hstep hP with hset | hkept
    · refine ⟨ops, op, [], old, rfl, ⟨hold, hset, hid⟩, fun mid rest hsplit => ?_⟩
      obtain ⟨rfl, rfl⟩ := List.nil_eq_append_iff.mp hsplit
      exact ⟨peer, hlast, hid.symm, hP⟩
    · obtain ⟨past, op', coming, first, rfl, ⟨hfirst, hset, hname⟩, hsince⟩ := ih hold hkept
      have hfinal : (coming ++ [op]).foldl renamed (renamed first.nodeId op') = peer.nodeId := by
        rw [List.foldl_append, hname]
        exact hid
      refine ⟨past, op', coming ++ [op], first, by simp, ⟨hfirst, hset, hfinal⟩, ?_⟩
      -- the last entry is the peer, and those before it are known
      intro mid rest hsplit
      rcases List.prefix_concat_iff.mp ⟨rest, hsplit.symm⟩ with rfl | ⟨earlier, hearlier⟩
      · rw [hfinal, ← List.cons_append, ← List.append_assoc]
        exact ⟨peer, hlast, rfl, hP⟩
      · exact hsince mid earlier hearlier.symm

end Origins

section Demotions
variable {α : Type} [LinearOrder α] (floats : Floats α)

/-- A tick of the run at that instant found the peer hot and dead, under the id
    that its entry had then. -/
def ReapedAt (start : Governor) (ops : List Operation) (id : NodeId) (instant : ℕ) : Prop :=
  ∃ past iteration coming, ops = past ++ .tick iteration instant :: coming ∧
    ∃ peer ∈ (run (operate floats) start past).peers.rows,
      peer.state = .hot ∧ dead instant peer = true ∧ coming.foldl renamed peer.nodeId = id

/-- A date of demotion is carried along with its entry until a tick reaps the peer. -/
theorem EntryStep.demotedAt_eq {op : Operation} {old new : PeerInfo} (h : EntryStep old op new) :
    new.demotedAt = old.demotedAt ∨ ∃ iteration now, op = .tick iteration now ∧
      new.demotedAt = some now ∧ old.state = .hot ∧ dead now old = true := by
  cases h with
  | ticked iteration hpasses =>
    have hat := hpasses.demotedAt_eq
    split_ifs at hat with hreaped
    · exact .inr ⟨iteration, _, rfl, hat, hreaped⟩
    · exact .inl hat
  | _ => exact .inl rfl

theorem run_demotedAt {start : Governor} (hstart : start.peers.rows = []) (ops : List Operation)
    {peer : PeerInfo} (hpeer : peer ∈ (run (operate floats) start ops).peers.rows) {instant : ℕ}
    (hat : peer.demotedAt = some instant) : ReapedAt floats start ops peer.nodeId instant := by
  have hsets : ∀ old op new, EntryStep old op new → new.demotedAt = some instant →
      (∃ iteration, op = .tick iteration instant ∧ old.state = .hot ∧ dead instant old = true) ∨
        old.demotedAt = some instant := by
    intro old op new hstep hnew
    rcases hstep.demotedAt_eq with hsame | ⟨iteration, now, rfl, hnow, hreaped⟩
    · exact .inr (hsame.symm.trans hnew)
    · rw [hnow] at hnew
      cases hnew
      exact .inl ⟨iteration, rfl, hreaped⟩
  obtain ⟨past, _, coming, old, hsplit, ⟨hold, ⟨iteration, rfl, hhot, hdead⟩, hname⟩, -⟩ :=
    run_origin floats (fun peer => peer.demotedAt = some instant) _ hstart
      (fun _ _ _ _ h => by cases h) hsets hpeer hat
  exact ⟨past, iteration, coming, hsplit, old, hold, hhot, hdead, hname⟩

end Demotions

section Bounds
variable {α : Type} [LinearOrder α] (floats : Floats α) (iteration : Iteration) (now : ℕ)
  (g : Governor)

theorem afterTick_removed {id : NodeId} (hsome : (g.peers.lookup id).isSome)
    (hgone : (afterTick floats iteration now g).peers.lookup id = none) :
    ∃ peer, (afterPhases floats iteration now g).peers.lookup id = some peer ∧
      peer.state = .cold := by
  rcases (afterTick_evicts floats iteration now g).lookup id with hsame | ⟨_, hcold⟩
  · have hkept := (phaseTrace floats iteration now g).lookup_last hsome
    rw [← hsame, hgone] at hkept
    cases hkept
  · exact hcold

theorem afterTick_keeps {id : NodeId} {peer : PeerInfo}
    (hpeer : (afterPhases floats iteration now g).peers.lookup id = some peer)
    (hnot : peer.state ≠ .cold) :
    (afterTick floats iteration now g).peers.lookup id = some peer := by
  rcases (afterTick_evicts floats iteration now g).lookup id with hsame | ⟨_, x, hx, hcold⟩
  · exact hsame.trans hpeer
  · rw [hpeer] at hx
    cases hx
    exact absurd hcold hnot

theorem afterTick_filled :
    min g.targets.hotMin g.targets.hotMax ≤ hotCount (afterTick floats iteration now g) ∨
      Exhausted now (afterTick floats iteration now g) := by
  have hevicts := afterTick_evicts floats iteration now g
  rw [hevicts.hotCount_eq]
  refine (phaseTrace floats iteration now g).filled.imp_right (fun hexhausted => ?_)
  intro peer hpeer hwarm
  exact hexhausted peer (hevicts.origin hpeer) hwarm

def AllReapedLately (start : Governor) (ops : List Operation) (now : ℕ) : Prop :=
  ∀ peer ∈ (run (operate floats) start ops).peers.rows, peer.state = .warm →
    ∃ instant, peer.demotedAt = some instant ∧ now - instant ≤ deadTimeout ∧
      ReapedAt floats start ops peer.nodeId instant

theorem allReapedLately {start : Governor} (hstart : start.peers.rows = []) {ops : List Operation}
    (h : Exhausted now (run (operate floats) start ops)) :
    AllReapedLately floats start ops now := by
  intro peer hpeer hwarm
  obtain ⟨instant, hat, hlately⟩ := demotedAt_of_ineligible hwarm (h peer hpeer hwarm)
  exact ⟨instant, hat, hlately, run_demotedAt floats hstart ops hpeer hat⟩

/-- In every run there are at most `hot_max` hot peers. After a tick there are at
    most `cold_max` cold ones, the smaller of `hot_min` and `hot_max` hot ones or
    no warm peer but those reaped lately, and what the tick removed its phases
    had left cold. -/
theorem governor_bounds (created : ℕ) (targets : GovernorTargets) (ourGroups : List GroupId)
    (dialPolicy : DialPolicy) (ops : List Operation) :
    let start := withDialPolicy created targets ourGroups dialPolicy
    let g := run (operate floats) start ops
    hotCount g ≤ targets.hotMax ∧
      ∀ iteration now, let g' := operate floats g (.tick iteration now)
        coldCount g' ≤ targets.coldMax ∧
        (min targets.hotMin targets.hotMax ≤ hotCount g' ∨
          AllReapedLately floats start (ops ++ [.tick iteration now]) now) ∧
        (∀ id, (g.peers.lookup id).isSome → g'.peers.lookup id = none →
          ∃ peer, (afterPhases floats iteration now g).peers.lookup id = some peer ∧
            peer.state = .cold) ∧
        (∀ id peer, (afterPhases floats iteration now g).peers.lookup id = some peer →
          peer.state ≠ .cold → g'.peers.lookup id = some peer) ∧
        ∀ id peer expiry reason escalation, g.peers.lookup id = some peer →
          peer.state = .banned expiry reason escalation → now < expiry →
            g'.peers.lookup id = some peer := by
  intro start g
  have htargets : g.targets = targets := run_targets floats start ops
  refine ⟨run_hotCount_le floats (Nat.zero_le _) ops, fun iteration now => ?_⟩
  rw [operate_tick, ← htargets]
  have htrace := phaseTrace floats iteration now g
  refine ⟨?_, ?_, fun id => afterTick_removed floats iteration now g,
    fun id peer => afterTick_keeps floats iteration now g, ?_⟩
  · rw [← htrace.last_targets]
    exact (afterTick_evicts floats iteration now g).coldCount_le
  · refine (afterTick_filled floats iteration now g).imp_right (fun hexhausted => ?_)
    apply allReapedLately floats now rfl
    rw [run_append]
    exact hexhausted
  · intro id peer expiry reason escalation hpeer hbanned hlasts
    apply afterTick_keeps floats iteration now g (htrace.lookup_banned hpeer hbanned hlasts)
    simp [hbanned]

end Bounds
end CordeliaCore.PeerGovernor
