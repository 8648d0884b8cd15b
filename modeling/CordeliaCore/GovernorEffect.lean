import CordeliaCore.PeerGovernor

set_option autoImplicit false

namespace CordeliaCore.PeerGovernor
open KeyedTable

section Moves
variable {p : PeerInfo → Bool} {e : Edit PeerInfo.nodeId (fun _ => True)} {limit : ℕ}
  {g g' : Governor}

/-- As many peers of the property as the limit allows were edited, and no others. -/
structure Moves (p : PeerInfo → Bool) (e : Edit PeerInfo.nodeId (fun _ => True)) (limit : ℕ)
    (g g' : Governor) : Prop where
  targets_eq : g'.targets = g.targets
  moved : ∃ ids, g.peers.Picks p limit ids ∧ g'.peers = g.peers.modifyAll e ids

theorem Moves.refl (g : Governor) : Moves p e 0 g g := ⟨rfl, [], Table.picks_none, rfl⟩

theorem Moves.lookup (h : Moves p e limit g g') {id : NodeId} {peer : PeerInfo}
    (hpeer : g.peers.lookup id = some peer) :
    g'.peers.lookup id = some peer ∨ p peer = true ∧ g'.peers.lookup id = some (e.apply peer) := by
  obtain ⟨ids, hpicks, hpeers⟩ := h.moved
  rw [hpeers, Table.lookup_modifyAll _ _ hpicks.nodup, hpeer]
  by_cases hid : id ∈ ids
  · have hp : p peer = true := by
      apply hpicks.of_mem (Table.mem_of_lookup hpeer)
      rwa [Table.key_of_lookup hpeer]
    exact .inr ⟨hp, by simp [hid]⟩
  · exact .inl (by simp [hid])

theorem Moves.lookup_of_not (h : Moves p e limit g g') {id : NodeId} {peer : PeerInfo}
    (hpeer : g.peers.lookup id = some peer) (hp : p peer = false) :
    g'.peers.lookup id = some peer := by
  rcases h.lookup hpeer with hsame | ⟨hmoved, _⟩
  · exact hsame
  · simp [hp] at hmoved

theorem Moves.peers_eq (h : Moves p e 0 g g') : g'.peers = g.peers := by
  obtain ⟨ids, hpicks, hpeers⟩ := h.moved
  have hnil : ids = [] := List.eq_nil_of_length_eq_zero (by rw [hpicks.length_eq, Nat.zero_min])
  rw [hpeers, hnil]
  rfl

theorem Moves.origin (h : Moves p e limit g g') {peer : PeerInfo} (hpeer : peer ∈ g'.peers.rows) :
    peer ∈ g.peers.rows ∨ ∃ old ∈ g.peers.rows, p old = true ∧ e.apply old = peer := by
  obtain ⟨ids, hpicks, hpeers⟩ := h.moved
  rw [hpeers, Table.modifyAll_eq_edit _ _ hpicks.nodup] at hpeer
  rcases Table.mem_edit_only hpeer with ⟨hold, _⟩ | ⟨old, hold, hid, hmoved⟩
  · exact .inl hold
  · exact .inr ⟨old, hold, hpicks.of_mem hold (of_decide_eq_true hid), hmoved⟩

theorem Moves.all_moved (h : Moves p e limit g g') (hroom : g.peers.rows.countP p ≤ limit)
    {peer : PeerInfo} (hpeer : peer ∈ g'.peers.rows) :
    p peer = false ∨ ∃ old ∈ g.peers.rows, e.apply old = peer := by
  obtain ⟨ids, hpicks, hpeers⟩ := h.moved
  rw [hpeers, Table.modifyAll_eq_edit _ _ hpicks.nodup] at hpeer
  rcases Table.mem_edit_only hpeer with ⟨hold, hid⟩ | ⟨old, hold, _, hmoved⟩
  · refine .inl (Bool.eq_false_iff.mpr (fun hp => ?_))
    exact of_decide_eq_false hid (hpicks.mem_of_count_le hroom hold hp)
  · exact .inr ⟨old, hold, hmoved⟩

theorem Moves.countP (h : Moves p e limit g g') {q : PeerInfo → Bool} {b c : Bool}
    (hbefore : ∀ peer, p peer = true → q peer = b)
    (hafter : ∀ peer, p peer = true → q (e.apply peer) = c) :
    g'.peers.rows.countP q + (if b then min limit (g.peers.rows.countP p) else 0) =
      g.peers.rows.countP q + if c then min limit (g.peers.rows.countP p) else 0 := by
  obtain ⟨ids, hpicks, hpeers⟩ := h.moved
  rw [hpeers, ← hpicks.length_eq]
  exact hpicks.countP_modifyAll e hbefore hafter

structure Evicts (g g' : Governor) : Prop where
  targets_eq : g'.targets = g.targets
  erased : ∃ ids,
    g.peers.Picks (fun p => p.state = .cold) (coldCount g - g.targets.coldMax) ids ∧
      g'.peers = g.peers.eraseAll ids

theorem Evicts.lookup (h : Evicts g g') (id : NodeId) :
    g'.peers.lookup id = g.peers.lookup id ∨ g'.peers.lookup id = none ∧
      ∃ peer, g.peers.lookup id = some peer ∧ peer.state = .cold := by
  obtain ⟨ids, hpicks, hpeers⟩ := h.erased
  rw [hpeers, Table.lookup_eraseAll]
  by_cases hid : id ∈ ids
  · obtain ⟨peer, hpeer, hcold, rfl⟩ := hpicks.picked id hid
    exact .inr ⟨if_pos hid, peer, Table.lookup_key _ hpeer, of_decide_eq_true hcold⟩
  · exact .inl (if_neg hid)

theorem Evicts.origin (h : Evicts g g') {peer : PeerInfo} (hpeer : peer ∈ g'.peers.rows) :
    peer ∈ g.peers.rows := by
  obtain ⟨ids, _, hpeers⟩ := h.erased
  rw [hpeers, Table.eraseAll_eq_keep] at hpeer
  exact (List.mem_filter.mp hpeer).1

theorem Evicts.hotCount_eq (h : Evicts g g') : hotCount g' = hotCount g := by
  obtain ⟨ids, hpicks, hpeers⟩ := h.erased
  have hcount := hpicks.countP_eraseAll (q := fun p => p.state = .hot) (b := false)
    (fun peer hp => by simp [of_decide_eq_true hp])
  simpa [hotCount, hpeers] using hcount

theorem Evicts.coldCount_le (h : Evicts g g') : coldCount g' ≤ g.targets.coldMax := by
  obtain ⟨ids, hpicks, hpeers⟩ := h.erased
  have hcount := hpicks.countP_eraseAll (q := fun p => p.state = .cold) (b := true)
    (fun peer hp => hp)
  have hlength := hpicks.length_eq
  simp only [coldCount, hpeers, if_true] at hcount hlength ⊢
  omega

end Moves

section Phases
variable {α : Type} [LinearOrder α] (floats : Floats α) (iteration : Iteration) (now : ℕ)
  (s : Governor × GovernorActions)

theorem forEach_fst (ids : List NodeId) (e : Edit PeerInfo.nodeId (fun _ => True))
    (report : PeerInfo → GovernorActions → GovernorActions) :
    (forEach s ids e report).1 = { s.1 with peers := s.1.peers.modifyAll e ids } := by
  induction ids generalizing s with
  | nil => rfl
  | cons id ids ih =>
    unfold forEach at ih ⊢
    rw [List.foldl_cons, ih]
    cases hpeer : s.1.peers.lookup id with
    | some peer => rfl
    | none =>
      change _ = { s.1 with peers := (s.1.peers.modify e id).modifyAll e ids }
      rw [Table.modify_of_lookup_none e hpeer]

theorem filter_perm (p : PeerInfo → Bool) :
    ((peersInOrder iteration s).filter p).Perm (s.1.peers.rows.filter p) :=
  (iteration.perm s.1.peers.rows).filter p

theorem forEach_take {p : PeerInfo → Bool} {e : Edit PeerInfo.nodeId (fun _ => True)}
    {report : PeerInfo → GovernorActions → GovernorActions} {l : List PeerInfo}
    (h : l.Perm (s.1.peers.rows.filter p)) (limit : ℕ) :
    Moves p e limit s.1 (forEach s ((l.take limit).map PeerInfo.nodeId) e report).1 := by
  rw [forEach_fst]
  exact ⟨rfl, _, Table.picks_take h limit, rfl⟩

theorem unbanExpired_moves :
    ∃ limit, Moves (expired now) unbanned limit s.1 (unbanExpired iteration now s).1 :=
  ⟨_, rfl, _, Table.picks_all (.refl _), Table.edit_only unbanned (expired now)⟩

theorem reapDead_moves :
    ∃ limit, Moves (dead now) (reaped now) limit s.1 (reapDead iteration now s).1 := by
  unfold reapDead
  rw [forEach_fst]
  exact ⟨_, rfl, _, Table.picks_all (filter_perm iteration s (dead now)), rfl⟩

theorem promoteColdToWarm_fst : (promoteColdToWarm iteration now s).1 = s.1 := by
  unfold promoteColdToWarm
  dsimp only
  split_ifs <;> rfl

theorem foldl_greatest {β : Type} (f : β → α) (ys : List β) (first : β) :
    let best := ys.foldl (fun best y => if f y < f best then best else y) first
    best ∈ first :: ys ∧ ∀ x ∈ first :: ys, f x ≤ f best := by
  induction ys generalizing first with
  | nil => simp
  | cons y ys ih =>
    rw [List.foldl_cons]
    set better := if f y < f first then first else y with hbetter
    obtain ⟨hmem, hle⟩ := ih better
    have hlater := hle better List.mem_cons_self
    have hcases : better ∈ [first, y] ∧ f first ≤ f better ∧ f y ≤ f better := by
      rw [hbetter]
      split_ifs with hlt
      · exact ⟨by simp, le_rfl, hlt.le⟩
      · exact ⟨by simp, not_lt.mp hlt, le_rfl⟩
    constructor
    · rcases List.mem_cons.mp hmem with hbest | hbest
      · rw [hbest]
        exact List.mem_append_left ys hcases.1
      · exact List.mem_cons_of_mem _ (List.mem_cons_of_mem _ hbest)
    · intro x hx
      rcases List.mem_cons.mp hx with rfl | hx
      · exact hcases.2.1.trans hlater
      · rcases List.mem_cons.mp hx with rfl | hx
        · exact hcases.2.2.trans hlater
        · exact hle x (List.mem_cons_of_mem _ hx)

theorem maxBy_eq_none_iff {β : Type} (f : β → α) {l : List β} : maxBy f l = none ↔ l = [] := by
  cases l <;> simp [maxBy]

theorem maxBy_mem {β : Type} (f : β → α) {l : List β} {best : β} (h : maxBy f l = some best) :
    best ∈ l := by
  cases l with
  | nil => cases h
  | cons y ys =>
    cases h
    exact (foldl_greatest f ys y).1

theorem le_maxBy {β : Type} (f : β → α) {l : List β} {best : β} (h : maxBy f l = some best) {x : β}
    (hx : x ∈ l) : f x ≤ f best := by
  cases l with
  | nil => cases h
  | cons y ys =>
    cases h
    exact (foldl_greatest f ys y).2 x hx

theorem min?_congr {l l' : List α} (h : ∀ x, x ∈ l ↔ x ∈ l') : l.min? = l'.min? := by
  cases hl : l.min? with
  | none =>
    rw [List.min?_eq_none_iff] at hl
    have hnil : l' = [] := List.eq_nil_iff_forall_not_mem.mpr (fun x hx => by
      simp [hl] at h
      exact h x hx)
    rw [hnil]
    rfl
  | some least =>
    obtain ⟨hmem, hleast⟩ := List.min?_eq_some_iff.mp hl
    refine (List.min?_eq_some_iff.mpr ⟨(h least).mp hmem, fun x hx => ?_⟩).symm
    exact hleast x ((h x).mpr hx)

def worstHotScore (g : Governor) : α :=
  ((g.peers.rows.filter (fun p => p.state = .hot)).map (floats.score now)).min?.getD floats.maxScore

/-- How many eligible peers the promotion to hot asks for: as many as lack to the minimum, and
    above it one if there is a better one than the worst hot peer. -/
def promotions (g : Governor) : ℕ :=
  if g.targets.hotMin ≤ hotCount g then
    if hotCount g < g.targets.hotMax ∧ ∃ peer ∈ g.peers.rows, eligible now peer = true ∧
        worstHotScore floats now g < floats.score now peer then 1
    else 0
  else g.targets.hotMin - hotCount g

theorem promotions_fill (g : Governor) : g.targets.hotMin ≤ hotCount g ∨
    promotions floats now g = g.targets.hotMin - hotCount g :=
  or_iff_not_imp_left.mpr (fun hbelow => if_neg hbelow)

theorem worstHotScore_eq :
    (((peersInOrder iteration s).filter (fun p => p.state = .hot)).map
      (floats.score now)).min?.getD floats.maxScore = worstHotScore floats now s.1 := by
  have hperm := (filter_perm iteration s (fun p => p.state = .hot)).map (floats.score now)
  rw [worstHotScore, min?_congr (fun x => hperm.mem_iff)]

theorem better_iff_best {l : List PeerInfo} (h : l.Perm (s.1.peers.rows.filter (eligible now)))
    (bound : α) : (∃ peer ∈ s.1.peers.rows, eligible now peer = true ∧
        bound < floats.score now peer) ↔
      ∃ best, maxBy (floats.score now) l = some best ∧ bound < floats.score now best := by
  constructor
  · rintro ⟨peer, hpeer, heligible, hscore⟩
    have hmem : peer ∈ l := h.mem_iff.mpr (List.mem_filter.mpr ⟨hpeer, heligible⟩)
    obtain ⟨best, hbest⟩ := Option.ne_none_iff_exists'.mp
      (fun hnone => List.ne_nil_of_mem hmem ((maxBy_eq_none_iff (floats.score now)).mp hnone))
    exact ⟨best, hbest, hscore.trans_le (le_maxBy _ hbest hmem)⟩
  · rintro ⟨best, hbest, hscore⟩
    obtain ⟨hrow, heligible⟩ := List.mem_filter.mp (h.mem_iff.mp (maxBy_mem _ hbest))
    exact ⟨best, hrow, heligible, hscore⟩

theorem promoteWarmToHot_moves :
    Moves (eligible now) promoted (promotions floats now s.1) s.1
      (promoteWarmToHot floats iteration now s).1 := by
  have hcandidates := filter_perm iteration s (eligible now)
  unfold promoteWarmToHot promotions
  dsimp only
  rw [worstHotScore_eq]
  by_cases hmin : s.1.targets.hotMin ≤ hotCount s.1
  · rw [if_pos hmin, if_pos hmin]
    simp only [better_iff_best floats now s hcandidates]
    cases hbest : maxBy (floats.score now) ((peersInOrder iteration s).filter (eligible now)) with
    | none =>
      rw [if_neg (by simp)]
      exact .refl _
    | some best =>
      obtain ⟨hrow, heligible⟩ := List.mem_filter.mp (hcandidates.mem_iff.mp (maxBy_mem _ hbest))
      simp only [Option.some.injEq, exists_eq_left']
      split_ifs with hroom
      · rw [forEach_fst]
        exact ⟨rfl, _, Table.picks_one hrow heligible, rfl⟩
      · exact .refl _
  · rw [if_neg hmin, if_neg hmin]
    exact forEach_take s ((List.mergeSort_perm _ _).trans hcandidates) _

theorem demoteExcessHot_moves :
    Moves (fun p => p.state = .hot) demoted (hotCount s.1 - s.1.targets.hotMax) s.1
      (demoteExcessHot floats iteration now s).1 := by
  unfold demoteExcessHot
  split_ifs with hmax
  · rw [Nat.sub_eq_zero_of_le hmax]
    exact .refl _
  · exact forEach_take s ((List.mergeSort_perm _ _).trans (filter_perm iteration s _)) _

omit [LinearOrder α] in
theorem churn_moves :
    ∃ limit, Moves (fun p => p.state = .warm) churned limit s.1 (churn floats iteration now s).1 := by
  unfold churn
  dsimp only
  split_ifs
  · exact ⟨0, .refl _⟩
  · exact ⟨0, rfl, [], Table.picks_none, rfl⟩
  · rw [forEach_fst]
    exact ⟨_, rfl, _, Table.picks_take (filter_perm iteration s (fun p => p.state = .warm)) _, rfl⟩

theorem evictExcessCold_evicts : Evicts s.1 (evictExcessCold iteration s).1 := by
  unfold evictExcessCold
  split_ifs with hmax
  · refine ⟨rfl, [], ?_, rfl⟩
    rw [Nat.sub_eq_zero_of_le hmax]
    exact Table.picks_none
  · exact ⟨rfl, _, Table.picks_take ((List.mergeSort_perm _ _).trans (filter_perm iteration s _)) _,
      rfl⟩

structure PhaseTrace (now : ℕ) (g last : Governor) where
  unbanned : Governor
  reaped : Governor
  promoted : Governor
  demoted : Governor
  unbans : ∃ limit, Moves (expired now) PeerGovernor.unbanned limit g unbanned
  reaps : ∃ limit, Moves (dead now) (PeerGovernor.reaped now) limit unbanned reaped
  promotes : ∃ limit, (reaped.targets.hotMin ≤ hotCount reaped ∨
      limit = reaped.targets.hotMin - hotCount reaped) ∧
    Moves (eligible now) PeerGovernor.promoted limit reaped promoted
  demotes : Moves (fun p => p.state = .hot) PeerGovernor.demoted
    (hotCount promoted - promoted.targets.hotMax) promoted demoted
  churns : ∃ limit, Moves (fun p => p.state = .warm) churned limit demoted last

def phaseTrace (g : Governor) : PhaseTrace now g (afterPhases floats iteration now g) :=
  let unbanned := unbanExpired iteration now (g, .default)
  let reaped := reapDead iteration now unbanned
  let dialled := promoteColdToWarm iteration now reaped
  let promoted := promoteWarmToHot floats iteration now dialled
  let demoted := demoteExcessHot floats iteration now promoted
  { unbanned := unbanned.1
    reaped := dialled.1
    promoted := promoted.1
    demoted := demoted.1
    unbans := unbanExpired_moves iteration now (g, .default)
    reaps := by
      rw [promoteColdToWarm_fst]
      exact reapDead_moves iteration now unbanned
    promotes := ⟨_, promotions_fill floats now _, promoteWarmToHot_moves floats iteration now dialled⟩
    demotes := demoteExcessHot_moves floats iteration now promoted
    churns := churn_moves floats iteration now demoted }

theorem afterTick_evicts (g : Governor) :
    Evicts (afterPhases floats iteration now g) (afterTick floats iteration now g) := by
  unfold afterPhases afterTick tick
  exact evictExcessCold_evicts iteration _

end Phases

section Operations
variable (g : Governor) {e : Edit PeerInfo.nodeId (fun _ => True)} {id : NodeId}

theorem modifyPeer_targets : (modifyPeer g e id).targets = g.targets := rfl

theorem only_hot (he : ∀ peer, (e.apply peer).state = .hot → peer.state = .hot)
    (p : PeerInfo → Bool) (peer : PeerInfo) (h : ((e.only p).apply peer).state = .hot) :
    peer.state = .hot := by
  by_cases hp : p peer = true
  · rw [Edit.only_of_pos e hp] at h
    exact he peer h
  · rwa [Edit.only_of_neg e hp] at h

theorem modifyPeer_hotCount_le (he : ∀ peer, (e.apply peer).state = .hot → peer.state = .hot) :
    hotCount (modifyPeer g e id) ≤ hotCount g := by
  change (g.peers.rows.map _).countP _ ≤ g.peers.rows.countP _
  rw [List.countP_map]
  apply List.countP_mono_left
  intro peer _ hhot
  simpa using only_hot he _ peer (of_decide_eq_true hhot)

theorem erase_hotCount_le (id : NodeId) : hotCount { g with peers := g.peers.erase id } ≤ hotCount g :=
  List.filter_sublist.countP_le

theorem addPeer_hotCount_le (now : ℕ) (addrs : List Multiaddr) (groups : List GroupId) :
    hotCount (addPeer g now id addrs groups) ≤ hotCount g := by
  unfold addPeer
  split
  · exact modifyPeer_hotCount_le g (fun peer h => h)
  · exact Table.countP_put_le g.peers (r := .new now id addrs groups) trivial
      (fun p => p.state = .hot)

theorem moveEntry_hotCount_le (old new : NodeId) (groups : List GroupId) :
    hotCount (moveEntry g old new groups).1 ≤ hotCount g := by
  unfold moveEntry
  split
  · next peer hpeer =>
    have herase := Table.countP_erase hpeer (fun p => p.state = .hot)
    have hput := Table.countP_put_le (g.peers.erase old)
      (r := { peer with nodeId := new, groups := groups }) trivial (fun p => p.state = .hot)
    simp only [hotCount] at hput ⊢
    omega
  · exact le_rfl

theorem dropPlaceholder_hotCount_le (old new : NodeId) :
    hotCount (dropPlaceholder g old new) ≤ hotCount g := by
  unfold dropPlaceholder
  split
  · next oldPeer _ =>
    dsimp only
    split_ifs
    · exact (modifyPeer_hotCount_le _ (fun peer h => h)).trans (erase_hotCount_le g old)
    · exact erase_hotCount_le g old
  · exact le_rfl

theorem replaceNodeId_hotCount_le (old new : NodeId) (groups : List GroupId) :
    hotCount (replaceNodeId g old new groups).1 ≤ hotCount g := by
  unfold replaceNodeId
  split
  · split_ifs
    · exact dropPlaceholder_hotCount_le g old new
    · exact moveEntry_hotCount_le g old new groups
  · exact moveEntry_hotCount_le g old new groups

theorem replaceNodeId_fst (old new : NodeId) (groups : List GroupId) :
    (replaceNodeId g old new groups).1 =
      { g with peers := (replaceNodeId g old new groups).1.peers } := by
  have hmove : (moveEntry g old new groups).1 =
      { g with peers := (moveEntry g old new groups).1.peers } := by
    unfold moveEntry
    split <;> rfl
  have hdrop : dropPlaceholder g old new =
      { g with peers := (dropPlaceholder g old new).peers } := by
    unfold dropPlaceholder
    split
    · dsimp only
      split_ifs <;> rfl
    · rfl
  unfold replaceNodeId
  split
  · split_ifs
    · exact hdrop
    · exact hmove
  · exact hmove

theorem replaceNodeId_targets (old new : NodeId) (groups : List GroupId) :
    (replaceNodeId g old new groups).1.targets = g.targets := by
  rw [replaceNodeId_fst]

theorem addPeer_targets (now : ℕ) (addrs : List Multiaddr) (groups : List GroupId) :
    (addPeer g now id addrs groups).targets = g.targets := by
  unfold addPeer
  split <;> rfl

end Operations
end CordeliaCore.PeerGovernor
