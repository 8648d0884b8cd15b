import CordeliaCore.PeerStates
import CordeliaCore.PoolEffect
import CordeliaCore.StepRuns

set_option autoImplicit false

namespace CordeliaCore.GovernorLoop
open ProtocolMessages KeyedTable PeerGovernor PeerPool StepRuns

abbrev Resolver := String → Option Multiaddr

def firstAddr (tries : List Resolver) (boot : String) : Option Multiaddr :=
  tries.findSome? (fun resolve => resolve boot)

def resolvers (events : List LoopEvent) : List Resolver :=
  events.filterMap (fun event => match event with
    | .tick env => some env.resolve
    | _ => none)

/-- The number that the counter gives the tick after some others. -/
def tickNumber (ticks : ℕ) : ℕ := (ticks + 1) % 2 ^ 64

/-- The ticks that look up what has not resolved. -/
def retries (ticks : List Resolver) : List Resolver :=
  (ticks.zipIdx.filter (fun tick => tickNumber tick.2 ≤ 6)).map Prod.fst

theorem retries_concat (ticks : List Resolver) (resolve : Resolver) :
    retries (ticks ++ [resolve]) =
      retries ticks ++ if tickNumber ticks.length ≤ 6 then [resolve] else [] := by
  unfold retries
  rw [List.zipIdx_append, List.filter_append, List.map_append, Nat.zero_add]
  congr 1
  split_ifs with hearly
  · simp [hearly]
  · simp [hearly]

/-- Until the counter wraps these are the first six ticks. -/
theorem retries_of_short {ticks : List Resolver} (hshort : ticks.length < 2 ^ 64) :
    retries ticks = ticks.take 6 := by
  induction ticks using List.reverseRecOn with
  | nil => rfl
  | append_singleton ticks resolve ih =>
    rw [List.length_append, List.length_singleton] at hshort
    have hnumber : tickNumber ticks.length = ticks.length + 1 := Nat.mod_eq_of_lt hshort
    rw [retries_concat, ih (by omega), hnumber]
    split_ifs with hearly
    · rw [List.take_of_length_le (by omega), List.take_of_length_le (by simp; omega)]
    · rw [List.append_nil, List.take_append_of_le_length (by omega)]

section Lookups
variable [Libp2p]

theorem resolveBootnodes_lists (now : ℕ) (resolve : Resolver) (tried : List String)
    (t : GovernorTask) :
    (resolveBootnodes now resolve tried t).resolvedBootnodeAddrs = t.resolvedBootnodeAddrs ++
        tried.filterMap (fun boot => (resolve boot).map (fun addr => (boot, addr))) ∧
      (resolveBootnodes now resolve tried t).unresolvedBootnodes =
        tried.filter (fun boot => (resolve boot).isNone) := by
  suffices hall : ∀ t : GovernorTask,
      (tried.foldl (resolveBootnode now resolve) t).resolvedBootnodeAddrs =
          t.resolvedBootnodeAddrs ++
            tried.filterMap (fun boot => (resolve boot).map (fun addr => (boot, addr))) ∧
        (tried.foldl (resolveBootnode now resolve) t).unresolvedBootnodes =
          t.unresolvedBootnodes ++ tried.filter (fun boot => (resolve boot).isNone) from
    hall { t with unresolvedBootnodes := [] }
  induction tried with
  | nil => simp
  | cons boot tried ih =>
    intro t
    rw [List.foldl_cons, (ih _).1, (ih _).2]
    unfold resolveBootnode
    cases hresolve : resolve boot with
    | none => simp [hresolve]
    | some addr => simp [hresolve]

theorem resolveBootnodes_tickCount (now : ℕ) (resolve : Resolver) (tried : List String)
    (t : GovernorTask) : (resolveBootnodes now resolve tried t).tickCount = t.tickCount := by
  suffices hall : ∀ t : GovernorTask,
      (tried.foldl (resolveBootnode now resolve) t).tickCount = t.tickCount from
    hall { t with unresolvedBootnodes := [] }
  induction tried with
  | nil => exact fun _ => rfl
  | cons boot tried ih =>
    intro t
    rw [List.foldl_cons, ih]
    unfold resolveBootnode
    split <;> rfl

end Lookups

structure LookedUp (boots : List String) (tries : List Resolver) (t : GovernorTask) : Prop where
  resolved : ∀ boot addr, (boot, addr) ∈ t.resolvedBootnodeAddrs ↔
    boot ∈ boots ∧ firstAddr tries boot = some addr
  unresolved : ∀ boot, boot ∈ t.unresolvedBootnodes ↔ boot ∈ boots ∧ firstAddr tries boot = none

section Steps
variable [Libp2p] {boots : List String} {tries : List Resolver} {t : GovernorTask}

omit [Libp2p] in
theorem firstAddr_append (tries : List Resolver) (resolve : Resolver) (boot : String) :
    firstAddr (tries ++ [resolve]) boot = (firstAddr tries boot).or (resolve boot) := by
  unfold firstAddr
  rw [List.findSome?_append]
  cases hresolve : resolve boot <;> simp [hresolve]

theorem LookedUp.again (h : LookedUp boots tries t) (now : ℕ) (resolve : Resolver) :
    LookedUp boots (tries ++ [resolve]) (resolveBootnodes now resolve t.unresolvedBootnodes t) := by
  obtain ⟨hresolved, hunresolved⟩ := resolveBootnodes_lists now resolve t.unresolvedBootnodes t
  refine ⟨fun boot addr => ?_, fun boot => ?_⟩
  · rw [hresolved, List.mem_append, h.resolved, firstAddr_append, List.mem_filterMap]
    constructor
    · rintro (⟨hboot, hfirst⟩ | ⟨other, hother, hnow⟩)
      · exact ⟨hboot, by rw [hfirst, Option.some_or]⟩
      · obtain ⟨found, hfound, heq⟩ := Option.map_eq_some_iff.mp hnow
        injection heq with hname haddr
        obtain ⟨hboot, hnone⟩ := (h.unresolved other).mp hother
        rw [← hname, ← haddr, hnone, Option.none_or]
        exact ⟨hboot, hfound⟩
    · rintro ⟨hboot, hfirst⟩
      cases hbefore : firstAddr tries boot with
      | some before =>
        rw [hbefore, Option.some_or] at hfirst
        exact .inl ⟨hboot, hfirst⟩
      | none =>
        rw [hbefore, Option.none_or] at hfirst
        exact .inr ⟨boot, (h.unresolved boot).mpr ⟨hboot, hbefore⟩, by rw [hfirst]; rfl⟩
  · rw [hunresolved, List.mem_filter, h.unresolved, firstAddr_append, Option.isNone_iff_eq_none,
      Option.or_eq_none_iff, and_assoc]

omit [Libp2p] in
theorem LookedUp.done (h : LookedUp boots tries t) (hdone : t.unresolvedBootnodes = [])
    (resolve : Resolver) : LookedUp boots (tries ++ [resolve]) t := by
  have hall : ∀ boot ∈ boots, firstAddr tries boot ≠ none := by
    intro boot hboot hnone
    have hmem := (h.unresolved boot).mpr ⟨hboot, hnone⟩
    rw [hdone] at hmem
    cases hmem
  refine ⟨fun boot addr => ?_, fun boot => ?_⟩
  · rw [h.resolved, firstAddr_append]
    refine and_congr_right (fun hboot => ?_)
    obtain ⟨found, hfound⟩ := Option.ne_none_iff_exists'.mp (hall boot hboot)
    rw [hfound, Option.some_or]
  · rw [h.unresolved, firstAddr_append, Option.or_eq_none_iff]
    refine and_congr_right (fun hboot => ?_)
    exact ⟨fun hnone => absurd hnone (hall boot hboot), fun hnone => hnone.1⟩

omit [Libp2p] in
theorem LookedUp.congr (h : LookedUp boots tries t) {t' : GovernorTask}
    (hresolved : t'.resolvedBootnodeAddrs = t.resolvedBootnodeAddrs)
    (hunresolved : t'.unresolvedBootnodes = t.unresolvedBootnodes) : LookedUp boots tries t' :=
  ⟨fun boot addr => hresolved ▸ h.resolved boot addr, fun boot => hunresolved ▸ h.unresolved boot⟩

theorem lookedUp_start (governor : Governor) (now : ℕ) (resolve : Resolver) (boots : List String) :
    LookedUp boots [resolve] (start governor now resolve boots) := by
  have hnone : LookedUp boots [] ⟨governor, .empty, fun _ => none, 0, boots, []⟩ :=
    ⟨fun boot addr => by simp [firstAddr], fun boot => by simp [firstAddr]⟩
  exact hnone.again now resolve

structure Keeping (boots : List String) (resolve : Resolver) (ticks : List Resolver)
    (t : GovernorTask) : Prop where
  counted : t.tickCount = ticks.length % 2 ^ 64
  lookedUp : LookedUp boots (resolve :: retries ticks) t

variable {resolve : Resolver} {ticks : List Resolver}

omit [Libp2p] in
theorem Keeping.count_ticked (h : Keeping boots resolve ticks t)
    (ticked : Governor × GovernorActions) :
    (executeTick t ticked).tickCount = tickNumber ticks.length := by
  change (t.tickCount + 1) % 2 ^ 64 = (ticks.length + 1) % 2 ^ 64
  rw [h.counted, Nat.mod_add_mod]

theorem Keeping.ticked (h : Keeping boots resolve ticks t) (env : TickEnv)
    (ticked : Governor × GovernorActions) :
    Keeping boots resolve (ticks ++ [env.resolve]) (retryBootnodes env (executeTick t ticked)) := by
  have hsame : LookedUp boots (resolve :: retries ticks) (executeTick t ticked) :=
    h.lookedUp.congr rfl rfl
  have hcount := h.count_ticked ticked
  constructor
  · rw [List.length_append, List.length_singleton]
    refine Eq.trans ?_ hcount
    unfold retryBootnodes
    split_ifs
    · exact resolveBootnodes_tickCount _ _ _ _
    · rfl
  · rw [retries_concat]
    by_cases hdone : (executeTick t ticked).unresolvedBootnodes = []
    · have hidle : retryBootnodes env (executeTick t ticked) = executeTick t ticked :=
        if_neg (fun hretry => hretry.1 hdone)
      rw [hidle]
      split_ifs
      · exact hsame.done hdone env.resolve
      · rwa [List.append_nil]
    · unfold retryBootnodes
      rw [hcount]
      by_cases hearly : tickNumber ticks.length ≤ 6
      · rw [if_pos hearly, if_pos ⟨hdone, hearly⟩]
        exact hsame.again env.now env.resolve
      · rw [if_neg hearly, if_neg (fun hretry => hearly hretry.2), List.append_nil]
        exact hsame

omit [Libp2p] in
theorem Keeping.congr (h : Keeping boots resolve ticks t) {t' : GovernorTask}
    (hcount : t'.tickCount = t.tickCount)
    (hresolved : t'.resolvedBootnodeAddrs = t.resolvedBootnodeAddrs)
    (hunresolved : t'.unresolvedBootnodes = t.unresolvedBootnodes) :
    Keeping boots resolve ticks t' :=
  ⟨hcount.trans h.counted, h.lookedUp.congr hresolved hunresolved⟩

omit [Libp2p] in
theorem Keeping.learnsAddrs (h : Keeping boots resolve ticks t) (now : ℕ) (id : NodeId)
    (addrs : List Multiaddr) : Keeping boots resolve ticks (learnAddrs now id addrs t) := by
  unfold learnAddrs
  split
  · split_ifs
    · exact h.congr rfl rfl rfl
    · exact h
  · exact h

theorem Keeping.handled {α : Type} [LinearOrder α] (floats : Floats α)
    (h : Keeping boots resolve ticks t) (event : LoopEvent) :
    Keeping boots resolve (ticks ++ resolvers [event]) (handle floats t event) := by
  have hother : resolvers [event] = [] → Keeping boots resolve ticks (handle floats t event) →
      Keeping boots resolve (ticks ++ resolvers [event]) (handle floats t event) := by
    intro hnone hkept
    rwa [hnone, List.append_nil]
  cases event with
  | tick env =>
    change Keeping boots resolve (ticks ++ [env.resolve]) (onTick floats env t).2
    rw [onTick_snd]
    exact h.ticked env _
  | identifyReceived now iteration id listenAddrs =>
    refine hother rfl (?_ : Keeping _ _ _ (onIdentifyReceived now iteration id listenAddrs t))
    refine Keeping.learnsAddrs ?_ now id _
    exact h.congr rfl rfl rfl
  | dialFailure now id =>
    cases id with
    | none => exact hother rfl h
    | some id => exact hother rfl (h.congr rfl rfl rfl)
  | _ => exact hother rfl (h.congr rfl rfl rfl)

theorem keeping_run {α : Type} [LinearOrder α] (floats : Floats α)
    (h : Keeping boots resolve ticks t) (events : List LoopEvent) :
    Keeping boots resolve (ticks ++ resolvers events) (run (handle floats) t events) := by
  induction events generalizing t ticks with
  | nil => exact (List.append_nil ticks).symm ▸ h
  | cons event events ih =>
    have hrest := ih (h.handled floats event)
    rwa [List.append_assoc, show resolvers [event] ++ resolvers events =
      resolvers (event :: events) from (List.filterMap_append (l := [event])).symm] at hrest

end Steps

section Redials
variable [Libp2p] {α : Type} [LinearOrder α] (floats : Floats α)

/-- After any tick the bootnodes with an address are those that had one at the start or
    at a tick that the counter numbers up to six. At a tick whose number six divides, each of
    them has an active peer at that address or is dialled, at the address it has by then. -/
theorem bootnodes_connected_or_dialled (governor : Governor) (now : ℕ) (resolve : Resolver)
    (boots : List String) (events : List LoopEvent) (env : TickEnv) :
    let t := run (handle floats) (start governor now resolve boots) events
    let after := handle floats t (.tick env)
    let found := firstAddr (resolve :: retries (resolvers events ++ [env.resolve]))
    let number := tickNumber (resolvers events).length
    (∀ boot addr, (boot, addr) ∈ after.resolvedBootnodeAddrs ↔
        boot ∈ boots ∧ found boot = some addr) ∧
      (0 < number → 6 ∣ number → ∀ boot ∈ boots, ∀ addr, found boot = some addr →
        (∃ h ∈ activePeers after.pool, addr ∈ h.addrs) ∨
          .dial ((env.resolve boot).getD addr) ∈ (onTick floats env t).1) := by
  intro t after found number
  have hstart : Keeping boots resolve [] (start governor now resolve boots) :=
    ⟨resolveBootnodes_tickCount _ _ _ _, lookedUp_start governor now resolve boots⟩
  have hafter : Keeping boots resolve (resolvers events ++ [env.resolve]) after :=
    (keeping_run floats hstart events).handled floats (.tick env)
  refine ⟨hafter.lookedUp.resolved, fun hpos hsixth boot hboot addr haddr => ?_⟩
  have hresolved := (hafter.lookedUp.resolved boot addr).mpr ⟨hboot, haddr⟩
  have hcount : after.tickCount = number := by
    rw [hafter.counted, List.length_append, List.length_singleton]
    rfl
  by_cases hactive : ∃ h ∈ activePeers after.pool, addr ∈ h.addrs
  · exact .inl hactive
  · right
    have hredial : .dial ((env.resolve boot).getD addr) ∈ redialBootnodes env after := by
      unfold redialBootnodes
      rw [hcount, if_pos ⟨hpos, Nat.mod_eq_zero_of_dvd hsixth⟩]
      refine List.mem_map.mpr ⟨(boot, addr), List.mem_filter.mpr ⟨hresolved, ?_⟩, rfl⟩
      rw [Bool.not_eq_true', ← Bool.not_eq_true, List.contains_iff_mem, List.mem_flatMap]
      exact hactive
    exact List.mem_append_left _ (List.mem_append_right _ hredial)

end Redials

section Example

def unheardOf : Resolver := fun _ => none

def quietTick (now : ℕ) (resolve : Resolver) : TickEnv := ⟨now, plainOrder, ⟨[], none⟩, resolve⟩

def fiveTicks : List LoopEvent :=
  [.tick (quietTick 0 unheardOf), .tick (quietTick 10 some), .tick (quietTick 20 unheardOf),
    .tick (quietTick 30 unheardOf), .tick (quietTick 40 unheardOf)]

theorem nobody_active : let := plainLibp2p
    activePeers (handle evenFloats (run (handle evenFloats)
      (start freshGovernor 0 unheardOf ["boot1"]) fiveTicks) (.tick (quietTick 50 unheardOf))).pool =
        [] := by
  decide +kernel

/-- A bootnode whose name resolves at the second tick only is dialled at the sixth. -/
theorem late_bootnode_dialled : let := plainLibp2p
    .dial "boot1" ∈ (onTick evenFloats (quietTick 50 unheardOf) (run (handle evenFloats)
      (start freshGovernor 0 unheardOf ["boot1"]) fiveTicks)).1 := by
  intro _
  have hfound : firstAddr (unheardOf :: retries (resolvers fiveTicks ++ [unheardOf])) "boot1" =
      some "boot1" := by
    rw [retries_of_short (by decide)]
    rfl
  have hsixth := (bootnodes_connected_or_dialled evenFloats freshGovernor 0 unheardOf ["boot1"]
    fiveTicks (quietTick 50 unheardOf)).2 (by decide) (by decide) "boot1" (by decide) "boot1" hfound
  refine hsixth.resolve_left ?_
  rw [nobody_active]
  simp

end Example
end CordeliaCore.GovernorLoop
