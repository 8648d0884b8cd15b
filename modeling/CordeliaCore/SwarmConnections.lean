import CordeliaCore.PoolAgreement
import CordeliaCore.SwarmCalls

set_option autoImplicit false

/-!
# Connections as the governor task hears of them

Two nodes can hold several connections to each other. The swarm task passes on only the first
that opens and the last that closes, by the numbers that `libp2p` reports, on a channel that
drops its oldest events when the governor task falls behind. Unless it drops one of these, the
governor task sees each peer connect only when it has no connection and disconnect only when it
has one, which is what its loop relies on, and counts as connected the peers that are.
-/
namespace CordeliaCore.SwarmTask
open CryptoPrimitives StorageRows StorageSqlite PeerGovernor PeerPool StepRuns GovernorLoop

abbrev Link := NodeId × Bool

section Links

def relink (connections : List NodeId) (link : Link) : List NodeId :=
  if link.2 then link.1 :: connections else connections.filter (fun id => id ≠ link.1)

/-- A link comes up for a peer that has none and goes down for one that has. -/
def Turns (connections : List NodeId) (link : Link) : Prop :=
  if link.2 then link.1 ∉ connections else link.1 ∈ connections

/-- What an output puts on the channel to the governor task. -/
def broadcast : Output → Option SwarmEvent2
  | .event event => some event
  | _ => none

def eventLink : SwarmEvent2 → Option Link
  | .peerConnected peerId _ => some (peerId, true)
  | .peerDisconnected peerId => some (peerId, false)
  | _ => none

def loopLink : LoopEvent → Option Link
  | .peerConnected _ _ peerId _ => some (peerId, true)
  | .peerDisconnected _ peerId => some (peerId, false)
  | _ => none

variable {α : Type} [LinearOrder α] [Libp2p] (floats : Floats α)

theorem observe_connections (s : Session) (event : LoopEvent) :
    (observe floats s event).connections =
      (loopLink event).elim s.connections (relink s.connections) := by
  cases event <;> rfl

omit [Libp2p] in
theorem possible_iff (s : Session) (event : LoopEvent) :
    Possible s event ↔ (loopLink event).elim True (Turns s.connections) := by
  cases event with
  | peerConnected now sets peerId addrs => simp [Possible, loopLink, Turns]
  | peerDisconnected now peerId => simp [Possible, loopLink, Turns]
  | _ => exact Iff.rfl

end Links

section Counting

abbrev Counts := NodeId → ℕ

def count (counts : Counts) (input : SwarmEnv × Input) : Counts :=
  match input.2 with
  | .event (.connectionEstablished peer _ _) => Function.update counts peer (counts peer + 1)
  | .event (.connectionClosed peer _) => Function.update counts peer (counts peer - 1)
  | _ => counts

/-- `libp2p` reports how many connections there are once one has opened or closed. -/
def Genuine (counts : Counts) (input : SwarmEnv × Input) : Prop :=
  match input.2 with
  | .event (.connectionEstablished peer _ numEstablished) => numEstablished = counts peer + 1
  | .event (.connectionClosed peer numEstablished) => counts peer = numEstablished + 1
  | _ => True

/-- The peers believed connected are those with an open connection. -/
def Tracks (connections : List NodeId) (counts : Counts) : Prop :=
  ∀ id, id ∈ connections ↔ 0 < counts id

section Opening
variable {connections : List NodeId} {counts : Counts} {peer : NodeId} {n : ℕ}

theorem Tracks.opened (h : Tracks connections counts) (hn : n = counts peer + 1) :
    Along relink Turns connections (if n = 1 then [(peer, true)] else []) ∧
      Tracks (run relink connections (if n = 1 then [(peer, true)] else []))
        (Function.update counts peer (counts peer + 1)) := by
  have hopen : ∀ id, 0 < Function.update counts peer (counts peer + 1) id ↔
      id = peer ∨ 0 < counts id := by
    intro id
    rw [Function.update_apply]
    split_ifs with hid
    · simp [hid]
    · simp [hid]
  split_ifs with hfirst
  · -- the first connection is passed on
    have hnew : peer ∉ connections := by
      rw [h peer]
      omega
    refine ⟨⟨by simpa [Turns] using hnew, trivial⟩, fun id => ?_⟩
    change id ∈ relink connections (peer, true) ↔ _
    rw [hopen, relink, if_pos rfl, List.mem_cons, h id]
  · have hold : 0 < counts peer := by omega
    refine ⟨trivial, fun id => ?_⟩
    rw [hopen, run_nil, h id]
    exact ⟨.inr, fun hid => hid.elim (fun he => he ▸ hold) (fun hpos => hpos)⟩

theorem Tracks.closed (h : Tracks connections counts) (hn : counts peer = n + 1) :
    Along relink Turns connections (if n = 0 then [(peer, false)] else []) ∧
      Tracks (run relink connections (if n = 0 then [(peer, false)] else []))
        (Function.update counts peer (counts peer - 1)) := by
  have hopen : ∀ id, 0 < Function.update counts peer (counts peer - 1) id ↔
      if id = peer then 0 < n else 0 < counts id := by
    intro id
    rw [Function.update_apply]
    split_ifs with hid
    · omega
    · rfl
  split_ifs with hlast
  · -- the last connection is gone
    have hthere : peer ∈ connections := by
      rw [h peer]
      omega
    refine ⟨⟨by simpa [Turns] using hthere, trivial⟩, fun id => ?_⟩
    change id ∈ relink connections (peer, false) ↔ _
    rw [hopen, relink, if_neg Bool.false_ne_true, List.mem_filter, h id]
    by_cases hid : id = peer
    · simp [hid, hlast]
    · simp [hid]
  · refine ⟨trivial, fun id => ?_⟩
    rw [hopen, run_nil, h id]
    split_ifs with hid
    · rw [hid]
      omega
    · rfl

end Opening

variable {σ : Type} [Storage σ] [Sha256] [Ed25519] (settings : Settings)

def links (s : SwarmState σ) (input : SwarmEnv × Input) : List Link :=
  ((react settings input.1 s input.2).1.filterMap broadcast).filterMap eventLink

theorem links_established (s : SwarmState σ) (env : SwarmEnv) (peer : NodeId) (addr : Multiaddr)
    (n : ℕ) : links settings s (env, .event (.connectionEstablished peer addr n)) =
      if n = 1 then [(peer, true)] else [] := by
  unfold links react handleEvent
  dsimp only
  split_ifs <;> rfl

theorem links_closed (s : SwarmState σ) (env : SwarmEnv) (peer : NodeId) (n : ℕ) :
    links settings s (env, .event (.connectionClosed peer n)) =
      if n = 0 then [(peer, false)] else [] := by
  unfold links react handleEvent
  dsimp only
  split_ifs <;> rfl

theorem links_command (s : SwarmState σ) (env : SwarmEnv) (cmd : SwarmCommand) :
    links settings s (env, .command cmd) = [] := by
  cases cmd with
  | sendGroupExchange peer request responseTx =>
    obtain ⟨groups, descriptors⟩ := request
    cases descriptors <;> rfl
  | _ => rfl

theorem links_behaviour (s : SwarmState σ) (env : SwarmEnv) (event : BehaviourEvent) :
    links settings s (env, .event (.behaviour event)) = [] := by
  cases event with
  | ping peer rttMs => cases rttMs <;> rfl
  | memoryPush event =>
    cases event with
    | request peer request =>
      unfold links
      rw [List.filterMap_filterMap]
      change ((_ :: List.map _ _).filterMap _) = []
      rw [List.filterMap_cons, List.filterMap_map]
      exact List.filterMap_eq_nil_iff.mpr (fun _ _ => rfl)
    | _ => rfl
  | peerShare event | memorySync event | memoryFetch event | groupExchange event =>
    cases event <;> rfl
  | _ => rfl

theorem Tracks.input {connections : List NodeId} {counts : Counts} (h : Tracks connections counts)
    (s : SwarmState σ) (input : SwarmEnv × Input) (hgenuine : Genuine counts input) :
    Along relink Turns connections (links settings s input) ∧
      Tracks (run relink connections (links settings s input)) (count counts input) := by
  obtain ⟨env, input⟩ := input
  have hquiet : links settings s (env, input) = [] → count counts (env, input) = counts →
      Along relink Turns connections (links settings s (env, input)) ∧
        Tracks (run relink connections (links settings s (env, input)))
          (count counts (env, input)) := by
    intro hlinks hcounts
    rw [hlinks, hcounts]
    exact ⟨trivial, h⟩
  cases input with
  | command cmd => exact hquiet (links_command settings s env cmd) rfl
  | event event =>
    cases event with
    | connectionEstablished peer addr n =>
      rw [links_established]
      exact h.opened hgenuine
    | connectionClosed peer n =>
      rw [links_closed]
      exact h.closed hgenuine
    | behaviour event => exact hquiet (links_behaviour settings s env event) rfl
    | _ => exact hquiet rfl rfl

end Counting

section Channel

/-- The two tasks and the channel between them, with the connections that are open. -/
structure Tasks (σ : Type) where
  swarm : SwarmState σ
  /-- What the governor task has not received, oldest first. -/
  eventRx : List SwarmEvent2
  session : Session
  counts : Counts

structure HearEnv where
  now : ℕ
  sets : GroupSets
  iteration : Iteration

inductive TaskStep where
  | input (input : SwarmEnv × Input)
  | recv (env : HearEnv)
  /-- `RecvError::Lagged`: the oldest events are gone. -/
  | lagged (missed : ℕ)
  /-- A tick, or an answer that a task of the governor's own waited for. -/
  | own (event : LoopEvent)

/-- The branch of the governor loop that takes an event; a confirmed address is only logged. -/
def heardAs (env : HearEnv) : SwarmEvent2 → Option LoopEvent
  | .peerConnected peerId addrs => some (.peerConnected env.now env.sets peerId addrs)
  | .peerDisconnected peerId => some (.peerDisconnected env.now peerId)
  | .pingRtt peerId rttMs => some (.pingRtt env.now peerId rttMs)
  | .identifyReceived peerId listenAddrs =>
    some (.identifyReceived env.now env.iteration peerId listenAddrs)
  | .externalAddrConfirmed _ => none
  | .dialFailure peerId => some (.dialFailure env.now peerId)

theorem heardAs_link (env : HearEnv) (event : SwarmEvent2) :
    (heardAs env event).bind loopLink = eventLink event := by
  cases event <;> rfl

variable {σ : Type}

def handled (t : Tasks σ) : TaskStep → Option LoopEvent
  | .recv env => t.eventRx.head?.bind (heardAs env)
  | .own event => some event
  | .input _ | .lagged _ => none

/-- No lag loses a connection event, and the governor makes up none. -/
def Permitted (t : Tasks σ) : TaskStep → Prop
  | .input input => Genuine t.counts input
  | .recv _ => True
  | .lagged missed => (t.eventRx.take missed).filterMap eventLink = []
  | .own event => loopLink event = none

def Tasks.start (storage : σ) (sharedGroups : List GroupId) (task : GovernorTask) : Tasks σ :=
  ⟨.start storage sharedGroups, [], ⟨task, []⟩, fun _ => 0⟩

/-- What is still to be heard comes in turn, and then the peers heard connected are connected. -/
structure Follows (t : Tasks σ) : Prop where
  turns : Along relink Turns t.session.connections (t.eventRx.filterMap eventLink)
  tracks : Tracks (run relink t.session.connections (t.eventRx.filterMap eventLink)) t.counts

theorem follows_start (storage : σ) (sharedGroups : List GroupId) (task : GovernorTask) :
    Follows (.start storage sharedGroups task) :=
  ⟨trivial, fun id => by simp [Tasks.start]⟩

theorem Follows.possible {t : Tasks σ} (h : Follows t) {a : TaskStep} (ha : Permitted t a)
    {event : LoopEvent} (hevent : handled t a = some event) : Possible t.session event := by
  rw [possible_iff]
  cases a with
  | input input => cases hevent
  | lagged missed => cases hevent
  | own own =>
    obtain rfl := Option.some.inj hevent
    rw [show loopLink own = none from ha]
    trivial
  | recv env =>
    obtain ⟨next, hnext, hheard⟩ := Option.bind_eq_some_iff.mp hevent
    obtain ⟨rest, hrest⟩ := List.head?_eq_some_iff.mp hnext
    have hlink : loopLink event = eventLink next := by
      rw [← heardAs_link env next, hheard]
      rfl
    have hturns := h.turns
    rw [hrest, List.filterMap_cons] at hturns
    rw [hlink]
    cases hnextLink : eventLink next with
    | none => trivial
    | some link =>
      rw [hnextLink] at hturns
      exact hturns.1

variable {α : Type} [LinearOrder α] [Libp2p] (floats : Floats α)
variable [Storage σ] [Sha256] [Ed25519] (settings : Settings)

def advance (t : Tasks σ) : TaskStep → Tasks σ
  | .input input =>
    let (outputs, swarm) := react settings input.1 t.swarm input.2
    { t with
      swarm := swarm
      eventRx := t.eventRx ++ outputs.filterMap broadcast
      counts := count t.counts input }
  | .recv env =>
    { t with
      eventRx := t.eventRx.tail
      session := (t.eventRx.head?.bind (heardAs env)).elim t.session (observe floats t.session) }
  | .lagged missed => { t with eventRx := t.eventRx.drop missed }
  | .own event => { t with session := observe floats t.session event }

omit [Sha256] [Ed25519] in
theorem hear_connections (s : Session) (env : HearEnv) (event : SwarmEvent2) :
    ((heardAs env event).elim s (observe floats s)).connections =
      (eventLink event).elim s.connections (relink s.connections) := by
  rw [← heardAs_link env event]
  cases heardAs env event with
  | none => rfl
  | some heard => exact observe_connections floats s heard

variable {t : Tasks σ}

theorem Follows.input (h : Follows t) (input : SwarmEnv × Input) (hinput : Genuine t.counts input) :
    Follows (advance floats settings t (.input input)) := by
  obtain ⟨hturns, htracks⟩ := h.tracks.input settings t.swarm input hinput
  have hqueue : (advance floats settings t (.input input)).eventRx.filterMap eventLink =
      t.eventRx.filterMap eventLink ++ links settings t.swarm input := List.filterMap_append
  constructor
  · rw [hqueue, along_append]
    exact ⟨h.turns, hturns⟩
  · rw [hqueue, run_append]
    exact htracks

theorem Follows.recv (h : Follows t) (env : HearEnv) :
    Follows (advance floats settings t (.recv env)) := by
  obtain ⟨swarm, eventRx, session, counts⟩ := t
  obtain ⟨hturns, htracks⟩ := h
  cases eventRx with
  | nil => exact ⟨hturns, htracks⟩
  | cons event rest =>
    have hheard := hear_connections floats session env event
    -- the link at the head of the queue moves into the session
    rw [List.filterMap_cons] at hturns htracks
    constructor
    · change Along relink Turns ((heardAs env event).elim session (observe floats session)).connections
        (rest.filterMap eventLink)
      rw [hheard]
      cases hlink : eventLink event with
      | none =>
        rw [hlink] at hturns
        exact hturns
      | some link =>
        rw [hlink] at hturns
        exact hturns.2
    · change Tracks (run relink
        ((heardAs env event).elim session (observe floats session)).connections
        (rest.filterMap eventLink)) counts
      rw [hheard]
      cases hlink : eventLink event with
      | none =>
        rw [hlink] at htracks
        exact htracks
      | some link =>
        rw [hlink] at htracks
        exact htracks

theorem Follows.lagged (h : Follows t) {missed : ℕ}
    (hmissed : (t.eventRx.take missed).filterMap eventLink = []) :
    Follows (advance floats settings t (.lagged missed)) := by
  have hsame : (t.eventRx.drop missed).filterMap eventLink = t.eventRx.filterMap eventLink := by
    conv_rhs => rw [← List.take_append_drop missed t.eventRx, List.filterMap_append, hmissed]
    rfl
  constructor
  · change Along relink Turns t.session.connections ((t.eventRx.drop missed).filterMap eventLink)
    rw [hsame]
    exact h.turns
  · change Tracks (run relink t.session.connections ((t.eventRx.drop missed).filterMap eventLink)) _
    rw [hsame]
    exact h.tracks

theorem Follows.own (h : Follows t) {event : LoopEvent} (hevent : loopLink event = none) :
    Follows (advance floats settings t (.own event)) := by
  have hsame : (observe floats t.session event).connections = t.session.connections := by
    rw [observe_connections, hevent]
    rfl
  constructor
  · change Along relink Turns (observe floats t.session event).connections _
    rw [hsame]
    exact h.turns
  · change Tracks (run relink (observe floats t.session event).connections _) _
    rw [hsame]
    exact h.tracks

theorem Follows.step (t : Tasks σ) (a : TaskStep) (h : Follows t) (ha : Permitted t a) :
    Follows (advance floats settings t a) := by
  cases a with
  | input input => exact h.input floats settings input ha
  | recv env => exact h.recv floats settings env
  | lagged missed => exact h.lagged floats settings ha
  | own event => exact h.own floats settings ha

/-- However connections open and close and whatever else happens meanwhile, the governor task
    sees connections and disconnections take turns for each peer; once it has received every
    connection event, the peers it has seen connected are those with an open connection. -/
theorem governor_hears_connections (storage : σ) (sharedGroups : List GroupId)
    (task : GovernorTask) (steps : List TaskStep)
    (hsteps : Along (advance floats settings) Permitted (.start storage sharedGroups task) steps) :
    let final := run (advance floats settings) (.start storage sharedGroups task) steps
    Along (advance floats settings) (fun t a => ∀ event ∈ handled t a, Possible t.session event)
        (.start storage sharedGroups task) steps ∧
      (final.eventRx.filterMap eventLink = [] →
        ∀ id, id ∈ final.session.connections ↔ 0 < final.counts id) := by
  intro final
  have hstart := follows_start storage sharedGroups task
  constructor
  · exact along_of_guard (Follows.step floats settings)
      (fun t a h ha event hevent => h.possible ha hevent) hstart hsteps
  · intro hheard
    have htracks := (invariant_run (Follows.step floats settings) hstart hsteps).tracks
    rw [hheard] at htracks
    exact htracks

end Channel

section Example

def calmReading : HearEnv := ⟨0, ⟨[], none⟩, plainOrder⟩

/-- Both nodes dial each other; the second connection closes again. A lag then loses the time
    of a ping, and the first connection closes before the governor task reads on. -/
def crossedDials : List TaskStep :=
  [.input (quietEnv, .event (.connectionEstablished "peer-1" "/ip4/192.0.2.1" 1)),
    .recv calmReading,
    .input (quietEnv, .event (.connectionEstablished "peer-1" "/ip4/192.0.2.7" 2)),
    .input (quietEnv, .event (.behaviour (.ping "peer-1" (some 1)))),
    .input (quietEnv, .event (.connectionClosed "peer-1" 1)),
    .lagged 1,
    .input (quietEnv, .event (.connectionClosed "peer-1" 0)),
    .recv calmReading]

theorem crossed_dials_heard_once :
    let := knownDigests
    let := knownSignatures
    let := plainLibp2p
    let start := Tasks.start SqliteStorage.createNew [] quietNode.task
    Along (advance evenFloats aliceSettings) Permitted start crossedDials ∧
      Along (advance evenFloats aliceSettings)
        (fun t a => ∀ event ∈ handled t a, Possible t.session event) start crossedDials := by
  intro _ _ _ start
  have hsteps : Along (advance evenFloats aliceSettings) Permitted start crossedDials := by
    simp [crossedDials, Permitted, Genuine, advance, count, react, handleEvent, start, Tasks.start,
      handleBehaviourEvent, broadcast, eventLink]
  exact ⟨hsteps, (governor_hears_connections evenFloats aliceSettings SqliteStorage.createNew []
    quietNode.task crossedDials hsteps).1⟩

end Example
end CordeliaCore.SwarmTask
