import CordeliaCore.StorageSqlite
import CordeliaCore.SwarmTask

set_option autoImplicit false

namespace CordeliaCore.SwarmTask
open CryptoPrimitives ProtocolMessages StorageRows StorageSqlite Swarm PendingCalls StepRuns

inductive Behaviour where
  | peerShare
  | memorySync
  | memoryFetch
  | groupExchange
deriving DecidableEq

abbrev Behaviour.Response : Behaviour → Type
  | .peerShare => PeerShareResponse
  | .memorySync => SyncResponse
  | .memoryFetch => FetchResponse
  | .groupExchange => GroupExchangeResponse

def SwarmState.calls {σ : Type} (s : SwarmState σ) :
    (b : Behaviour) → Calls Sender (Except String b.Response)
  | .peerShare => s.peerShare
  | .memorySync => s.memorySync
  | .memoryFetch => s.memoryFetch
  | .groupExchange => s.groupExchange

def Exchange.concludes {Request Response : Type} :
    Exchange Request Response → Option (Action Sender (Except String Response))
  | .response requestId answer => some (.conclude requestId (.ok answer))
  | .outboundFailure requestId error => some (.conclude requestId (.error error))
  | _ => none

def action : (b : Behaviour) → SwarmEnv × Input → Option (Action Sender (Except String b.Response))
  | .peerShare, (env, .command (.sendPeerShareRequest _ _ responseTx)) =>
    some (.place env.requestId responseTx)
  | .peerShare, (_, .event (.behaviour (.peerShare event))) => event.concludes
  | .memorySync, (env, .command (.sendSyncRequest _ _ responseTx)) =>
    some (.place env.requestId responseTx)
  | .memorySync, (_, .event (.behaviour (.memorySync event))) => event.concludes
  | .memoryFetch, (env, .command (.sendFetchRequest _ _ responseTx)) =>
    some (.place env.requestId responseTx)
  | .memoryFetch, (_, .event (.behaviour (.memoryFetch event))) => event.concludes
  | .groupExchange, (env, .command (.sendGroupExchange _ _ responseTx)) =>
    some (.place env.requestId responseTx)
  | .groupExchange, (_, .event (.behaviour (.groupExchange event))) => event.concludes
  | _, _ => none

def actions (b : Behaviour) (inputs : List (SwarmEnv × Input)) :
    List (Action Sender (Except String b.Response)) :=
  inputs.filterMap (action b)

section Runs
variable {σ : Type} [Storage σ] [Sha256] [Ed25519] (settings : Settings) (s : SwarmState σ)

theorem handleCommand_calls (env : SwarmEnv) (cmd : SwarmCommand) (b : Behaviour) :
    (handleCommand settings env s cmd).2.calls b =
      (action b (env, .command cmd)).elim (s.calls b) (act (s.calls b)) := by
  cases cmd with
  | sendGroupExchange peer request responseTx =>
    obtain ⟨groups, descriptors⟩ := request
    cases descriptors <;> cases b <;> rfl
  | _ => cases b <;> rfl

theorem handleBehaviourEvent_calls (env : SwarmEnv) (ourGroups : List PeerGovernor.GroupId)
    (event : BehaviourEvent) (b : Behaviour) :
    (handleBehaviourEvent settings env ourGroups s event).2.2.calls b =
      (action b (env, .event (.behaviour event))).elim (s.calls b) (act (s.calls b)) := by
  cases event with
  | ping peer rttMs => cases rttMs <;> cases b <;> rfl
  | identifyReceived peer listenAddrs => cases b <;> rfl
  | other => cases b <;> rfl
  | peerShare event | memorySync event | memoryFetch event | memoryPush event
  | groupExchange event => cases event <;> cases b <;> rfl

/-- Forgetting tombstoned groups leaves the calls alone. -/
theorem handleEvent_calls (env : SwarmEnv) (event : NetworkEvent) (b : Behaviour) :
    (handleEvent settings env s event).2.calls b =
      (action b (env, .event event)).elim (s.calls b) (act (s.calls b)) := by
  cases event with
  | behaviour event =>
    have hcalls := handleBehaviourEvent_calls settings s env (groupsSnap env s.sharedGroups) event b
    cases event with
    | peerShare event => cases event <;> cases b <;> rfl
    | memoryPush event => cases event <;> cases b <;> rfl
    | _ => cases b <;> exact hcalls
  | _ => cases b <;> rfl

theorem step_calls (input : SwarmEnv × Input) (b : Behaviour) :
    (step settings s input).calls b =
      (action b input).elim (s.calls b) (act (s.calls b)) := by
  obtain ⟨env, input⟩ := input
  cases input with
  | command cmd => exact handleCommand_calls settings s env cmd b
  | event event => exact handleEvent_calls settings s env event b

/-- A run of the task is, for each behaviour, a run of its calls. -/
theorem run_calls (inputs : List (SwarmEnv × Input)) (b : Behaviour) :
    (run (step settings) s inputs).calls b = run act (s.calls b) (actions b inputs) := by
  induction inputs generalizing s with
  | nil => rfl
  | cons input inputs ih =>
    rw [run_cons, ih, step_calls]
    unfold actions
    rw [List.filterMap_cons]
    cases action b input <;> rfl

end Runs

section Answers
variable {σ : Type} [Storage σ] [Sha256] [Ed25519] (settings : Settings)

/-- The input sends a request of the behaviour under this number, to be answered on this
    channel. -/
def Asks (b : Behaviour) (requestId : ℕ) (responseTx : Sender) (input : SwarmEnv × Input) : Prop :=
  action b input = some (.place requestId responseTx)

omit [Sha256] [Ed25519] in
theorem place_notMem_actions {b : Behaviour} {requestId : ℕ} {responseTx : Sender}
    {inputs : List (SwarmEnv × Input)}
    (h : ∀ input ∈ inputs, ¬ Asks b requestId responseTx input) :
    .place requestId responseTx ∉ actions b inputs := by
  intro ha
  obtain ⟨input, hinput, haction⟩ := List.mem_filterMap.mp ha
  exact h input hinput haction

/-- Over any run from the start of the task, the channel of a request is sent the first outcome
    that is reported for the request's number on its own behaviour after it was sent, exactly
    once, and waits in the table as long as there is none. -/
theorem request_answered_once (storage : σ) (sharedGroups : List PeerGovernor.GroupId)
    (b : Behaviour) (requestId : ℕ) (responseTx : Sender) (past coming : List (SwarmEnv × Input))
    (input : SwarmEnv × Input) (hasks : Asks b requestId responseTx input)
    (honce : ∀ other ∈ past ++ coming, ∀ id, ¬ Asks b id responseTx other)
    (hfresh : ∀ other ∈ coming, ∀ tx, ¬ Asks b requestId tx other) :
    let final := (run (step settings) (.start storage sharedGroups)
      (past ++ input :: coming)).calls b
    final.toldTo responseTx = (firstOutcome requestId (actions b coming)).toList ∧
      (final.waiting requestId = some responseTx ↔
        firstOutcome requestId (actions b coming) = none) := by
  intro final
  have hactions : actions b (past ++ input :: coming) =
      actions b past ++ .place requestId responseTx :: actions b coming := by
    unfold actions
    rw [List.filterMap_append, List.filterMap_cons, show action b input = _ from hasks]
  have hstart : (SwarmState.start storage sharedGroups).calls b = .start := by
    cases b <;> rfl
  have hfinal : final =
      run act .start (actions b past ++ .place requestId responseTx :: actions b coming) := by
    change (run (step settings) (.start storage sharedGroups) (past ++ input :: coming)).calls b = _
    rw [run_calls, hactions, hstart]
  rw [hfinal]
  apply told_first_outcome
  · rintro a ha id rfl
    exact place_notMem_actions (fun other h => honce other (List.mem_append_left coming h) id) ha
  · rintro a ha id rfl
    exact place_notMem_actions (fun other h => honce other (List.mem_append_right past h) id) ha
  · rintro a ha tx rfl
    exact place_notMem_actions (fun other h => hfresh other h tx) ha

end Answers

section Example

@[reducible] def aliceSettings : @Settings knownSignatures :=
  @Settings.mk knownSignatures .personal none [] ownerIdentity "alice"

/-- Each behaviour numbers its first request 1. -/
def quietEnv : SwarmEnv := ⟨1, "2026-02-01 00:00:00", fun _ => "2026-02-01 00:00:00", [], none, false⟩

def askListing : SwarmEnv × Input :=
  (quietEnv, .command (.sendSyncRequest "relay-1" ⟨"seed-drill", none, 100⟩ 7))

def askItem : SwarmEnv × Input :=
  (quietEnv, .command (.sendFetchRequest "relay-1" ⟨["note-1"]⟩ 8))

def itemArrives : SwarmEnv × Input :=
  (quietEnv, .event (.behaviour (.memoryFetch (.response 1 ⟨[]⟩))))

def listingFails : SwarmEnv × Input :=
  (quietEnv, .event (.behaviour (.memorySync (.outboundFailure 1 "timeout"))))

def listingArrivesLate : SwarmEnv × Input :=
  (quietEnv, .event (.behaviour (.memorySync (.response 1 ⟨[], false⟩))))

/-- The channel of the listing hears of the failure, and of nothing before or after. -/
theorem listing_fails_once :
    let := knownDigests
    let := knownSignatures
    Asks .memorySync 1 7 askListing ∧
      ((run (step aliceSettings) (.start SqliteStorage.createNew [])
        ([] ++ askListing :: [askItem, itemArrives, listingFails, listingArrivesLate])).calls
          .memorySync).toldTo 7 = [.error "timeout"] := by
  intro _ _
  have hasks : Asks .memorySync 1 7 askListing := rfl
  have hlater : ∀ other ∈ [askItem, itemArrives, listingFails, listingArrivesLate], ∀ id tx,
      ¬ Asks .memorySync id tx other := by
    simp [Asks, action, askItem, itemArrives, listingFails, listingArrivesLate,
      Exchange.concludes]
  exact ⟨hasks, (request_answered_once aliceSettings SqliteStorage.createNew [] .memorySync 1 7 []
    _ askListing hasks (fun other h id => hlater other h id 7)
    (fun other h tx => hlater other h 1 tx)).1⟩

end Example
end CordeliaCore.SwarmTask
