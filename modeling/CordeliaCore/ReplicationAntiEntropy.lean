import CordeliaCore.SwarmHandlers

set_option autoImplicit false

/-!
# Anti-entropy rounds

`run_anti_entropy` compares one page of a peer's headers with the local page at
the same cursor, fetches what differs in chunks and passes it to `on_receive`.
A round reads the database clock once.
-/
namespace CordeliaCore.Replication
open CryptoPrimitives ProtocolMessages StorageRows ReplicationEngine

inductive RequestError where
  | send (message : String)
  | closed
  | failed (message : String)
deriving DecidableEq, Repr

def RequestError.text (request : String) : RequestError → String
  | .send message => "send " ++ request ++ " request failed: " ++ message
  | .closed => request ++ " response channel closed"
  | .failed message => request ++ " request failed: " ++ message

structure Peer where
  sync : SyncRequest → Except RequestError SyncResponse
  fetch : FetchRequest → Except RequestError FetchResponse

def Peer.serving {σ : Type} [Storage σ] (remote : σ) : Peer where
  sync req := .ok (Swarm.handleSyncRequest remote req)
  fetch req := .ok (Swarm.handleFetchRequest remote req)

/-- `slice::chunks`, which wants a positive size. -/
def chunks {α : Type} (size : ℕ) : List α → List (List α)
  | [] => []
  | x :: xs => (x :: xs.take (size - 1)) :: chunks size (xs.drop (size - 1))
termination_by xs => xs.length
decreasing_by
  simp only [List.length_drop, List.length_cons]
  omega

variable {σ : Type} [Storage σ] [Sha256]

def receiveAll (storage : σ) (now : String) (items : List FetchedItem) (ourGroups : List String)
    (relayAccepts : Option (String → Bool)) : σ :=
  items.foldl (fun s item => (onReceive s now item ourGroups relayAccepts).2) storage

/-- A failed fetch ends the round; what earlier chunks stored stays. -/
def fetchChunks (peer : Peer) (now : String) (ourGroups : List String)
    (relayAccepts : Option (String → Bool)) : List (List String) → σ → Except String Unit × σ
  | [], storage => (.ok (), storage)
  | chunk :: rest, storage =>
    match peer.fetch ⟨chunk⟩ with
    | .error e => (.error (e.text "fetch"), storage)
    | .ok resp =>
      fetchChunks peer now ourGroups relayAccepts rest
        (receiveAll storage now resp.items ourGroups relayAccepts)

def relayFn (relayAcceptSet : Option (List String)) : Option (String → Bool) :=
  relayAcceptSet.map (fun set gid => set.contains gid)

/-- `peer` is the pool's choice; the result is the newest stamp of its page. -/
def runAntiEntropy (engine : ReplicationEngine) (peer : Option Peer) (storage : σ) (now groupId : String)
    (ourGroups : List String) (since : Option String) (relayAcceptSet : Option (List String)) :
    Except String (Option String) × σ :=
  match peer with
  | none => (.ok none, storage)
  | some peer =>
    match peer.sync ⟨groupId, since, engine.config.maxBatchSize⟩ with
    | .error e => (.error (e.text "sync"), storage)
    | .ok remoteHeaders =>
      let latestTs := (remoteHeaders.items.map ItemHeader.updatedAt).max?
      match Storage.listGroupItems storage groupId since engine.config.maxBatchSize with
      | .error e => (.error ("storage error: " ++ e.text), storage)
      | .ok localHeaders =>
        let neededIds := diffHeaders localHeaders remoteHeaders.items
        if neededIds.isEmpty then (.ok latestTs, storage)
        else
          match fetchChunks peer now ourGroups (relayFn relayAcceptSet)
              (chunks engine.config.maxBatchSize neededIds) storage with
          | (.error e, left) => (.error e, left)
          | (.ok (), received) => (.ok latestTs, received)

end CordeliaCore.Replication
