import CordeliaCore.ApiEffect
import CordeliaCore.LoopEffect
import CordeliaCore.PushEffect
import CordeliaCore.Timestamps

set_option autoImplicit false

namespace CordeliaCore.ReplicaAgreement
open CryptoPrimitives ProtocolMessages StorageRows StorageSqlite KeyedTable Timestamps
open Replication ReplicationEngine ReplicationLoop SqliteStorage Swarm Api

structure SameReplica (a b : L2ItemRow) : Prop where
  itemType : a.itemType = b.itemType
  data : a.data = b.data
  checksum : a.checksum = b.checksum
  groupId : a.groupId = b.groupId
  authorId : a.authorId = b.authorId
  keyVersion : a.keyVersion = b.keyVersion
  parentId : a.parentId = b.parentId
  isCopy : a.isCopy = b.isCopy
  updatedAt : a.updatedAt = b.updatedAt

structure Receiver where
  now : String
  ourGroups : List String
  relayAccepts : Option (String → Bool)

section Replicas
variable [Sha256]

def Receiver.replica (r : Receiver) (items : List FetchedItem) (id : String) : Option L2ItemRow :=
  (receiveAll createNew r.now items r.ourGroups r.relayAccepts).l2Items.lookup id

theorem Receiver.replica_one (r : Receiver) {item : FetchedItem}
    (hadm : Admitted r.ourGroups r.relayAccepts item) (hwell : WellFormed item) :
    r.replica [item] item.itemId = some (receivedRow none r.now item) :=
  onReceive_lookup_of_writes createNew r.now item r.ourGroups r.relayAccepts
    ⟨hadm, hwell, fun e he => by cases he⟩

theorem Receiver.replica_none (r : Receiver) (itemId : String) : r.replica [] itemId = none := rfl

/-- Of two versions the later one stays, unless it has the checksum of the earlier. -/
theorem Receiver.replica_two (r : Receiver) {a b : FetchedItem} (hid : b.itemId = a.itemId)
    (ha : Admitted r.ourGroups r.relayAccepts a) (hb : Admitted r.ourGroups r.relayAccepts b)
    (hawell : WellFormed a) (hbwell : WellFormed b) (hlater : a.updatedAt < b.updatedAt) :
    (r.replica [a, b] a.itemId).map L2ItemRow.data =
      if a.checksum = b.checksum then some a.encryptedBlob else some b.encryptedBlob := by
  have hfirst : (onReceive createNew r.now a r.ourGroups r.relayAccepts).2.l2Items.lookup a.itemId =
      some (receivedRow none r.now a) := r.replica_one ha hawell
  have hsum : (receivedRow none r.now a).checksum = some a.checksum :=
    congrArg some (beq_iff_eq.mp hawell.1)
  have hwrites : Writes r.ourGroups r.relayAccepts b (some (receivedRow none r.now a)) ↔
      a.checksum ≠ b.checksum := by
    simp only [Writes, hb, hbwell, true_and, Option.mem_def, Option.some.injEq, forall_eq', Supersedes,
      hsum, ne_eq, and_iff_left_iff_imp]
    exact fun _ => hlater
  have herases : ¬ Erases r.ourGroups r.relayAccepts b := fun he => hbwell.not_tombstone he.2
  change (((onReceive (onReceive createNew r.now a r.ourGroups r.relayAccepts).2 r.now b r.ourGroups
    r.relayAccepts).2).l2Items.lookup a.itemId).map _ = _
  rw [onReceive_lookup, if_pos hid.symm, if_neg herases, hfirst]
  by_cases hsame : a.checksum = b.checksum
  · rw [if_pos hsame, if_neg (fun hw => hwrites.mp hw hsame)]
    rfl
  · rw [if_neg hsame, if_pos (hwrites.mpr hsame)]
    rfl

section Paths
variable [CultureJson] (node : AppState SqliteStorage) (authorization : Option String)
  (req : L2WriteRequest) (config : LoopConfig) (env : Surroundings) (w p : Instant)

def written : AppState SqliteStorage :=
  (l2Write { node with writeNotify := some [] } authorization w.datetime req).2

/-- What the replication task buffers for the notifications, at a time of its own. -/
def pushedItems : List FetchedItem :=
  let writer := written node authorization req w
  bufferedItems ((writer.writeNotify.getD []).foldl
    (receiveWrite config { env with utcNow := p.toRfc3339 }) (.start writer.storage))

def servedItems : List FetchedItem :=
  (handleFetchRequest (written node authorization req w).storage ⟨[req.itemId]⟩).items

def pushedItem (groupId : String) : FetchedItem :=
  writtenItem config { env with utcNow := p.toRfc3339 } (writeNotification (l2WriteOf node req)) groupId

def servedItem : FetchedItem :=
  fetchedItem (writtenRow { node with writeNotify := some [] } w.datetime req)

variable {node authorization req w}
variable (haccept : WriteAccepted { node with writeNotify := some [] } authorization w.datetime req)
include haccept

omit [CultureJson] in
theorem written_eq : written node authorization req w =
    withWritten { node with writeNotify := some [] } w.datetime req haccept.checks := by
  unfold written
  rw [l2Write_of_accepted haccept]

omit [CultureJson] in
theorem servedItems_eq : servedItems node authorization req w = [servedItem node req w] := by
  let row := writtenRow { node with writeNotify := some [] } w.datetime req
  have hrow : ∀ r ∈ [row], (written node authorization req w).storage.l2Items.lookup r.id = some r := by
    intro r hr
    rw [List.mem_singleton.mp hr, written_eq haccept, withWritten_lookup]
    exact if_pos rfl
  exact handleFetchRequest_rows (written node authorization req w).storage hrow

theorem pushedItems_eq {groupId : String} (hgroup : (l2WriteOf node req).groupId = some groupId)
    (heager : ((loadGroupCulture node.storage groupId).getD .default).strategy = .eagerPush) :
    pushedItems node authorization req config env w p = [pushedItem node req config env p groupId] := by
  have hqueue : Eager (.start (written node authorization req w).storage)
      (writeNotification (l2WriteOf node req)) groupId := by
    refine ⟨hgroup, haccept.size, ?_⟩
    rw [written_eq haccept]
    exact heager
  have hchannel : (written node authorization req w).writeNotify.getD [] =
      [writeNotification (l2WriteOf node req)] := by
    rw [written_eq haccept]
    rfl
  unfold pushedItems
  dsimp only
  rw [hchannel, List.foldl_cons, List.foldl_nil, receiveWrite_of_eager _ _ _ hqueue]
  rfl

omit [CultureJson] in
theorem servedItem_wellFormed : WellFormed (servedItem node req w) :=
  ⟨beq_self_eq_true _, haccept.checks.1⟩

omit [CultureJson] in
theorem pushedItem_wellFormed (groupId : String) :
    WellFormed (pushedItem node req config env p groupId) :=
  ⟨beq_self_eq_true _, haccept.checks.1⟩

/-- The replicas of one write never carry the same stamp. In the other fields they
    agree just when the request names no author but the node. -/
theorem replicas_differ {groupId : String} (hgroup : (l2WriteOf node req).groupId = some groupId)
    (heager : ((loadGroupCulture node.storage groupId).getD .default).strategy = .eagerPush)
    (r q : Receiver) (hr : groupAccepted r.ourGroups r.relayAccepts groupId = true)
    (hq : groupAccepted q.ourGroups q.relayAccepts groupId = true) :
    ∃ pushed served, r.replica (pushedItems node authorization req config env w p) req.itemId =
        some pushed ∧
      q.replica (servedItems node authorization req w) req.itemId = some served ∧
      ¬ SameReplica pushed served ∧
      (SameReplica { pushed with updatedAt := served.updatedAt } served ↔
        ((req.writeMeta.getD .default).authorId).getD node.entityId = config.engine.entityId) := by
  have hserved : (servedItem node req w).groupId = groupId := by
    change (l2WriteOf node req).groupId.getD "" = groupId
    rw [hgroup, Option.getD_some]
  have hauthor : (servedItem node req w).authorId =
      ((req.writeMeta.getD .default).authorId).getD node.entityId := by
    change ((req.writeMeta.getD .default).authorId.or (some node.entityId)).getD "" = _
    cases (req.writeMeta.getD .default).authorId <;> rfl
  rw [pushedItems_eq config env p haccept hgroup heager, servedItems_eq haccept]
  refine ⟨_, _, r.replica_one ⟨haccept.size, hr⟩ (pushedItem_wellFormed config env p haccept groupId),
    q.replica_one ⟨haccept.size, hserved ▸ hq⟩ (servedItem_wellFormed haccept), ?_, ?_⟩
  · intro hsame
    exact w.datetime_ne_toRfc3339 p hsame.updatedAt.symm
  · constructor
    · intro hsame
      have hboth : some config.engine.entityId = some (servedItem node req w).authorId :=
        hsame.authorId
      rw [← hauthor, Option.some.inj hboth]
    · intro hnode
      refine ⟨rfl, rfl, rfl, ?_, ?_, rfl, rfl, rfl, rfl⟩
      · change some groupId = some (servedItem node req w).groupId
        rw [hserved]
      · change some config.engine.entityId = some (servedItem node req w).authorId
        rw [hauthor, hnode]

end Paths
end Replicas

section Example

def chattyNode : AppState SqliteStorage :=
  apiState (createNew.writeGroup "2026-02-01 00:00:00" "seed-drill" "Seed Drill" "chatty" "{}")

def noteBy (author : Option String) : L2WriteRequest :=
  { noteRequest with
    writeMeta := some { L2WriteMeta.default with groupId := some "seed-drill", authorId := author } }

def member : Receiver := ⟨"2026-02-02 00:00:00", ["seed-drill"], none⟩

theorem noteBy_accepted [Sha256] (author : Option String) :
    WriteAccepted { chattyNode with writeNotify := some [] } (some "Bearer token")
      Instant.tenOClock.datetime (noteBy author) :=
  ⟨apiState_auth _, (by decide : (asBytes "\"a\"").length ≤ maxItemBytes),
    (by decide : "learning" ∈ l2ItemTypes), (by decide : "private" ∈ l2Visibilities)⟩

/-- The node pushes the note as its own and serves it as that of its author. -/
theorem note_of_another_author_differs :
    let := knownDigests
    let := bareCultures
    ∃ pushed served,
      member.replica (pushedItems chattyNode (some "Bearer token") (noteBy (some "bob"))
        memberConfig quietSurroundings .tenOClock .tenOClock) "note-1" = some pushed ∧
      member.replica (servedItems chattyNode (some "Bearer token") (noteBy (some "bob"))
        .tenOClock) "note-1" = some served ∧
      pushed.authorId = some "russell" ∧ served.authorId = some "bob" ∧
      pushed.updatedAt ≠ served.updatedAt := by
  intro _ _
  have haccept := noteBy_accepted (some "bob")
  have hgroup : groupAccepted member.ourGroups member.relayAccepts "seed-drill" = true := by decide
  have hsize : (asBytes "\"a\"").length ≤ maxItemBytes := by decide
  rw [pushedItems_eq memberConfig quietSurroundings .tenOClock haccept rfl (by decide),
    servedItems_eq haccept]
  refine ⟨_, _, member.replica_one ⟨hsize, hgroup⟩ (pushedItem_wellFormed _ _ _ haccept _),
    member.replica_one ⟨hsize, hgroup⟩ (servedItem_wellFormed haccept), rfl, rfl, ?_⟩
  exact (Instant.datetime_ne_toRfc3339 .tenOClock .tenOClock).symm

theorem note_of_the_node_differs :
    let := knownDigests
    let := bareCultures
    ∃ pushed served,
      member.replica (pushedItems chattyNode (some "Bearer token") (noteBy none)
        memberConfig quietSurroundings .tenOClock .tenOClock) "note-1" = some pushed ∧
      member.replica (servedItems chattyNode (some "Bearer token") (noteBy none)
        .tenOClock) "note-1" = some served ∧
      ¬ SameReplica pushed served := by
  intro _ _
  have hgroup : groupAccepted member.ourGroups member.relayAccepts "seed-drill" = true := by decide
  obtain ⟨pushed, served, hpushed, hserved, hdiffer, _⟩ := replicas_differ memberConfig
    quietSurroundings .tenOClock (noteBy_accepted none) rfl (by decide) member member hgroup hgroup
  exact ⟨pushed, served, hpushed, hserved, hdiffer⟩

end Example
end CordeliaCore.ReplicaAgreement
