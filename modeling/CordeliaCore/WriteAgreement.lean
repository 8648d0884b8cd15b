import CordeliaCore.ConcurrentWrites
import CordeliaCore.ReplicaAgreement

set_option autoImplicit false

namespace CordeliaCore.ConcurrentWrites
open CryptoPrimitives ProtocolMessages StorageRows StorageSqlite Timestamps StepRuns
open Replication ReplicationEngine ReplicationLoop SqliteStorage Api ReplicaAgreement

section Replication
variable [Sha256] [CultureJson] (config : LoopConfig) (env : Surroundings)

/-- What the replication task buffers for the notifications in the channel, each at its
    own time. -/
def dispatched (times : List Instant) (writer : AppState SqliteStorage) : List FetchedItem :=
  bufferedItems (((writer.writeNotify.getD []).zip times).foldl
    (fun s d => receiveWrite config { env with utcNow := d.2.toRfc3339 } s d.1)
    (.start writer.storage))

def dispatchedItem (groupId : String) (d : WriteNotification × Instant) : FetchedItem :=
  writtenItem config { env with utcNow := d.2.toRfc3339 } d.1 groupId

theorem foldl_receiveWrite (groupId : String) (ds : List (WriteNotification × Instant))
    (s : LoopState SqliteStorage)
    (hbuffer : s.writeBuffer = [] ∨ ∃ items, s.writeBuffer = [(groupId, items)])
    (heager : ∀ d ∈ ds, Eager s d.1 groupId) :
    bufferedItems (ds.foldl
      (fun s d => receiveWrite config { env with utcNow := d.2.toRfc3339 } s d.1) s) =
        bufferedItems s ++ ds.map (dispatchedItem config env groupId) := by
  induction ds generalizing s with
  | nil => simp
  | cons d ds ih =>
    rw [List.foldl_cons, receiveWrite_of_eager _ _ _ (heager d (by simp)), ih]
    · rcases hbuffer with hempty | ⟨items, hone⟩
      · simp [bufferedItems, hempty, pushBuffered, dispatchedItem]
      · simp [bufferedItems, hone, pushBuffered, dispatchedItem]
    · right
      rcases hbuffer with hempty | ⟨items, hone⟩
      · simp [hempty, pushBuffered]
      · simp [hone, pushBuffered]
    · exact fun later hlater => heager later (List.mem_cons_of_mem d hlater)

end Replication

section Pair

inductive Request where
  | first
  | second
deriving DecidableEq

/-- The second request to store is the first to notify. -/
def Overtaken (schedule : List Request) : Prop :=
  ∃ a b, a ≠ b ∧ [a, b, b] <+: schedule

theorem eq_singleton_of_count {requests : List Request} {a b : Request} (hab : a ≠ b)
    (ha : requests.count a = 0) (hb : requests.count b = 1) : requests = [b] := by
  have hall : ∀ x ∈ requests, x = b := by
    intro x hx
    have hxa : x ≠ a := fun h => List.count_eq_zero.mp ha (h ▸ hx)
    cases x <;> cases a <;> cases b <;> simp_all
  have hreplicate := List.eq_replicate_of_mem hall
  rw [hreplicate, List.count_replicate_self] at hb
  rw [hreplicate, hb]
  rfl

theorem turns_of_waiting {turn : ℕ} {past : Request → ℕ} {schedule : List Request} {a b : Request}
    (hab : a ≠ b) (ha : turn < past a) (hb : past b ≤ turn)
    (hcount : turn < past b + schedule.count b) : turns turn past schedule = [b] := by
  apply eq_singleton_of_count hab
  · rw [count_turns, if_neg (by omega)]
  · rw [count_turns, if_pos ⟨hb, hcount⟩]

theorem overtaken_cons (a b c : Request) (schedule : List Request) :
    Overtaken (a :: b :: c :: schedule) ↔ a ≠ b ∧ b = c := by
  unfold Overtaken
  simp only [List.cons_prefix_cons, List.nil_prefix, and_true]
  constructor
  · rintro ⟨x, y, hxy, rfl, rfl, rfl⟩
    exact ⟨hxy, rfl⟩
  · rintro ⟨hab, rfl⟩
    exact ⟨a, b, hab, rfl, rfl, rfl⟩

theorem exists_other (a : Request) : ∃ b, a ≠ b := by
  cases a with
  | first => exact ⟨.second, by decide⟩
  | second => exact ⟨.first, by decide⟩

theorem eq_of_ne {a b c : Request} (hab : a ≠ b) (hac : a ≠ c) : c = b := by
  cases a <;> cases b <;> cases c <;> simp_all

theorem count_add_count (schedule : List Request) :
    schedule.count .first + schedule.count .second = schedule.length := by
  induction schedule with
  | nil => rfl
  | cons a schedule ih =>
    cases a <;> simp [← ih] <;> omega

section Orders
variable {schedule : List Request} {a b : Request}

theorem turns_of_leader (hab : a ≠ b) (hb : b ∈ schedule) :
    turns 0 (fun _ => 0) (a :: schedule) = [a, b] := by
  have hba : b ≠ a := hab.symm
  rw [turns_of_eq (by simp), turns_of_waiting hab]
  · simp
  · simp [hba]
  · simpa [hba] using hb

/-- The leader notifies before the other one stores. -/
theorem sends_of_repeat (hab : a ≠ b) (hb : 2 ≤ schedule.count b) :
    turns 1 (fun _ => 0) (a :: a :: schedule) = [a, b] := by
  have hba : b ≠ a := hab.symm
  rw [turns_of_ne (by simp), turns_of_eq (by simp), turns_of_waiting hab]
  · simp
  · simp [hba]
  · simp [hba]
    omega

/-- Both have stored and the leader notifies first. -/
theorem sends_of_return (hab : a ≠ b) (hb : b ∈ schedule) :
    turns 1 (fun _ => 0) (a :: b :: a :: schedule) = [a, b] := by
  have hba : b ≠ a := hab.symm
  rw [turns_of_ne (by simp), turns_of_ne (by simp [hba]), turns_of_eq (by simp [hab]),
    turns_of_waiting hab]
  · simp [hab]
  · simp [hba]
  · simpa [hba] using hb

/-- Both have stored and the leader is overtaken. -/
theorem sends_of_overtaking (hab : a ≠ b) (ha : a ∈ schedule) :
    turns 1 (fun _ => 0) (a :: b :: b :: schedule) = [b, a] := by
  have hba : b ≠ a := hab.symm
  rw [turns_of_ne (by simp), turns_of_ne (by simp [hba]), turns_of_eq (by simp [hba]),
    turns_of_waiting hba]
  · simp
  · simp [hab]
  · simpa [hab] using ha

end Orders

/-- Two requests that are answered store in some order, and notify in the same order
    unless one overtakes the other. -/
theorem turns_of_two {schedule : List Request} (h : ∀ i, 2 ≤ schedule.count i) :
    ∃ a b, a ≠ b ∧ turns 0 (fun _ => 0) schedule = [a, b] ∧
      (Overtaken schedule ∧ turns 1 (fun _ => 0) schedule = [b, a] ∨
        ¬ Overtaken schedule ∧ turns 1 (fun _ => 0) schedule = [a, b]) := by
  have hlength := count_add_count schedule
  have hfirst := h .first
  have hsecond := h .second
  match schedule, hlength with
  | [], hlength | [a], hlength | [a, x], hlength =>
    simp only [List.length_cons, List.length_nil] at hlength
    omega
  | a :: x :: y :: schedule, _ =>
    obtain ⟨b, hab⟩ := exists_other a
    have hba : b ≠ a := hab.symm
    have ha := h a
    have hb := h b
    rw [List.count_cons_of_ne hab] at hb
    refine ⟨a, b, hab, turns_of_leader hab (List.count_pos_iff.mp (by omega)), ?_⟩
    rw [overtaken_cons]
    by_cases hx : a = x
    · subst hx
      rw [List.count_cons_of_ne hab] at hb
      exact .inr ⟨by simp, sends_of_repeat hab hb⟩
    · have hxb : x = b := eq_of_ne hab hx
      subst hxb
      by_cases hy : a = y
      · subst hy
        rw [List.count_cons_self, List.count_cons_of_ne hab] at hb
        exact .inr ⟨by simp [hba], sends_of_return hab (List.count_pos_iff.mp (by omega))⟩
      · have hyx : y = x := eq_of_ne hab hy
        subst hyx
        rw [List.count_cons_self, List.count_cons_of_ne hba, List.count_cons_of_ne hba] at ha
        exact .inl ⟨⟨hab, rfl⟩, sends_of_overtaking hab (List.count_pos_iff.mp (by omega))⟩

end Pair

section Agreement
variable [Sha256] [CultureJson] (config : LoopConfig) (env : Surroundings)
  (node : AppState SqliteStorage) (calls : Request → WriteCall) (itemId groupId : String)

def writer (schedule : List Request) : AppState SqliteStorage :=
  (run (advance calls) (arrived node) schedule).app

/-- The peer holds the data that the node holds. -/
def Agrees (schedule : List Request) (p q : Instant) (r : Receiver) : Prop :=
  (r.replica (dispatched config env [p, q] (writer node calls schedule)) itemId).map
    L2ItemRow.data = dataOf (writer node calls schedule) itemId

/-- One request is stored, or the id is new; and of two that are stored the later one to be
    stored is the later one to be announced, unless they carry the same data. Data of equal
    checksums that differ are kept as they arrive first. -/
def InStep (schedule : List Request) : Prop :=
  ((∃ i, accepts node (calls i) = true) ∨ node.storage.l2Items.lookup itemId = none) ∧
    ((∀ i, accepts node (calls i) = true) →
      (calls .first).req.data = (calls .second).req.data ∨
        (Replication.checksum (calls .first).req.data =
          Replication.checksum (calls .second).req.data ↔ Overtaken schedule))

variable {node calls itemId groupId} {schedule : List Request}

omit [CultureJson] in
theorem writer_channel : (writer node calls schedule).writeNotify =
    some (((turns 1 (fun _ => 0) schedule).filter (fun i => accepts node (calls i))).map
      (fun i => notification node (calls i))) := by
  rw [writer, run_channel (tracks_arrived node calls) schedule]
  rfl

omit [CultureJson] in
theorem writer_data (hitem : ∀ i, (calls i).req.itemId = itemId) :
    dataOf (writer node calls schedule) itemId =
      ((((turns 0 (fun _ => 0) schedule).filter (fun i => accepts node (calls i))).map
        (fun i => (calls i).req.data)).getLast?).or (dataOf node itemId) :=
  run_data (tracks_arrived node calls) hitem schedule

omit [CultureJson] in
theorem two_le_count {i : Request} (haccepts : accepts node (calls i) = true)
    (hanswered : (run (advance calls) (arrived node) schedule).phase i = .answered) :
    2 ≤ schedule.count i := by
  rw [(tracks_run (tracks_arrived node calls) schedule).phase i, Nat.zero_add] at hanswered
  match hcount : schedule.count i with
  | 0 => simp [hcount, phaseAfter] at hanswered
  | 1 => simp [hcount, phaseAfter, haccepts] at hanswered
  | n + 2 => omega

theorem dispatched_writer (hgroup : ∀ i, (l2WriteOf node (calls i).req).groupId = some groupId)
    (hchatty : (loadGroupCulture node.storage groupId).getD .default = ⟨"chatty"⟩)
    (times : List Instant) : dispatched config env times (writer node calls schedule) =
      (((((turns 1 (fun _ => 0) schedule).filter (fun i => accepts node (calls i))).map
        (fun i => notification node (calls i)))).zip times).map (dispatchedItem config env groupId) := by
  have hgroups : (writer node calls schedule).storage.groups = node.storage.groups :=
    (tracks_run (tracks_arrived node calls) schedule).groups
  have hculture : loadGroupCulture (writer node calls schedule).storage groupId =
      loadGroupCulture node.storage groupId := by
    simp only [loadGroupCulture, readGroup_ok, hgroups]
  unfold dispatched
  rw [writer_channel, foldl_receiveWrite config env groupId _ _ (.inl rfl)]
  · rfl
  · rintro ⟨notif, time⟩ hmem
    obtain ⟨i, hi, rfl⟩ := List.mem_map.mp (List.of_mem_zip hmem).1
    obtain ⟨-, hsize, -, -⟩ := of_decide_eq_true (List.mem_filter.mp hi).2
    refine ⟨hgroup i, hsize, ?_⟩
    change ((loadGroupCulture (writer node calls schedule).storage groupId).getD .default).strategy = _
    rw [hculture, hchatty]
    rfl

omit [CultureJson] in
theorem dispatchedItem_valid {i : Request} (haccepts : accepts node (calls i) = true)
    {r : Receiver} (hpeer : groupAccepted r.ourGroups r.relayAccepts groupId = true) (time : Instant) :
    Admitted r.ourGroups r.relayAccepts
        (dispatchedItem config env groupId (notification node (calls i), time)) ∧
      WellFormed (dispatchedItem config env groupId (notification node (calls i), time)) := by
  obtain ⟨-, hsize, htype, -⟩ := of_decide_eq_true haccepts
  exact ⟨⟨hsize, hpeer⟩, beq_self_eq_true _, htype⟩

omit [CultureJson] in
theorem replica_of_dispatched (hitem : ∀ i, (calls i).req.itemId = itemId) {p q : Instant}
    {r : Receiver} (hpeer : groupAccepted r.ourGroups r.relayAccepts groupId = true) {x y : Request}
    (hx : accepts node (calls x) = true) (hy : accepts node (calls y) = true)
    (htimes : p.nanos < q.nanos) :
    (r.replica [dispatchedItem config env groupId (notification node (calls x), p),
      dispatchedItem config env groupId (notification node (calls y), q)] itemId).map
        L2ItemRow.data =
      if Replication.checksum (calls x).req.data = Replication.checksum (calls y).req.data then
        some (calls x).req.data else some (calls y).req.data := by
  obtain ⟨hxadmitted, hxwell⟩ := dispatchedItem_valid config env hx hpeer p
  obtain ⟨hyadmitted, hywell⟩ := dispatchedItem_valid config env hy hpeer q
  have hid : (dispatchedItem config env groupId (notification node (calls x), p)).itemId = itemId :=
    hitem x
  have htwo := r.replica_two ((hitem y).trans (hitem x).symm) hxadmitted hyadmitted hxwell hywell
    ((p.toRfc3339_lt_iff q).mpr htimes)
  rw [hid] at htwo
  exact htwo

section Cases
variable (hitem : ∀ i, (calls i).req.itemId = itemId)
  (hgroup : ∀ i, (l2WriteOf node (calls i).req).groupId = some groupId)
  (hchatty : (loadGroupCulture node.storage groupId).getD .default = ⟨"chatty"⟩)
  {p q : Instant} {r : Receiver}
  (hpeer : groupAccepted r.ourGroups r.relayAccepts groupId = true)
include hitem hgroup hchatty

theorem agrees_of_none (hnone : ∀ i, accepts node (calls i) = false) :
    Agrees config env node calls itemId schedule p q r ↔
      node.storage.l2Items.lookup itemId = none := by
  unfold Agrees
  rw [dispatched_writer config env hgroup hchatty, writer_data hitem]
  simp [hnone, Receiver.replica_none, dataOf, eq_comm]

include hpeer

theorem agrees_of_one {a b : Request} (hab : a ≠ b) (ha : accepts node (calls a) = true)
    (hb : accepts node (calls b) = false) (hcount : 2 ≤ schedule.count a) :
    Agrees config env node calls itemId schedule p q r := by
  have honly : ∀ turn < 2, (turns turn (fun _ => 0) schedule).filter
      (fun i => accepts node (calls i)) = [a] := by
    intro turn hturn
    apply eq_singleton_of_count hab.symm
    · simp [List.count_eq_zero, hb]
    · rw [List.count_filter (p := fun i => accepts node (calls i)) ha, count_turns, if_pos (by omega)]
  obtain ⟨hadmitted, hwell⟩ := dispatchedItem_valid config env ha hpeer p
  have hid : (dispatchedItem config env groupId (notification node (calls a), p)).itemId = itemId :=
    hitem a
  have hreplica := r.replica_one hadmitted hwell
  rw [hid] at hreplica
  unfold Agrees
  rw [dispatched_writer config env hgroup hchatty, writer_data hitem, honly 0 (by decide),
    honly 1 (by decide)]
  simp only [List.map_cons, List.map_nil, List.zip_cons_cons, List.zip_nil_left, hreplica]
  rfl

theorem agrees_of_both (hboth : ∀ i, accepts node (calls i) = true)
    (hcount : ∀ i, 2 ≤ schedule.count i) (htimes : p.nanos < q.nanos) :
    Agrees config env node calls itemId schedule p q r ↔
      (calls .first).req.data = (calls .second).req.data ∨
        (Replication.checksum (calls .first).req.data =
          Replication.checksum (calls .second).req.data ↔ Overtaken schedule) := by
  have hfilter : ∀ requests : List Request,
      requests.filter (fun i => accepts node (calls i)) = requests :=
    fun requests => List.filter_eq_self.mpr (fun i _ => hboth i)
  have hreplica : ∀ x y : Request, _ :=
    fun x y => replica_of_dispatched config env hitem hpeer (hboth x) (hboth y) htimes
  obtain ⟨a, b, hab, hstores, hsends⟩ := turns_of_two hcount
  have hsymm : ∀ {α : Type} (f : Request → α), f .first = f .second ↔ f a = f b := by
    intro α f
    cases a <;> cases b <;> first | exact absurd rfl hab | simp [eq_comm]
  rw [hsymm (fun i => (calls i).req.data), hsymm (fun i => Replication.checksum (calls i).req.data)]
  unfold Agrees
  rw [dispatched_writer config env hgroup hchatty, writer_data hitem, hfilter, hfilter, hstores]
  rcases hsends with ⟨hovertaken, hsends⟩ | ⟨hordered, hsends⟩
  · rw [hsends]
    simp only [List.map_cons, List.map_nil, List.zip_cons_cons, List.zip_nil_left, hreplica,
      hovertaken, iff_true]
    by_cases hsum : Replication.checksum (calls a).req.data = Replication.checksum (calls b).req.data
    · simp [hsum]
    · simp [hsum, Ne.symm hsum]
  · rw [hsends]
    simp only [List.map_cons, List.map_nil, List.zip_cons_cons, List.zip_nil_left, hreplica,
      hordered, iff_false]
    by_cases hsum : Replication.checksum (calls a).req.data = Replication.checksum (calls b).req.data
    · simp [hsum]
    · simp [hsum]

end Cases

/-- Two requests for one item in one chatty group, in any interleaving: a peer with an empty
    store ends with the data that the node holds just when the two are in step. -/
theorem concurrent_writes_agree_iff (hitem : ∀ i, (calls i).req.itemId = itemId)
    (hgroup : ∀ i, (l2WriteOf node (calls i).req).groupId = some groupId)
    (hchatty : (loadGroupCulture node.storage groupId).getD .default = ⟨"chatty"⟩)
    (hanswered : ∀ i, (run (advance calls) (arrived node) schedule).phase i = .answered)
    {p q : Instant} (htimes : p.nanos < q.nanos) {r : Receiver}
    (hpeer : groupAccepted r.ourGroups r.relayAccepts groupId = true) :
    Agrees config env node calls itemId schedule p q r ↔ InStep node calls itemId schedule := by
  have hcount : ∀ i, accepts node (calls i) = true → 2 ≤ schedule.count i :=
    fun i haccepts => two_le_count haccepts (hanswered i)
  unfold InStep
  by_cases hboth : ∀ i, accepts node (calls i) = true
  · rw [agrees_of_both config env hitem hgroup hchatty hpeer hboth (fun i => hcount i (hboth i)) htimes]
    exact ⟨fun h => ⟨.inl ⟨.first, hboth .first⟩, fun _ => h⟩, fun h => h.2 hboth⟩
  · by_cases hone : ∃ i, accepts node (calls i) = true
    · obtain ⟨a, ha⟩ := hone
      obtain ⟨b, hb⟩ := not_forall.mp hboth
      have hab : a ≠ b := fun hab => hb (hab ▸ ha)
      rw [Bool.not_eq_true] at hb
      refine iff_of_true (agrees_of_one config env hitem hgroup hchatty hpeer hab ha hb (hcount a ha)) ?_
      exact ⟨.inl ⟨a, ha⟩, fun hall => absurd hall hboth⟩
    · have hnone : ∀ i, accepts node (calls i) = false := by simpa using hone
      rw [agrees_of_none config env hitem hgroup hchatty hnone]
      exact ⟨fun h => ⟨.inr h, fun hall => absurd hall hboth⟩, fun h => h.1.resolve_left hone⟩

end Agreement

section Example

def twoNotes : Request → WriteCall
  | .first => ⟨some "Bearer token", "2026-02-01 10:00:00", { noteBy none with data := asBytes "\"a\"" }⟩
  | .second => ⟨some "Bearer token", "2026-02-01 10:00:00", { noteBy none with data := asBytes "\"b\"" }⟩

def aSecondLater : Instant := .ofUnix 1769940001 (by decide)

theorem twoNotes_accepted [Sha256] (i : Request) : accepts chattyNode (twoNotes i) = true := by
  cases i <;> decide

theorem twoNotes_answered [Sha256] (i : Request) {schedule : List Request}
    (h : 2 ≤ schedule.count i) :
    (run (advance twoNotes) (arrived chattyNode) schedule).phase i = .answered := by
  rw [(tracks_run (tracks_arrived chattyNode twoNotes) schedule).phase i, Nat.zero_add]
  obtain ⟨turns, hturns⟩ := Nat.exists_eq_add_of_le' h
  rw [hturns]
  rfl

theorem twoNotes_item (i : Request) : (twoNotes i).req.itemId = "note-1" := by
  cases i <;> rfl

theorem twoNotes_group (i : Request) :
    (l2WriteOf chattyNode (twoNotes i).req).groupId = some "seed-drill" := by
  cases i <;> rfl

theorem twoNotes_differ : (twoNotes .first).req.data ≠ (twoNotes .second).req.data := by decide

theorem twoNotes_checksums : @Replication.checksum knownDigests (twoNotes .first).req.data ≠
    @Replication.checksum knownDigests (twoNotes .second).req.data := by
  decide +kernel

/-- The first client's note is stored first and announced last: the node holds the second
    version and its peer the first. -/
theorem overtaken_note_differs :
    let := knownDigests
    let := bareCultures
    (∀ i, (run (advance twoNotes) (arrived chattyNode)
      [.first, .second, .second, .first]).phase i = .answered) ∧
    ¬ Agrees memberConfig quietSurroundings chattyNode twoNotes "note-1"
      [.first, .second, .second, .first] .tenOClock aSecondLater member := by
  intro _ _
  have hcount : ∀ i, 2 ≤ [Request.first, .second, .second, .first].count i := by
    intro i
    cases i <;> decide
  have hchatty : (loadGroupCulture chattyNode.storage "seed-drill").getD .default = ⟨"chatty"⟩ := by
    decide
  have hpeer : groupAccepted member.ourGroups member.relayAccepts "seed-drill" = true := by decide
  refine ⟨fun i => twoNotes_answered i (hcount i), ?_⟩
  rw [agrees_of_both memberConfig quietSurroundings twoNotes_item twoNotes_group hchatty hpeer
    twoNotes_accepted hcount (by decide), overtaken_cons]
  simp [twoNotes_differ, twoNotes_checksums]

/-- One after the other, the two requests leave the peer with what the node holds. -/
theorem notes_in_turn_agree :
    let := knownDigests
    let := bareCultures
    Agrees memberConfig quietSurroundings chattyNode twoNotes "note-1"
      [.first, .first, .second, .second] .tenOClock aSecondLater member := by
  intro _ _
  have hcount : ∀ i, 2 ≤ [Request.first, .first, .second, .second].count i := by
    intro i
    cases i <;> decide
  have hchatty : (loadGroupCulture chattyNode.storage "seed-drill").getD .default = ⟨"chatty"⟩ := by
    decide
  have hpeer : groupAccepted member.ourGroups member.relayAccepts "seed-drill" = true := by decide
  apply (concurrent_writes_agree_iff memberConfig quietSurroundings twoNotes_item twoNotes_group
    hchatty (fun i => twoNotes_answered i (hcount i)) (by decide) hpeer).mpr
  refine ⟨.inl ⟨.first, twoNotes_accepted .first⟩, fun _ => .inr ?_⟩
  rw [overtaken_cons]
  simp [twoNotes_checksums]

end Example
end CordeliaCore.ConcurrentWrites
