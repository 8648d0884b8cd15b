import CordeliaCore.ApiEffect
import CordeliaCore.StepRuns
import Mathlib.Logic.Function.Basic

set_option autoImplicit false

namespace CordeliaCore.ConcurrentWrites
open CryptoPrimitives ProtocolMessages StorageRows StorageSqlite SqliteStorage Api StepRuns

structure WriteCall where
  authorization : Option String
  now : String
  req : L2WriteRequest

inductive Phase where
  | received
  | stored (notification : WriteNotification)
  | answered

section Handlers
variable {ι : Type} [DecidableEq ι] {σ : Type} [Storage σ]

/-- `l2_write` up to its notification, which it gives if the row is stored. -/
def storeWrite (state : AppState σ) (call : WriteCall) : Option WriteNotification × AppState σ :=
  match checkAuth state call.authorization with
  | some _ => (none, state)
  | none =>
    if call.req.data.length > maxItemBytes then (none, state)
    else
      let write := l2WriteOf state call.req
      match Storage.writeL2Item state.storage call.now write with
      | .ok written => (some (writeNotification write), { state with storage := written })
      | .error _ => (none, state)

/-- The two parts of the handler, without a pause, are `l2_write`. -/
theorem l2Write_eq (state : AppState σ) (call : WriteCall) :
    (l2Write state call.authorization call.now call.req).2 =
      match storeWrite state call with
      | (some notification, stored) => notifyWrite stored notification
      | (none, stored) => stored := by
  unfold l2Write storeWrite
  cases checkAuth state call.authorization with
  | some refused => rfl
  | none =>
    by_cases hsize : call.req.data.length > maxItemBytes
    · simp [hsize]
    · cases hwrite : Storage.writeL2Item state.storage call.now (l2WriteOf state call.req) with
      | ok written => simp [hsize, hwrite]
      | error e => simp [hsize, hwrite]

structure Handlers (ι σ : Type) where
  app : AppState σ
  phase : ι → Phase

def advance (calls : ι → WriteCall) (h : Handlers ι σ) (i : ι) : Handlers ι σ :=
  match h.phase i with
  | .received =>
    match storeWrite h.app (calls i) with
    | (some notification, app) => ⟨app, Function.update h.phase i (.stored notification)⟩
    | (none, app) => ⟨app, Function.update h.phase i .answered⟩
  | .stored notification => ⟨notifyWrite h.app notification, Function.update h.phase i .answered⟩
  | .answered => h

/-- All requests have arrived and nothing waits in the channel. -/
def arrived (node : AppState σ) : Handlers ι σ :=
  ⟨{ node with writeNotify := some [] }, fun _ => .received⟩

end Handlers

section Effects
variable [Sha256]

def visibilityOf (req : L2WriteRequest) : String :=
  ((req.writeMeta.getD .default).visibility).getD "private"

def accepts (node : AppState SqliteStorage) (call : WriteCall) : Bool :=
  checkAuth node call.authorization = none ∧ call.req.data.length ≤ maxItemBytes ∧
    call.req.itemType ∈ l2ItemTypes ∧ visibilityOf call.req ∈ l2Visibilities

omit [Sha256] in
theorem accepts_congr {node state : AppState SqliteStorage}
    (h : state.bearerToken = node.bearerToken) (call : WriteCall) :
    accepts state call = accepts node call := by
  unfold accepts checkAuth
  rw [h]

def notification (node : AppState SqliteStorage) (call : WriteCall) : WriteNotification :=
  writeNotification (l2WriteOf node call.req)

def withRow (state : AppState SqliteStorage) (call : WriteCall)
    (h : L2Checks (writtenRow state call.now call.req)) : AppState SqliteStorage :=
  { state with storage := { state.storage with
      l2Items := state.storage.l2Items.put (writtenRow state call.now call.req) h } }

theorem storeWrite_of_accepts {state : AppState SqliteStorage} {call : WriteCall}
    (h : accepts state call = true) :
    ∃ hchecks : L2Checks (writtenRow state call.now call.req),
      storeWrite state call = (some (notification state call), withRow state call hchecks) := by
  obtain ⟨hauth, hsize, htype, hvisibility⟩ := of_decide_eq_true h
  refine ⟨⟨htype, hvisibility⟩, ?_⟩
  unfold storeWrite
  simp only [hauth, not_lt.mpr hsize, if_false]
  rw [writeL2Item_ok state.storage call.now (l2WriteOf state call.req) ⟨htype, hvisibility⟩]
  rfl

theorem storeWrite_of_refuses {state : AppState SqliteStorage} {call : WriteCall}
    (h : accepts state call = false) : storeWrite state call = (none, state) := by
  have hrefused := of_decide_eq_false h
  unfold storeWrite
  cases hauth : checkAuth state call.authorization with
  | some refused => rfl
  | none =>
    by_cases hsize : call.req.data.length > maxItemBytes
    · simp [hsize]
    · have hchecks : ¬ L2Checks (writtenRow state call.now call.req) :=
        fun hc => hrefused ⟨hauth, not_lt.mp hsize, hc.1, hc.2⟩
      simp only [hsize, if_false]
      rw [writeL2Item_error state.storage call.now (l2WriteOf state call.req) hchecks]

variable {ι : Type} [DecidableEq ι] (node : AppState SqliteStorage) (calls : ι → WriteCall)

def phaseAfter (call : WriteCall) : ℕ → Phase
  | 0 => .received
  | 1 => if accepts node call then .stored (notification node call) else .answered
  | _ + 2 => .answered

structure Tracks (past : ι → ℕ) (h : Handlers ι SqliteStorage) : Prop where
  token : h.app.bearerToken = node.bearerToken
  groups : h.app.storage.groups = node.storage.groups
  phase : ∀ i, h.phase i = phaseAfter node (calls i) (past i)

def dataOf (app : AppState SqliteStorage) (itemId : String) : Option Bytes :=
  (app.storage.l2Items.lookup itemId).map L2ItemRow.data

inductive Turn (h : Handlers ι SqliteStorage) (past : ι → ℕ) (i : ι)
    (app : AppState SqliteStorage) : Prop where
  | store (hturn : past i = 0) (haccepts : accepts node (calls i) = true)
      (hchecks : L2Checks (writtenRow h.app (calls i).now (calls i).req))
      (happ : app = withRow h.app (calls i) hchecks)
  | send (hturn : past i = 1) (haccepts : accepts node (calls i) = true)
      (happ : app = notifyWrite h.app (notification node (calls i)))
  | idle (hturn : accepts node (calls i) = true → past i ≠ 0 ∧ past i ≠ 1) (happ : app = h.app)

variable {node calls} {past : ι → ℕ} {h : Handlers ι SqliteStorage}

theorem advance_turn (htracks : Tracks node calls past h) (i : ι) :
    Turn node calls h past i (advance calls h i).app ∧ (advance calls h i).phase =
      Function.update h.phase i (phaseAfter node (calls i) (past i + 1)) := by
  have hphase := htracks.phase i
  have haccepts := accepts_congr htracks.token (calls i)
  have hidle : h.phase i = .answered → h.phase = Function.update h.phase i .answered :=
    fun hi => by rw [← hi, Function.update_eq_self]
  unfold advance
  cases hcall : accepts node (calls i) with
  | false =>
    have hnone := storeWrite_of_refuses (haccepts.trans hcall)
    rcases hpast : past i with _ | _ | turn
    all_goals
      rw [hpast] at hphase
      simp only [phaseAfter, hcall, Bool.false_eq_true, if_false] at hphase
      simp only [hphase, hnone, phaseAfter, hcall, Bool.false_eq_true, if_false]
    · exact ⟨.idle (by simp [hcall]) rfl, trivial⟩
    · exact ⟨.idle (by simp [hcall]) rfl, hidle hphase⟩
    · exact ⟨.idle (by simp [hcall]) rfl, hidle hphase⟩
  | true =>
    obtain ⟨hchecks, hstore⟩ := storeWrite_of_accepts (haccepts.trans hcall)
    rcases hpast : past i with _ | _ | turn
    all_goals
      rw [hpast] at hphase
      simp only [phaseAfter, hcall, if_true] at hphase
      simp only [hphase, hstore, phaseAfter, hcall, if_true]
    · exact ⟨.store hpast hcall hchecks rfl, rfl⟩
    · exact ⟨.send hpast hcall rfl, trivial⟩
    · exact ⟨.idle (by simp [hpast]) rfl, hidle hphase⟩

theorem tracks_advance (htracks : Tracks node calls past h) (i : ι) :
    Tracks node calls (Function.update past i (past i + 1)) (advance calls h i) := by
  obtain ⟨hturn, hphase⟩ := advance_turn htracks i
  refine ⟨?_, ?_, fun j => ?_⟩
  · rcases hturn with ⟨-, -, hchecks, happ⟩ | ⟨-, -, happ⟩ | ⟨-, happ⟩
    all_goals
      rw [happ]
      exact htracks.token
  · rcases hturn with ⟨-, -, hchecks, happ⟩ | ⟨-, -, happ⟩ | ⟨-, happ⟩
    all_goals
      rw [happ]
      exact htracks.groups
  · rw [hphase]
    by_cases hji : j = i
    · subst hji
      rw [Function.update_self, Function.update_self]
    · rw [Function.update_of_ne hji, Function.update_of_ne hji]
      exact htracks.phase j

theorem advance_channel (htracks : Tracks node calls past h) (i : ι) :
    (advance calls h i).app.writeNotify = h.app.writeNotify.map (· ++
      if past i = 1 ∧ accepts node (calls i) = true then [notification node (calls i)] else []) := by
  cases (advance_turn htracks i).1 with
  | store hturn haccepts hchecks happ => simp [happ, hturn, withRow]
  | send hturn haccepts happ => simp [happ, hturn, haccepts, notifyWrite]
  | idle hturn happ =>
    rw [happ, if_neg (fun hboth => (hturn hboth.2).2 hboth.1)]
    simp

theorem advance_data (htracks : Tracks node calls past h) (i : ι) :
    dataOf (advance calls h i).app (calls i).req.itemId =
      if past i = 0 ∧ accepts node (calls i) = true then some (calls i).req.data
      else dataOf h.app (calls i).req.itemId := by
  cases (advance_turn htracks i).1 with
  | store hturn haccepts hchecks happ =>
    rw [happ, if_pos ⟨hturn, haccepts⟩]
    simp [dataOf, withRow, writtenRow, l2Upserted, l2WriteOf]
  | send hturn haccepts happ => simp [happ, hturn, notifyWrite, dataOf]
  | idle hturn happ => rw [happ, if_neg (fun hboth => (hturn hboth.2).1 hboth.1)]

theorem tracks_run (htracks : Tracks node calls past h) (schedule : List ι) :
    Tracks node calls (fun i => past i + schedule.count i) (run (advance calls) h schedule) := by
  induction schedule generalizing past h with
  | nil => simpa using htracks
  | cons i schedule ih =>
    have hrest := ih (tracks_advance htracks i)
    rw [run_cons]
    convert hrest using 1
    funext j
    by_cases hji : j = i
    · subst hji
      simp
      omega
    · rw [Function.update_of_ne hji, List.count_cons_of_ne (fun hij => hji hij.symm)]

/-- The channel takes the notifications in the order of the second turns. -/
theorem run_channel (htracks : Tracks node calls past h) (schedule : List ι) :
    (run (advance calls) h schedule).app.writeNotify = h.app.writeNotify.map (· ++
      ((turns 1 past schedule).filter (fun i => accepts node (calls i))).map
        (fun i => notification node (calls i))) := by
  induction schedule generalizing past h with
  | nil => simp [turns]
  | cons i schedule ih =>
    rw [run_cons, ih (tracks_advance htracks i), advance_channel htracks i, Option.map_map, turns]
    congr 1
    funext channel
    by_cases hturn : past i = 1
    · cases hcall : accepts node (calls i) <;> simp [hturn, hcall]
    · simp [hturn]

/-- The row takes the data in the order of the first turns. -/
theorem run_data (htracks : Tracks node calls past h) {itemId : String}
    (hitem : ∀ i, (calls i).req.itemId = itemId) (schedule : List ι) :
    dataOf (run (advance calls) h schedule).app itemId =
      ((((turns 0 past schedule).filter (fun i => accepts node (calls i))).map
        (fun i => (calls i).req.data)).getLast?).or (dataOf h.app itemId) := by
  induction schedule generalizing past h with
  | nil => simp [turns]
  | cons i schedule ih =>
    have hdata := advance_data htracks i
    rw [hitem i] at hdata
    rw [run_cons, ih (tracks_advance htracks i), hdata, turns]
    by_cases hturn : past i = 0
    · cases hcall : accepts node (calls i) with
      | false => simp [hturn, hcall]
      | true => simp [hturn, hcall, List.getLast?_cons]
    · simp [hturn]

omit [Sha256] [DecidableEq ι] in
theorem tracks_arrived (node : AppState SqliteStorage) (calls : ι → WriteCall) :
    Tracks node calls (fun _ => 0) (arrived node) :=
  ⟨rfl, rfl, fun _ => rfl⟩

end Effects
end CordeliaCore.ConcurrentWrites
