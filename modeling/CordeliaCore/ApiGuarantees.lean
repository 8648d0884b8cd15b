import CordeliaCore.ApiRouter
import CordeliaCore.RequestServers

set_option autoImplicit false

namespace CordeliaCore.ApiRouter
open CryptoPrimitives ProtocolMessages StorageRows StorageSqlite SqliteStorage StorageDevices Api
open FullTextSearch KeyedTable RequestServers StepRuns

def authorised (token : String) (call : Call) : Bool :=
  call.authorization.getD "" = "Bearer " ++ token

def refusal : ApiResponse := .error 401 "invalid bearer token"

section Checks
variable {σ : Type} {state : AppState σ} {call : Call}

theorem checkAuth_of_not_authorised (h : authorised state.bearerToken call = false) :
    checkAuth state call.authorization = some refusal :=
  if_pos (of_decide_eq_false h)

theorem ne_ok_of_refused {authorization : Option String} {refused : ApiResponse}
    (h : checkAuth state authorization = some refused) : refused ≠ .ok := by
  unfold checkAuth at h
  split_ifs at h
  cases h
  simp

end Checks

section Sessions
variable [Sha256] {J : Type} [SerdeJson J] (index : SqliteStorage → FtsIndex)
variable {s : Server} {call : Call}

theorem router_of_not_authorised (h : authorised s.app.bearerToken call = false) :
    router (J := J) index s call = (.plain refusal, s) := by
  have hcheck := checkAuth_of_not_authorised h
  obtain ⟨readings, authorization, request⟩ := call
  cases request <;>
    simp only [router, l1Read, l1Write, l1Delete, l1List, l2Read, l2Write, l2Delete, l2SearchWith,
      l2Search, groupsCreate, groupsList, groupsRead, groupsItems, groupsDelete, groupsAddMember,
      groupsRemoveMember, groupsUpdatePosture, devicesRegister, devicesList, devicesRevoke, status,
      peers, diagnostics, onApp, hcheck]

def identity (s : Server) : String × String × String := (s.nodeId, s.app.entityId, s.app.bearerToken)

theorem router_identity (s : Server) (call : Call) :
    identity (router (J := J) index s call).2 = identity s := by
  obtain ⟨readings, authorization, request⟩ := call
  cases request <;>
    simp only [router, l1Read, l1Write, l1Delete, l1List, l2Read, l2Write, l2Delete, l2SearchWith,
      groupsCreate, groupsList, groupsRead, groupsItems, groupsDelete, groupsAddMember,
      groupsRemoveMember, groupsUpdatePosture, memberChanged, notifyWrite, devicesRegister,
      devicesList, devicesRevoke, status, peers, diagnostics, onApp] <;>
    (repeat' split) <;> rfl

/-- Calls without the token get nothing but a refusal, and the session goes on as if
    they had not been made. -/
theorem unauthorised_calls_leave_no_trace (s : Server) (calls : List Call) :
    (transcript (router (J := J) index) s calls).filter
        (fun x => authorised s.app.bearerToken x.1) =
      transcript (router index) s (calls.filter (authorised s.app.bearerToken)) ∧
    run (next (router (J := J) index)) s calls =
      run (next (router (J := J) index)) s (calls.filter (authorised s.app.bearerToken)) ∧
    ∀ x ∈ transcript (router (J := J) index) s calls,
      authorised s.app.bearerToken x.1 = false → x.2 = .plain refusal := by
  have hkept : ∀ t call, t.app.bearerToken = s.app.bearerToken →
      (next (router (J := J) index) t call).app.bearerToken = s.app.bearerToken := by
    intro t call ht
    exact (congrArg (fun i => i.2.2) (router_identity (J := J) index t call)).trans ht
  have hhidden : ∀ t call, t.app.bearerToken = s.app.bearerToken →
      authorised s.app.bearerToken call = false → next (router (J := J) index) t call = t := by
    intro t call ht hcall
    exact congrArg Prod.snd (router_of_not_authorised index (ht ▸ hcall))
  refine ⟨transcript_filter hkept hhidden rfl calls, run_filter hkept hhidden rfl calls, ?_⟩
  refine forall_transcript hkept (P := fun call answer =>
    authorised s.app.bearerToken call = false → answer = .plain refusal) ?_ rfl calls
  intro t call ht hcall
  exact congrArg Prod.fst (router_of_not_authorised index (ht ▸ hcall))

section Log

def OnlyMembers (db db' : SqliteStorage) : Prop := ∃ members, db' = { db with groupMembers := members }

omit [Sha256] in
theorem OnlyMembers.refl (db : SqliteStorage) : OnlyMembers db db := ⟨db.groupMembers, rfl⟩

omit [Sha256] in
theorem OnlyMembers.trans {db db' db'' : SqliteStorage} (h : OnlyMembers db db')
    (h' : OnlyMembers db' db'') : OnlyMembers db db'' := by
  obtain ⟨_, rfl⟩ := h
  obtain ⟨members, rfl⟩ := h'
  exact ⟨members, rfl⟩

omit [Sha256] in
theorem OnlyMembers.log {db db' : SqliteStorage} (h : OnlyMembers db db') :
    db'.accessLog = db.accessLog := by
  obtain ⟨_, rfl⟩ := h
  rfl

omit [Sha256] in
theorem updateMemberPosture_onlyMembers {db db' : SqliteStorage}
    {groupId entityId posture : String} {changed : Bool}
    (h : db.updateMemberPosture groupId entityId posture = .ok (changed, db')) :
    OnlyMembers db db' := by
  unfold SqliteStorage.updateMemberPosture at h
  split at h
  · cases h
    exact .refl db
  · dsimp only at h
    split_ifs at h
    cases h
    exact ⟨_, rfl⟩

omit [Sha256] in
theorem removeMember_onlyMembers {db db' : SqliteStorage} {groupId entityId : String}
    {changed : Bool} (h : db.removeMember groupId entityId = .ok (changed, db')) :
    OnlyMembers db db' := by
  unfold SqliteStorage.removeMember at h
  split at h
  · cases h
    exact .refl db
  · exact updateMemberPosture_onlyMembers h

theorem removeMembers_onlyMembers (db : SqliteStorage) (groupId : String) :
    OnlyMembers db (removeMembers db groupId) := by
  change OnlyMembers db ((db.listMembers groupId).foldl _ db)
  generalize db.listMembers groupId = members
  induction members generalizing db with
  | nil => exact .refl db
  | cons m members ih =>
    rw [List.foldl_cons]
    refine .trans ?_ (ih _)
    rw [show Storage.updateMemberPosture db groupId m.entityId "removed" =
      db.updateMemberPosture groupId m.entityId "removed" from rfl]
    cases h : db.updateMemberPosture groupId m.entityId "removed" with
    | error e => exact .refl db
    | ok result => exact updateMemberPosture_onlyMembers h

omit [Sha256] in
theorem addMember_log (db : SqliteStorage) (now groupId entityId role : String) :
    (db.addMember now groupId entityId role).2.accessLog = db.accessLog := by
  have hstub : (db.ensureL1Stub now entityId).accessLog = db.accessLog := by
    unfold ensureL1Stub
    split <;> rfl
  unfold SqliteStorage.addMember
  dsimp only
  split_ifs <;> exact hstub

theorem writeL2Item_log {db db' : SqliteStorage} {now : String} {item : L2ItemWrite}
    (h : db.writeL2Item now item = .ok db') : db'.accessLog = db.accessLog := by
  unfold SqliteStorage.writeL2Item at h
  dsimp only at h
  split_ifs at h
  cases h
  rfl

omit [Sha256] in
theorem deleteL1_log {db db' : SqliteStorage} {userId : String} {changed : Bool}
    (h : db.deleteL1 userId = .ok (changed, db')) : db'.accessLog = db.accessLog := by
  unfold deleteL1 at h
  split_ifs at h
  cases h
  rfl

section Handlers
variable (state : AppState SqliteStorage) (authorization : Option String) (now : String)

theorem l2Write_log (req : L2WriteRequest) :
    (l2Write state authorization now req).2.storage.accessLog = state.storage.accessLog := by
  unfold l2Write
  split
  · rfl
  · dsimp only
    split
    · rfl
    · split
      · next h => exact writeL2Item_log h
      · rfl

theorem l2Delete_log (itemId : String) :
    (l2Delete state authorization itemId).2.storage.accessLog = state.storage.accessLog := by
  unfold l2Delete
  split
  · rfl
  · rw [deleteL2Item_ok]
    dsimp only
    split
    · next deleted h =>
      have hdeleted : deleted.accessLog = state.storage.accessLog :=
        congrArg (fun r => r.2.accessLog) (Except.ok.inj h).symm
      split <;> exact hdeleted
    · next same h => exact congrArg (fun r => r.2.accessLog) (Except.ok.inj h).symm
    · rfl

theorem groupsCreate_log (req : GroupCreateRequest) :
    (groupsCreate state authorization now req).2.storage.accessLog = state.storage.accessLog := by
  unfold groupsCreate
  split <;> rfl

theorem groupsDelete_log (groupId : String) :
    (groupsDelete state authorization now groupId).2.storage.accessLog = state.storage.accessLog ++
      if (groupsDelete state authorization now groupId).1 = .ok then
        [(now, deleteGroupLog state.entityId groupId)] else [] := by
  unfold groupsDelete
  split
  · next refused hrefused =>
    rw [if_neg (ne_ok_of_refused hrefused), List.append_nil]
  · rw [readGroup_ok]
    split
    · simp
    · simp
    · rw [writeGroup_ok]
      change (removeMembers (state.storage.writeGroup now groupId groupId groupTombstoneCulture "{}")
        groupId).accessLog ++ [(now, deleteGroupLog state.entityId groupId)] = _
      rw [(removeMembers_onlyMembers _ groupId).log, if_pos rfl]
      rfl

theorem groupsAddMember_log (req : GroupAddMemberRequest) :
    (groupsAddMember state authorization now req).2.storage.accessLog = state.storage.accessLog ++
      if (groupsAddMember state authorization now req).1 = .ok then
        [(now, addMemberLog state.entityId req)] else [] := by
  have hlog := addMember_log state.storage now req.groupId req.entityId req.role
  unfold groupsAddMember
  split
  · next refused hrefused =>
    rw [if_neg (ne_ok_of_refused hrefused), List.append_nil]
  · split
    · simp
    · rw [show Storage.addMember state.storage now req.groupId req.entityId req.role =
        state.storage.addMember now req.groupId req.entityId req.role from rfl]
      split
      · next h =>
        rw [h] at hlog
        rw [if_pos rfl, ← hlog]
        rfl
      · next h =>
        rw [h] at hlog
        rw [if_neg (by simp), List.append_nil, ← hlog]

theorem memberChanged_log (entry : AccessLogEntry)
    {result : Except StorageError (Bool × SqliteStorage)}
    (h : ∀ changed db, result = .ok (changed, db) → db.accessLog = state.storage.accessLog) :
    (memberChanged state now entry result).2.storage.accessLog = state.storage.accessLog ++
      if (memberChanged state now entry result).1 = .ok then [(now, entry)] else [] := by
  match result, h with
  | .ok (true, db), h =>
    change db.accessLog ++ [(now, entry)] = _
    rw [h true db rfl]
    rfl
  | .ok (false, db), h =>
    change db.accessLog = _
    rw [h false db rfl]
    exact (List.append_nil _).symm
  | .error e, _ => exact (List.append_nil _).symm

theorem groupsRemoveMember_log (req : GroupRemoveMemberRequest) :
    (groupsRemoveMember state authorization now req).2.storage.accessLog =
      state.storage.accessLog ++
        if (groupsRemoveMember state authorization now req).1 = .ok then
          [(now, removeMemberLog state.entityId req)] else [] := by
  unfold groupsRemoveMember
  split
  · next refused hrefused => rw [if_neg (ne_ok_of_refused hrefused), List.append_nil]
  · exact memberChanged_log state now _ (fun changed db h => (removeMember_onlyMembers h).log)

theorem groupsUpdatePosture_log (req : GroupUpdatePostureRequest) :
    (groupsUpdatePosture state authorization now req).2.storage.accessLog =
      state.storage.accessLog ++
        if (groupsUpdatePosture state authorization now req).1 = .ok then
          [(now, updatePostureLog state.entityId req)] else [] := by
  unfold groupsUpdatePosture
  split
  · next refused hrefused => rw [if_neg (ne_ok_of_refused hrefused), List.append_nil]
  · split
    · simp
    · exact memberChanged_log state now _ (fun changed db h =>
        (updateMemberPosture_onlyMembers h).log)

end Handlers
end Log

def auditEntry (entityId : String) : Request → Option AccessLogEntry
  | .groupsDelete groupId => some (deleteGroupLog entityId groupId)
  | .groupsAddMember req => some (addMemberLog entityId req)
  | .groupsRemoveMember req => some (removeMemberLog entityId req)
  | .groupsUpdatePosture req => some (updatePostureLog entityId req)
  | .devicesRegister req => some (registerLog req)
  | .devicesRevoke entity device => some (revokeLog entity device)
  | _ => none

def Response.succeeded : Response J → Bool
  | .plain .ok => true
  | _ => false

def auditEntries (entityId : String) (call : Call) (answer : Response J) :
    List (String × AccessLogEntry) :=
  if answer.succeeded then
    (auditEntry entityId call.request).toList.map (fun entry => (call.readings.now, entry))
  else []

omit [Sha256] [SerdeJson J] in
theorem auditEntries_of_none {entityId : String} {call : Call}
    (h : auditEntry entityId call.request = none) (answer : Response J) :
    auditEntries entityId call answer = [] := by
  unfold auditEntries
  rw [h]
  exact ite_self _

omit [Sha256] [SerdeJson J] in
theorem auditEntries_plain {entityId : String} {call : Call} {entry : AccessLogEntry}
    (h : auditEntry entityId call.request = some entry) (answer : ApiResponse) :
    auditEntries entityId call (.plain answer : Response J) =
      if answer = .ok then [(call.readings.now, entry)] else [] := by
  unfold auditEntries
  rw [h]
  cases answer <;> rfl

/-- Each handler writes the entry of its request, and only when it succeeds. -/
theorem router_log (s : Server) (call : Call) :
    (router (J := J) index s call).2.app.storage.accessLog = s.app.storage.accessLog ++
      auditEntries s.app.entityId call (router (J := J) index s call).1 := by
  obtain ⟨readings, authorization, request⟩ := call
  cases request with
  | groupsDelete groupId =>
    simp only [router, onApp]
    rw [auditEntries_plain rfl]
    exact groupsDelete_log s.app authorization readings.now groupId
  | groupsAddMember req =>
    simp only [router, onApp]
    rw [auditEntries_plain rfl]
    exact groupsAddMember_log s.app authorization readings.now req
  | groupsRemoveMember req =>
    simp only [router, onApp]
    rw [auditEntries_plain rfl]
    exact groupsRemoveMember_log s.app authorization readings.now req
  | groupsUpdatePosture req =>
    simp only [router, onApp]
    rw [auditEntries_plain rfl]
    exact groupsUpdatePosture_log s.app authorization readings.now req
  | devicesRegister req =>
    simp only [router, devicesRegister]
    split
    · next refused hrefused =>
      rw [auditEntries_plain rfl, if_neg (ne_ok_of_refused hrefused), List.append_nil]
    · split
      · exact (List.append_nil _).symm
      · split
        · rfl
        · exact (List.append_nil _).symm
  | devicesRevoke entityId deviceId =>
    simp only [router, devicesRevoke]
    split
    · next refused hrefused =>
      rw [auditEntries_plain rfl, if_neg (ne_ok_of_refused hrefused), List.append_nil]
    · split
      · rfl
      · exact (List.append_nil _).symm
  | l2Write req =>
    rw [auditEntries_of_none rfl, List.append_nil]
    exact l2Write_log s.app authorization readings.now req
  | l2Delete itemId =>
    rw [auditEntries_of_none rfl, List.append_nil]
    exact l2Delete_log s.app authorization itemId
  | groupsCreate req =>
    rw [auditEntries_of_none rfl, List.append_nil]
    exact groupsCreate_log s.app authorization readings.now req
  | l1Delete userId =>
    rw [auditEntries_of_none rfl, List.append_nil]
    simp only [router, l1Delete]
    split
    · rfl
    · split
      · next h => exact deleteL1_log h
      · next h => exact deleteL1_log h
      · rfl
  | _ =>
    rw [auditEntries_of_none rfl, List.append_nil]
    simp only [router, l1Read, l1Write, l1List, l2Read, l2SearchWith, groupsList, groupsRead,
      groupsItems, devicesList, status, peers, diagnostics]
    repeat' split
    all_goals rfl

/-- The access log after a session is what it was, and one entry for each change
    of members and devices and each deletion of a group that was answered with success. -/
theorem access_log_tells_the_session (s : Server) (calls : List Call) :
    (run (next (router (J := J) index)) s calls).app.storage.accessLog =
      s.app.storage.accessLog ++ (transcript (router (J := J) index) s calls).flatMap
        (fun x => auditEntries s.app.entityId x.1 x.2) := by
  refine log_run (I := fun t : Server => t.app.entityId = s.app.entityId) (fun t call ht => ?_)
    (fun t => t.app.storage.accessLog) (auditEntries s.app.entityId) (fun t call ht => ?_) rfl calls
  · exact (congrArg (fun i => i.2.1) (router_identity (J := J) index t call)).trans ht
  · rw [← ht]
    exact router_log index t call

section Hashes

def unhashed (r : DeviceRow) : DeviceRow := { r with authTokenHash := "" }

omit [Sha256] in
theorem unhashed_deviceId (r : DeviceRow) : (unhashed r).deviceId = r.deviceId := rfl

/-- Device tables that differ in nothing but token hashes. -/
def SameDevices (d d' : Devices) : Prop := d.rows.map unhashed = d'.rows.map unhashed

structure SameButHashes (s t : Server) : Prop where
  app : s.app = t.app
  nodeId : s.nodeId = t.nodeId
  devices : SameDevices s.devices t.devices

inductive SameRequest : Request → Request → Prop
  | refl (request : Request) : SameRequest request request
  | register (req : DeviceRegisterRequest) (hash hash' : String) :
      SameRequest (.devicesRegister { req with authTokenHash := hash })
        (.devicesRegister { req with authTokenHash := hash' })

structure SameCall (c d : Call) : Prop where
  readings : c.readings = d.readings
  authorization : c.authorization = d.authorization
  request : SameRequest c.request d.request

variable {d d' : Devices} (h : SameDevices d d')
include h

omit [Sha256] in
theorem listDevices_same (entityId : String) :
    (listDevices d entityId).map deviceView = (listDevices d' entityId).map deviceView := by
  have hlist : ∀ t : Devices, (listDevices t entityId).map unhashed =
      ((t.rows.map unhashed).filter (fun r => r.entityId = entityId)).insertionSort
        (fun a b => b.createdAt ≤ a.createdAt) := by
    intro t
    unfold listDevices
    rw [List.map_insertionSort (fun a b : DeviceRow => b.createdAt ≤ a.createdAt)
      (fun a b : DeviceRow => b.createdAt ≤ a.createdAt) unhashed _ (fun _ _ _ _ => Iff.rfl),
      List.filter_map]
    rfl
  have hview : ∀ t : Devices, (listDevices t entityId).map deviceView =
      ((listDevices t entityId).map unhashed).map deviceView := by
    intro t
    rw [List.map_map]
    rfl
  rw [hview, hview, hlist, hlist, h]

omit [Sha256] in
theorem revokeDevice_same (now entityId deviceId : String) :
    (revokeDevice d now entityId deviceId).1 = (revokeDevice d' now entityId deviceId).1 ∧
      SameDevices (revokeDevice d now entityId deviceId).2
        (revokeDevice d' now entityId deviceId).2 := by
  have hany : ∀ t : Devices, t.rows.any (revocable entityId deviceId) =
      (t.rows.map unhashed).any (revocable entityId deviceId) := by
    intro t
    rw [List.any_map]
    rfl
  have happly : ∀ r, unhashed (((revoking now).only (revocable entityId deviceId)).apply r) =
      ((revoking now).only (revocable entityId deviceId)).apply (unhashed r) := by
    intro r
    change unhashed (if revocable entityId deviceId r then _ else _) =
      if revocable entityId deviceId r then _ else _
    split_ifs <;> rfl
  have hcomp : unhashed ∘ ((revoking now).only (revocable entityId deviceId)).apply =
      ((revoking now).only (revocable entityId deviceId)).apply ∘ unhashed := funext happly
  constructor
  · change d.rows.any _ = d'.rows.any _
    rw [hany, hany, h]
  · change (d.rows.map _).map unhashed = (d'.rows.map _).map unhashed
    rw [List.map_map, List.map_map, hcomp, ← List.map_map, ← List.map_map, h]

omit [Sha256] h in
theorem deviceUpserted_same {o o' : Option DeviceRow} (ho : o.map unhashed = o'.map unhashed)
    (now : String) {a b : DeviceRow} (hab : unhashed a = unhashed b) :
    unhashed (deviceUpserted o now a) = unhashed (deviceUpserted o' now b) := by
  simp only [unhashed, DeviceRow.mk.injEq] at hab
  cases o with
  | none =>
    cases o' with
    | none => simp only [unhashed, deviceUpserted, Option.elim, Option.bind_none, hab]
    | some r' => cases ho
  | some r =>
    cases o' with
    | none => cases ho
    | some r' =>
      have hr := Option.some.inj ho
      simp only [unhashed, DeviceRow.mk.injEq] at hr
      simp only [unhashed, deviceUpserted, Option.elim, Option.bind_some, hab, hr]

omit [Sha256] in
theorem registerDevice_same (now : String) {a b : DeviceRow} (hab : unhashed a = unhashed b) :
    (∃ e e', registerDevice d now a = .ok e ∧ registerDevice d' now b = .ok e' ∧
      SameDevices e e') ∨
    ∃ x, registerDevice d now a = .error x ∧ registerDevice d' now b = .error x := by
  obtain ⟨hid, -, -, htype, -⟩ := DeviceRow.mk.inj hab
  have hlookup : (d.lookup a.deviceId).map unhashed = (d'.lookup b.deviceId).map unhashed := by
    rw [Table.map_lookup DeviceRow.deviceId unhashed_deviceId,
      Table.map_lookup DeviceRow.deviceId unhashed_deviceId, h, hid]
  have hrow := deviceUpserted_same hlookup now hab
  have hchecks : DeviceChecks (deviceUpserted (d.lookup a.deviceId) now a) ↔
      DeviceChecks (deviceUpserted (d'.lookup b.deviceId) now b) :=
    iff_of_eq (congrArg (· ∈ deviceTypes) htype)
  by_cases hc : DeviceChecks (deviceUpserted (d.lookup a.deviceId) now a)
  · left
    refine ⟨_, _, dif_pos hc, dif_pos (hchecks.mp hc), ?_⟩
    change (insertRow _ _ d.rows).map unhashed = (insertRow _ _ d'.rows).map unhashed
    rw [Table.map_insertRow DeviceRow.deviceId unhashed_deviceId,
      Table.map_insertRow DeviceRow.deviceId unhashed_deviceId, hrow, h]
  · exact .inr ⟨_, dif_neg hc, dif_neg (fun hc' => hc (hchecks.mpr hc'))⟩

end Hashes

section Secrecy
variable {s t : Server} (h : SameButHashes s t)
include h

omit [SerdeJson J] in
theorem devicesRegister_same (auth : Option String) (now : String) (req : DeviceRegisterRequest)
    (hash hash' : String) :
    (devicesRegister (J := J) s auth now { req with authTokenHash := hash }).1 =
        (devicesRegister (J := J) t auth now { req with authTokenHash := hash' }).1 ∧
      SameButHashes (devicesRegister (J := J) s auth now { req with authTokenHash := hash }).2
        (devicesRegister (J := J) t auth now { req with authTokenHash := hash' }).2 := by
  obtain ⟨app, nodeId, devices⟩ := s
  obtain ⟨app', nodeId', devices'⟩ := t
  obtain ⟨rfl, rfl, hdevices⟩ := h
  have hone := registerDevice_same hdevices now (a := deviceOf { req with authTokenHash := hash })
    (b := deviceOf { req with authTokenHash := hash' }) rfl
  simp only [devicesRegister]
  split
  · exact ⟨rfl, rfl, rfl, hdevices⟩
  · split
    · exact ⟨rfl, rfl, rfl, hdevices⟩
    · rcases hone with ⟨_, _, he, he', hsame⟩ | ⟨_, hx, hx'⟩
      · rw [he, he']
        exact ⟨rfl, rfl, rfl, hsame⟩
      · rw [hx, hx']
        exact ⟨rfl, rfl, rfl, hdevices⟩

omit [SerdeJson J] in
theorem devicesRevoke_same (auth : Option String) (now entityId deviceId : String) :
    (devicesRevoke (J := J) s auth now entityId deviceId).1 =
        (devicesRevoke (J := J) t auth now entityId deviceId).1 ∧
      SameButHashes (devicesRevoke (J := J) s auth now entityId deviceId).2
        (devicesRevoke (J := J) t auth now entityId deviceId).2 := by
  obtain ⟨app, nodeId, devices⟩ := s
  obtain ⟨app', nodeId', devices'⟩ := t
  obtain ⟨rfl, rfl, hdevices⟩ := h
  have hone := revokeDevice_same hdevices now entityId deviceId
  simp only [devicesRevoke]
  split
  · exact ⟨rfl, rfl, rfl, hdevices⟩
  · generalize revokeDevice devices now entityId deviceId = x,
      revokeDevice devices' now entityId deviceId = y at hone
    obtain ⟨found, e⟩ := x
    obtain ⟨found', e'⟩ := y
    obtain ⟨rfl, hsame⟩ := hone
    cases found with
    | true => exact ⟨rfl, rfl, rfl, hsame⟩
    | false => exact ⟨rfl, rfl, rfl, hsame⟩

theorem router_same {c e : Call} (hce : SameCall c e) :
    (router (J := J) index s c).1 = (router (J := J) index t e).1 ∧
      SameButHashes (router (J := J) index s c).2 (router (J := J) index t e).2 := by
  obtain ⟨readings, authorization, request⟩ := c
  obtain ⟨readings', authorization', request'⟩ := e
  obtain ⟨rfl, rfl, hrequest⟩ := hce
  cases hrequest with
  | register req hash hash' => exact devicesRegister_same h authorization readings.now req hash hash'
  | refl =>
    cases request with
    | devicesRegister req =>
      exact devicesRegister_same h authorization readings.now req req.authTokenHash req.authTokenHash
    | devicesRevoke entityId deviceId =>
      exact devicesRevoke_same h authorization readings.now entityId deviceId
    | devicesList entityId =>
      have hlist := listDevices_same h.devices entityId
      simp only [router, devicesList, h.app]
      split
      · exact ⟨rfl, h⟩
      · exact ⟨congrArg Response.devices hlist, h⟩
    | _ =>
      -- the other handlers read nothing of the devices and pass them on
      obtain ⟨app, nodeId, devices⟩ := s
      obtain ⟨app', nodeId', devices'⟩ := t
      obtain ⟨rfl, rfl, hdevices⟩ := h
      simp only [router, l1Read, l1Write, l1Delete, l1List, l2Read, l2SearchWith, groupsList,
        groupsRead, groupsItems, status, peers, diagnostics, onApp]
      repeat' split
      all_goals exact ⟨by trivial, rfl, rfl, hdevices⟩

end Secrecy

/-- Two sessions that differ in nothing but the token hashes of devices, those
    stored and those registered on the way, read the same answers. -/
theorem token_hashes_stay_secret {s t : Server} (h : SameButHashes s t) {calls calls' : List Call}
    (hcalls : List.Forall₂ SameCall calls calls') :
    (transcript (router (J := J) index) s calls).map Prod.snd =
      (transcript (router (J := J) index) t calls').map Prod.snd :=
  answers_agree (R := SameButHashes) (T := SameCall)
    (fun _ _ _ _ hst hqr => router_same index hst hqr) h hcalls

end Sessions

section Example

def freshServer : Server := ⟨⟨createNew, "russell", "token", none, none, none⟩, "node-1", .empty⟩

def asked (request : Request) : Call :=
  ⟨⟨"2026-02-01 10:00:00", 0, none, none, none⟩, some "Bearer token", request⟩

def laptop (hash : String) : DeviceRegisterRequest := ⟨"laptop", "russell", none, "node", hash⟩

def laptopListed (hash : String) : List Call :=
  [asked (.devicesRegister (laptop hash)), asked (.devicesList "russell")]

@[reducible] def rawJson : SerdeJson Bytes := ⟨some⟩

/-- The two hashes are stored, and neither shows. -/
theorem laptop_hash_stays_secret :
    let := knownDigests
    let := rawJson
    let serve := router (J := Bytes) (fun _ _ => .ok [])
    (run (next serve) freshServer (laptopListed "00")).devices.rows ≠
      (run (next serve) freshServer (laptopListed "ff")).devices.rows ∧
    (transcript serve freshServer (laptopListed "00")).map Prod.snd =
      (transcript serve freshServer (laptopListed "ff")).map Prod.snd := by
  let := knownDigests
  let := rawJson
  refine ⟨by decide +kernel, ?_⟩
  refine token_hashes_stay_secret _ ⟨rfl, rfl, rfl⟩ ?_
  exact .cons ⟨rfl, rfl, .register (laptop "") "00" "ff"⟩ (.cons ⟨rfl, rfl, .refl _⟩ .nil)

end Example
end CordeliaCore.ApiRouter
