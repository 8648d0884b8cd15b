import CordeliaCore.StepRuns
import CordeliaCore.StorageDevices

set_option autoImplicit false

namespace CordeliaCore.DeviceRevocation
open StorageRows StorageDevices KeyedTable StepRuns

inductive Request where
  | registerDevice (now : String) (device : DeviceRow)
  | listDevices (entityId : String)
  | revokeDevice (now entityId deviceId : String)
  | getDeviceByTokenHash (scan : Scan) (tokenHash : String)

inductive Answer where
  | registered (result : Except StorageError Unit)
  | listed (devices : List DeviceRow)
  | revoked (changed : Bool)
  | found (device : Option DeviceRow)

def answer (t : Devices) : Request → Answer
  | .registerDevice now device => .registered ((registerDevice t now device).map (fun _ => ()))
  | .listDevices entityId => .listed (listDevices t entityId)
  | .revokeDevice now entityId deviceId => .revoked (revokeDevice t now entityId deviceId).1
  | .getDeviceByTokenHash scan tokenHash => .found (getDeviceByTokenHash scan t tokenHash)

/-- A registration that fails leaves the table alone. -/
def serve (t : Devices) : Request → Devices
  | .registerDevice now device => (registerDevice t now device).toOption.getD t
  | .revokeDevice now entityId deviceId => (revokeDevice t now entityId deviceId).2
  | .listDevices _ => t
  | .getDeviceByTokenHash _ _ => t

def Revoked (entityId deviceId : String) (t : Devices) : Prop :=
  ∃ r, t.lookup deviceId = some r ∧ r.entityId = entityId ∧ r.revokedAt.isSome

section Requests
variable {t : Devices} {entityId deviceId : String}

theorem revoked_of_changed {now : String}
    (h : (revokeDevice t now entityId deviceId).1 = true) :
    Revoked entityId deviceId (revokeDevice t now entityId deviceId).2 := by
  obtain ⟨r, hr, hlive⟩ := List.any_eq_true.mp h
  obtain ⟨rfl, hentity, -⟩ := revocable_iff.mp hlive
  refine ⟨(revoking now).apply r, ?_, hentity, rfl⟩
  rw [lookup_revoke, t.lookup_key hr, Option.map_some, Edit.only_of_pos _ hlive]

theorem revoked_register (h : Revoked entityId deviceId t) (now : String) (device : DeviceRow) :
    Revoked entityId deviceId (serve t (.registerDevice now device)) := by
  rcases registerDevice_eq t now device with ⟨-, e, hfails⟩ | ⟨-, t', hok, ht'⟩
  · have hsame : serve t (.registerDevice now device) = t := by simp only [serve, hfails]; rfl
    rwa [hsame]
  · have hserved : serve t (.registerDevice now device) = t' := by simp only [serve, hok]; rfl
    rw [hserved]
    obtain ⟨r, hr, hentity, hrevoked⟩ := h
    by_cases hid : device.deviceId = deviceId
    · subst hid
      refine ⟨deviceUpserted (some r) now device, ?_, hentity, hrevoked⟩
      rw [ht', if_pos rfl, hr]
    · exact ⟨r, by rw [ht', if_neg hid, hr], hentity, hrevoked⟩

theorem revoked_revoke (h : Revoked entityId deviceId t) (now otherEntity other : String) :
    Revoked entityId deviceId (revokeDevice t now otherEntity other).2 := by
  obtain ⟨r, hr, hentity, hrevoked⟩ := h
  have hdead : ¬ revocable otherEntity other r = true := by
    intro hlive
    rw [(revocable_iff.mp hlive).2.2] at hrevoked
    cases hrevoked
  refine ⟨r, ?_, hentity, hrevoked⟩
  rw [lookup_revoke, hr, Option.map_some, Edit.only_of_neg _ hdead]

theorem revoked_serve (h : Revoked entityId deviceId t) (request : Request) :
    Revoked entityId deviceId (serve t request) := by
  cases request with
  | registerDevice now device => exact revoked_register h now device
  | revokeDevice now otherEntity other => exact revoked_revoke h now otherEntity other
  | listDevices _ => exact h
  | getDeviceByTokenHash _ _ => exact h

theorem Revoked.not_found (h : Revoked entityId deviceId t) {scan : Scan} {tokenHash : String}
    {device : DeviceRow} (hfound : getDeviceByTokenHash scan t tokenHash = some device) :
    device.deviceId ≠ deviceId := by
  rintro rfl
  obtain ⟨hrow, -, hlive⟩ := getDeviceByTokenHash_spec hfound
  obtain ⟨r, hr, -, hrevoked⟩ := h
  rw [hrow] at hr
  cases hr
  rw [hlive] at hrevoked
  cases hrevoked

theorem Revoked.listed (h : Revoked entityId deviceId t) :
    ∃ r ∈ listDevices t entityId, r.deviceId = deviceId ∧ r.revokedAt.isSome := by
  obtain ⟨r, hr, hentity, hrevoked⟩ := h
  refine ⟨r, ?_, Table.key_of_lookup hr, hrevoked⟩
  unfold listDevices
  rw [List.mem_insertionSort, List.mem_filter]
  exact ⟨Table.mem_of_lookup hr, by simpa using hentity⟩

end Requests

/-- After a revocation that went through, whatever is called, no lookup answers with the
    device and its entity sees it listed as revoked. -/
theorem revocation_permanent (t : Devices) (past coming : List Request)
    (now entityId deviceId : String)
    (h : answer (run serve t past) (.revokeDevice now entityId deviceId) = .revoked true) :
    let later := run serve t (past ++ .revokeDevice now entityId deviceId :: coming)
    (∀ scan tokenHash device,
        answer later (.getDeviceByTokenHash scan tokenHash) = .found (some device) →
          device.deviceId ≠ deviceId) ∧
      ∃ devices, answer later (.listDevices entityId) = .listed devices ∧
        ∃ r ∈ devices, r.deviceId = deviceId ∧ r.revokedAt.isSome := by
  intro later
  have hchanged : (revokeDevice (run serve t past) now entityId deviceId).1 = true :=
    Answer.revoked.inj h
  have hlater : Revoked entityId deviceId later := by
    change Revoked entityId deviceId (run serve t (past ++ _))
    rw [run_append, run_cons]
    exact run_reaches (fun t request _ ht => revoked_serve ht request)
      (.inl (revoked_of_changed hchanged))
  refine ⟨fun scan tokenHash device hfound => ?_, _, rfl, hlater.listed⟩
  exact hlater.not_found (Answer.found.inj hfound)

section Example

def phone (tokenHash : String) : DeviceRow where
  deviceId := "dev-001"
  entityId := "russell"
  deviceName := none
  deviceType := "mobile"
  authTokenHash := tokenHash
  createdAt := ""
  lastSeenAt := none
  revokedAt := none

/-- A revoked device that is registered again under a new token stays revoked. -/
theorem new_token_stays_revoked :
    let later := run serve .empty
      ([.registerDevice "2026-02-01 00:00:00" (phone "abc123hash")] ++
        .revokeDevice "2026-02-02 00:00:00" "russell" "dev-001" ::
        [.registerDevice "2026-02-03 00:00:00" (phone "def456hash")])
    (∀ scan tokenHash device,
        answer later (.getDeviceByTokenHash scan tokenHash) = .found (some device) →
          device.deviceId ≠ "dev-001") ∧
      ∃ devices, answer later (.listDevices "russell") = .listed devices ∧
        ∃ r ∈ devices, r.deviceId = "dev-001" ∧ r.revokedAt.isSome :=
  revocation_permanent .empty _ _ "2026-02-02 00:00:00" "russell" "dev-001" rfl

end Example
end CordeliaCore.DeviceRevocation
