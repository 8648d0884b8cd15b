import CordeliaCore.StorageRows
import CordeliaCore.TableEdits

set_option autoImplicit false

namespace CordeliaCore.StorageDevices
open StorageRows KeyedTable

structure DeviceRow where
  deviceId : String
  entityId : String
  deviceName : Option String
  deviceType : String
  authTokenHash : String
  createdAt : String
  lastSeenAt : Option String
  revokedAt : Option String
deriving DecidableEq, Repr

def deviceTypes : List String := ["node", "browser", "mobile"]

def DeviceChecks (r : DeviceRow) : Prop := r.deviceType ∈ deviceTypes

instance (r : DeviceRow) : Decidable (DeviceChecks r) :=
  inferInstanceAs (Decidable (r.deviceType ∈ deviceTypes))

abbrev Devices := Table DeviceRow.deviceId DeviceChecks

/-- The row an upsert leaves. On a conflict it names neither the entity nor the
    revocation. -/
def deviceUpserted (existing : Option DeviceRow) (now : String) (device : DeviceRow) :
    DeviceRow where
  deviceId := device.deviceId
  entityId := existing.elim device.entityId (·.entityId)
  deviceName := device.deviceName
  deviceType := device.deviceType
  authTokenHash := device.authTokenHash
  createdAt := existing.elim now (·.createdAt)
  lastSeenAt := existing.bind (·.lastSeenAt)
  revokedAt := existing.bind (·.revokedAt)

def registerDevice (t : Devices) (now : String) (device : DeviceRow) :
    Except StorageError Devices :=
  let row := deviceUpserted (t.lookup device.deviceId) now device
  if h : DeviceChecks row then .ok (t.put row h)
  else .error (.sqlite "CHECK constraint failed: device_type IN ('node', 'browser', 'mobile')")

def listDevices (t : Devices) (entityId : String) : List DeviceRow :=
  (t.rows.filter (fun r => r.entityId = entityId)).insertionSort
    (fun a b => b.createdAt ≤ a.createdAt)

def revoking (now : String) : Edit DeviceRow.deviceId DeviceChecks where
  apply r := { r with revokedAt := some now }
  key_apply _ := rfl
  check_apply _ h := h

def revocable (entityId deviceId : String) (r : DeviceRow) : Bool :=
  r.deviceId = deviceId && r.entityId = entityId && r.revokedAt.isNone

def revokeDevice (t : Devices) (now entityId deviceId : String) : Bool × Devices :=
  (t.rows.any (revocable entityId deviceId),
    t.edit ((revoking now).only (revocable entityId deviceId)))

theorem revocable_iff {entityId deviceId : String} {r : DeviceRow} :
    revocable entityId deviceId r = true ↔
      r.deviceId = deviceId ∧ r.entityId = entityId ∧ r.revokedAt = none := by
  simp [revocable, and_assoc]

theorem lookup_revoke (t : Devices) (now entityId deviceId k : String) :
    (revokeDevice t now entityId deviceId).2.lookup k =
      (t.lookup k).map ((revoking now).only (revocable entityId deviceId)).apply :=
  t.lookup_edit _ k

/-- The order in which a scan of the table meets its rows. -/
structure Scan where
  order : List DeviceRow → List DeviceRow
  perm : ∀ rows, (order rows).Perm rows

def getDeviceByTokenHash (scan : Scan) (t : Devices) (tokenHash : String) : Option DeviceRow :=
  (scan.order t.rows).find? (fun r => r.authTokenHash = tokenHash && r.revokedAt.isNone)

theorem getDeviceByTokenHash_spec {scan : Scan} {t : Devices} {tokenHash : String} {r : DeviceRow}
    (h : getDeviceByTokenHash scan t tokenHash = some r) :
    t.lookup r.deviceId = some r ∧ r.authTokenHash = tokenHash ∧ r.revokedAt = none := by
  have hmatch := List.find?_some h
  rw [Bool.and_eq_true, decide_eq_true_iff, Option.isNone_iff_eq_none] at hmatch
  have hmem : r ∈ t.rows := (scan.perm t.rows).mem_iff.mp (List.mem_of_find?_eq_some h)
  exact ⟨t.lookup_key hmem, hmatch⟩

def Scan.starting (first : DeviceRow) : Scan where
  order rows := if first ∈ rows then first :: rows.erase first else rows
  perm rows := by
    split_ifs with h
    · exact (List.perm_cons_erase h).symm
    · exact .refl rows

theorem getDeviceByTokenHash_starting {t : Devices} {r : DeviceRow}
    (hlookup : t.lookup r.deviceId = some r) (hlive : r.revokedAt = none) :
    getDeviceByTokenHash (.starting r) t r.authTokenHash = some r := by
  have hmem := Table.mem_of_lookup hlookup
  simp [getDeviceByTokenHash, Scan.starting, hmem, hlive]

theorem registerDevice_eq (t : Devices) (now : String) (device : DeviceRow) :
    (device.deviceType ∉ deviceTypes ∧ ∃ e, registerDevice t now device = .error e) ∨
      device.deviceType ∈ deviceTypes ∧ ∃ t', registerDevice t now device = .ok t' ∧
        ∀ k, t'.lookup k = if device.deviceId = k then
          some (deviceUpserted (t.lookup device.deviceId) now device) else t.lookup k := by
  let row := deviceUpserted (t.lookup device.deviceId) now device
  by_cases h : DeviceChecks row
  · refine .inr ⟨h, t.put row h, dif_pos h, fun k => ?_⟩
    exact t.lookup_put row h k
  · exact .inl ⟨h, _, dif_neg h⟩

end CordeliaCore.StorageDevices
