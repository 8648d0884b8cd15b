import CordeliaCore.StepRuns
import CordeliaCore.StorageDevices

set_option autoImplicit false

namespace CordeliaCore.DeviceTokens
open StorageDevices KeyedTable StepRuns

inductive Call where
  | registerDevice (now : String) (device : DeviceRow)
  | revokeDevice (now entityId deviceId : String)

/-- The table and the registrations that succeeded, the latest first. -/
structure Ledger where
  devices : Devices
  registrations : List DeviceRow

def call (s : Ledger) : Call → Ledger
  | .registerDevice now device =>
    match registerDevice s.devices now device with
    | .ok devices => ⟨devices, device :: s.registrations⟩
    | .error _ => s
  | .revokeDevice now entityId deviceId =>
    { s with devices := (revokeDevice s.devices now entityId deviceId).2 }

def Ledger.latest (s : Ledger) (deviceId : String) : Option DeviceRow :=
  s.registrations.find? (fun d => d.deviceId = deviceId)

/-- Whatever a lookup finds is what the latest registration of its device named. -/
def Bound (s : Ledger) : Prop :=
  ∀ scan tokenHash d, getDeviceByTokenHash scan s.devices tokenHash = some d →
    ∃ registration, s.latest d.deviceId = some registration ∧
      registration.authTokenHash = tokenHash ∧ registration.entityId = d.entityId

/-- A registration of a live device by another entity. -/
def Rebinds (s : Ledger) : Call → Prop
  | .registerDevice _ device => device.deviceType ∈ deviceTypes ∧
    ∃ r, s.devices.lookup device.deviceId = some r ∧ r.revokedAt = none ∧
      r.entityId ≠ device.entityId
  | .revokeDevice _ _ _ => False

def Current (s : Ledger) (r : DeviceRow) : Prop :=
  r.revokedAt = none → ∃ registration, s.latest r.deviceId = some registration ∧
    registration.authTokenHash = r.authTokenHash ∧ registration.entityId = r.entityId

theorem bound_iff (s : Ledger) :
    Bound s ↔ ∀ k r, s.devices.lookup k = some r → Current s r := by
  constructor
  · intro h k r hr hlive
    have hself : s.devices.lookup r.deviceId = some r := by rwa [Table.key_of_lookup hr]
    exact h (.starting r) r.authTokenHash r (getDeviceByTokenHash_starting hself hlive)
  · intro h scan tokenHash d hd
    obtain ⟨hlookup, rfl, hlive⟩ := getDeviceByTokenHash_spec hd
    exact h d.deviceId d hlookup hlive

section Registration
variable {s : Ledger} {now : String} {device : DeviceRow} {t : Devices}
  (ht : ∀ k, t.lookup k = if device.deviceId = k then
    some (deviceUpserted (s.devices.lookup device.deviceId) now device) else s.devices.lookup k)
include ht

/-- The upserted row keeps the old entity under the new token. -/
theorem not_rebinds_of_bound (hbound : Bound ⟨t, device :: s.registrations⟩) :
    ¬ Rebinds s (.registerDevice now device) := by
  rw [bound_iff] at hbound
  rintro ⟨-, r, hr, hlive, hother⟩
  have hrow := ht device.deviceId
  rw [if_pos rfl, hr] at hrow
  obtain ⟨registration, hlatest, -, hentity⟩ := hbound _ _ hrow hlive
  have hnewest : registration = device := by
    simpa [Ledger.latest, deviceUpserted] using hlatest.symm
  exact hother (hentity.symm.trans (by rw [hnewest]))

theorem bound_of_not_rebinds (h : Bound s) (htype : device.deviceType ∈ deviceTypes)
    (hsame : ¬ Rebinds s (.registerDevice now device)) : Bound ⟨t, device :: s.registrations⟩ := by
  rw [bound_iff] at h ⊢
  intro k r hr hlive
  rw [ht k] at hr
  split_ifs at hr with hk
  · cases hr
    refine ⟨device, by simp [Ledger.latest, deviceUpserted], rfl, ?_⟩
    cases hold : s.devices.lookup device.deviceId with
    | none => rfl
    | some old =>
      by_contra hother
      rw [hold] at hlive
      exact hsame ⟨htype, old, hold, hlive, fun heq => hother heq.symm⟩
  · obtain ⟨registration, hlatest, hrest⟩ := h k r hr hlive
    have hid : device.deviceId ≠ r.deviceId := by rwa [Table.key_of_lookup hr]
    exact ⟨registration, by simpa [Ledger.latest, hid] using hlatest, hrest⟩

end Registration

theorem bound_revoke {s : Ledger} (h : Bound s) (now entityId deviceId : String) :
    Bound (call s (.revokeDevice now entityId deviceId)) := by
  rw [bound_iff] at h ⊢
  intro k r hr hlive
  change (revokeDevice s.devices now entityId deviceId).2.lookup k = some r at hr
  rw [lookup_revoke] at hr
  obtain ⟨old, hold, rfl⟩ := Option.map_eq_some_iff.mp hr
  by_cases hp : revocable entityId deviceId old = true
  · rw [Edit.only_of_pos _ hp] at hlive
    cases hlive
  · rw [Edit.only_of_neg _ hp] at hlive ⊢
    exact h k old hold hlive

theorem call_bound_iff {s : Ledger} (h : Bound s) (c : Call) :
    Bound (call s c) ↔ ¬ Rebinds s c := by
  cases c with
  | registerDevice now device =>
    rcases registerDevice_eq s.devices now device with ⟨hrefused, e, hfails⟩ | ⟨htype, t, hok, ht⟩
    · have hsame : call s (.registerDevice now device) = s := by simp only [call, hfails]
      rw [hsame]
      exact iff_of_true h (fun hrebinds => hrefused hrebinds.1)
    · have hcall : call s (.registerDevice now device) = ⟨t, device :: s.registrations⟩ := by
        simp only [call, hok]
      rw [hcall]
      exact ⟨not_rebinds_of_bound ht, bound_of_not_rebinds ht h htype⟩
  | revokeDevice now entityId deviceId =>
    exact iff_of_true (bound_revoke h now entityId deviceId) not_false

/-- Over every sequence of calls lookups stay bound to the latest registrations exactly
    when no live device is registered under another entity. -/
theorem tokens_bound_iff (calls : List Call) :
    Along call (fun s c => Bound (call s c)) ⟨.empty, []⟩ calls ↔
      Along call (fun s c => ¬ Rebinds s c) ⟨.empty, []⟩ calls := by
  refine along_congr (I := Bound) (fun s c _ hc => hc) (fun s c hs => call_bound_iff hs c) ?_
  rw [bound_iff]
  intro k r hr
  cases hr

section Example

def laptop (entityId tokenHash : String) : DeviceRow where
  deviceId := "dev-001"
  entityId := entityId
  deviceName := none
  deviceType := "node"
  authTokenHash := tokenHash
  createdAt := ""
  lastSeenAt := none
  revokedAt := none

def inTableOrder : Scan := ⟨id, fun rows => .refl rows⟩

/-- A device registered by one entity and then by another: the second token finds the
    first entity. -/
theorem second_token_finds_first_entity :
    let s := run call ⟨.empty, []⟩
      [.registerDevice "2026-02-01 00:00:00" (laptop "russell" "abc123hash"),
        .registerDevice "2026-02-02 00:00:00" (laptop "intruder" "def456hash")]
    (getDeviceByTokenHash inTableOrder s.devices "def456hash").map (·.entityId) = some "russell" ∧
      (s.latest "dev-001").map (·.entityId) = some "intruder" ∧ ¬ Bound s := by
  refine ⟨rfl, rfl, fun hbound => ?_⟩
  obtain ⟨registration, hlatest, -, hentity⟩ := hbound inTableOrder "def456hash" _ rfl
  cases hlatest
  revert hentity
  decide

end Example
end CordeliaCore.DeviceTokens
