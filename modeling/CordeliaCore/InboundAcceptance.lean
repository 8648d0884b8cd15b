import CordeliaCore.InboundTasks

set_option autoImplicit false

namespace CordeliaCore.InboundAcceptance
open CryptoPrimitives ProtocolMessages StorageRows StorageSqlite StepRuns
open Replication ReplicationEngine SqliteStorage Swarm Api InboundTasks
open ReplicationLoop hiding step

section Policy
variable (settings : Settings)

def Permits (groupId : String) : Prop :=
  groupId ∉ settings.relayBlockedGroups ∧
    (settings.relayPosture = some .explicit → groupId ∈ settings.relayAllowedGroups)

structure PushSound (task : PushTask) : Prop where
  relay : task.relayAccepts.isSome = settings.relayPosture.isSome
  permits : ∀ check ∈ task.relayAccepts, ∀ g, check g = true → Permits settings g

structure SyncSound (task : SyncTask) : Prop where
  acceptSet : task.relayAcceptSet = relayAcceptSet settings.loopConfig task.ourGroups
  shared : settings.relayPosture = none → ∀ g ∈ task.ourGroups, g ∈ task.snapshot
  unblocked : task.path = .periodic → ∀ g ∈ task.ourGroups, g ∉ settings.relayBlockedGroups
  bootstrap : task.path = .bootstrap → task.ourGroups = task.snapshot

structure Sound (s : Node) : Prop where
  push : ∀ task ∈ s.push, PushSound settings task
  sync : ∀ task ∈ s.sync, SyncSound settings task

theorem relayCheck_permits {posture : RelayPosture} (hposture : settings.relayPosture = some posture)
    (s : Node) (lockHeld : Bool) (peers : List String) {g : String}
    (h : relayCheck posture (s.pushContext settings lockHeld peers).acceptedSnap
      settings.relayBlockedGroups g = true) : Permits settings g := by
  unfold relayCheck at h
  split_ifs at h with hblocked htransparent
  · refine ⟨by simpa using hblocked, fun hexplicit => ?_⟩
    rw [hposture, htransparent] at hexplicit
    cases hexplicit
  · refine ⟨by simpa using hblocked, fun hexplicit => ?_⟩
    unfold PushContext.acceptedSnap Node.pushContext Settings.relayAcceptedGroups at h
    rw [hexplicit] at h
    cases lockHeld
    · simpa using h
    · simp at h

theorem beginPush_sound (s : Node) (request : MemoryPushRequest) (lockHeld : Bool) :
    PushSound settings (beginPush settings s request lockHeld) := by
  constructor
  · exact Option.isSome_map
  · intro check hcheck g hg
    obtain ⟨posture, hposture, rfl⟩ := Option.map_eq_some_iff.mp hcheck
    exact relayCheck_permits settings hposture s lockHeld [] hg

variable [Sha256]

theorem beginTick_sound (s : Node) (env : Surroundings) :
    SyncSound settings (beginTick settings s env) where
  acceptSet := rfl
  shared hnone g hg := by
    have hmember : settings.loopConfig.isRelay = false := by
      unfold Settings.loopConfig
      rw [hnone]
      rfl
    unfold beginTick currentGroups at hg
    rw [hmember] at hg
    exact (List.mem_filter.mp hg).1
  unblocked _ g hg := by
    have hkept := (List.mem_filter.mp hg).2
    change g ∉ settings.loopConfig.relayBlockedGroups
    simpa using hkept
  bootstrap h := by cases h

omit [Sha256] in
theorem beginBootstrap_sound (s : Node) : SyncSound settings (beginBootstrap settings s) where
  acceptSet := rfl
  shared _ _ hg := hg
  unblocked h := by cases h
  bootstrap _ := rfl

theorem step_pushItem_sound (s : Node) (now : String) (h : Sound settings s) :
    Sound settings (step settings s (.pushItem now)) := by
  unfold step
  cases hpush : s.push with
  | none => exact h
  | some task =>
    obtain ⟨snapshot, relayAccepts, remaining⟩ := task
    have hsound := h.push _ hpush
    cases remaining with
    | nil =>
      refine ⟨fun task htask => ?_, h.sync⟩
      cases htask
    | cons item remaining =>
      refine ⟨fun task htask => ?_, h.sync⟩
      cases htask
      exact ⟨hsound.relay, hsound.permits⟩

theorem step_syncItem_sound (s : Node) (now : String) (h : Sound settings s) :
    Sound settings (step settings s (.syncItem now)) := by
  unfold step
  cases hsync : s.sync with
  | none => exact h
  | some task =>
    obtain ⟨path, snapshot, ourGroups, acceptSet, fetched⟩ := task
    have hsound := h.sync _ hsync
    cases fetched with
    | nil => exact h
    | cons item fetched =>
      refine ⟨h.push, fun task htask => ?_⟩
      cases htask
      exact ⟨hsound.acceptSet, hsound.shared, hsound.unblocked, hsound.bootstrap⟩

theorem step_sound (s : Node) (e : Event) (h : Sound settings s) : Sound settings (step settings s e) := by
  cases e with
  | pushArrives request lockHeld =>
    unfold step
    cases hpush : s.push with
    | some task => exact h
    | none =>
      refine ⟨fun task htask => ?_, h.sync⟩
      cases htask
      exact beginPush_sound settings s request lockHeld
  | pushItem now => exact step_pushItem_sound settings s now h
  | syncTick env =>
    unfold step
    cases hsync : s.sync with
    | some task => exact h
    | none =>
      refine ⟨h.push, fun task htask => ?_⟩
      cases htask
      exact beginTick_sound settings s env
  | bootstrap =>
    unfold step
    dsimp only
    split
    · refine ⟨h.push, fun task htask => ?_⟩
      cases htask
      exact beginBootstrap_sound settings s
    · exact h
  | fetched items =>
    refine ⟨h.push, fun task htask => ?_⟩
    obtain ⟨old, hold, rfl⟩ := Option.map_eq_some_iff.mp htask
    have hsound := h.sync old hold
    exact ⟨hsound.acceptSet, hsound.shared, hsound.unblocked, hsound.bootstrap⟩
  | syncItem now => exact step_syncItem_sound settings s now h
  | syncEnds =>
    refine ⟨h.push, fun task htask => h.sync task ?_⟩
    exact (Option.filter_eq_some_iff.mp htask).1
  | elsewhere app learned => exact ⟨h.push, h.sync⟩

omit [Sha256] in
theorem start_sound (app : AppState SqliteStorage) (learned : List String) :
    Sound settings (.start app learned) :=
  ⟨fun _ htask => (by cases htask), fun _ htask => (by cases htask)⟩

end Policy

section Received
variable {settings : Settings} {s : Node}

theorem received_pushItem {now : String} {x : Inbound} (h : received s (.pushItem now) = some x) :
    ∃ task, s.push = some task ∧ task.remaining.head? = some x.item ∧ x.snapshot = task.snapshot ∧
      x.ourGroups = task.snapshot ∧ x.relayAccepts = task.relayAccepts := by
  obtain ⟨task, htask, hitem⟩ := Option.bind_eq_some_iff.mp h
  obtain ⟨item, hhead, rfl⟩ := Option.map_eq_some_iff.mp hitem
  exact ⟨task, htask, hhead, rfl, rfl, rfl⟩

theorem received_syncItem {now : String} {x : Inbound} (h : received s (.syncItem now) = some x) :
    ∃ task, s.sync = some task ∧ task.fetched.head? = some x.item ∧ x.snapshot = task.snapshot ∧
      x.ourGroups = task.ourGroups ∧ x.relayAccepts = relayFn task.relayAcceptSet := by
  obtain ⟨task, htask, hitem⟩ := Option.bind_eq_some_iff.mp h
  obtain ⟨item, hhead, rfl⟩ := Option.map_eq_some_iff.mp hitem
  exact ⟨task, htask, hhead, rfl, rfl, rfl⟩

theorem SyncSound.relayFn_eq {task : SyncTask} (h : SyncSound settings task) :
    relayFn task.relayAcceptSet =
      if settings.relayPosture.isSome then some (fun g => task.ourGroups.contains g) else none := by
  rw [h.acceptSet]
  unfold relayAcceptSet relayFn Settings.loopConfig
  dsimp only
  split_ifs <;> rfl

end Received

section Members
variable [Sha256] (settings : Settings)

/-- A step of the inbound paths that meets no message of its task's groups leaves
    the items as they were. -/
def OwnGroupsOnly (s : Node) (e : Event) : Prop :=
  (∀ app learned, e ≠ .elsewhere app learned) →
    (∀ x ∈ received s e, x.item.groupId ∉ x.snapshot) →
      (step settings s e).app.storage.l2Items = s.app.storage.l2Items

omit [Sha256] in
theorem member_accepts {s : Node} (hs : Sound settings s) (hmember : settings.relayPosture = none)
    {e : Event} {x : Inbound} (h : received s e = some x) :
    x.relayAccepts = none ∧ ∀ g ∈ x.ourGroups, g ∈ x.snapshot := by
  cases e with
  | pushItem now =>
    obtain ⟨task, htask, _, hsnap, hours, haccepts⟩ := received_pushItem h
    have hrelay := (hs.push task htask).relay
    rw [hmember] at hrelay
    rw [haccepts, hours, hsnap]
    exact ⟨by simpa using hrelay, fun g hg => hg⟩
  | syncItem now =>
    obtain ⟨task, htask, _, hsnap, hours, haccepts⟩ := received_syncItem h
    have hsound := hs.sync task htask
    rw [haccepts, hours, hsnap, hsound.relayFn_eq, hmember]
    exact ⟨rfl, hsound.shared hmember⟩
  | pushArrives request lockHeld => cases h
  | syncTick env => cases h
  | bootstrap => cases h
  | fetched items => cases h
  | syncEnds => cases h
  | elsewhere app learned => cases h

theorem ownGroupsOnly_of_sound {s : Node} (hs : Sound settings s)
    (hmember : settings.relayPosture = none) (e : Event) : OwnGroupsOnly settings s e := by
  intro helse hforeign
  rw [step_storage settings s e helse]
  cases hx : received s e with
  | none => rfl
  | some x =>
    obtain ⟨hnone, hsub⟩ := member_accepts settings hs hmember hx
    have hrefused : groupAccepted x.ourGroups x.relayAccepts x.item.groupId = false := by
      rw [hnone]
      simpa [groupAccepted] using fun hg => hforeign x hx (hsub _ hg)
    dsimp only
    rw [onReceive_of_not_accepted _ _ _ _ _ hrefused]

/-- In every run of a node that is no relay, whatever peers send and answer. -/
theorem members_store_only_their_groups (app : AppState SqliteStorage) (learned : List String)
    (events : List Event) :
    Along (step { settings with relayPosture := none })
      (OwnGroupsOnly { settings with relayPosture := none }) (.start app learned) events :=
  along_of_guard (I := Sound { settings with relayPosture := none }) (G := fun _ _ => True)
    (fun s e hs _ => step_sound _ s e hs) (fun _ e hs _ => ownGroupsOnly_of_sound _ hs rfl e)
    (start_sound _ app learned) (along_of_mem (fun _ _ _ => trivial) _)

end Members

section Relays
variable [Sha256] (settings : Settings)

def StoresPermitted (s : Node) (e : Event) : Prop :=
  ∀ x ∈ received s e,
    (onReceive s.app.storage e.clock x.item x.ourGroups x.relayAccepts).1 = .stored →
      Permits settings x.item.groupId

/-- A sync is about to receive an item that the store would take, of a blocked
    group that was shared when a bootstrap sync began, or of a group in the list
    of an explicit relay's sync that the relay does not allow. -/
def SlipsIn (s : Node) : Event → Prop
  | .syncItem _ => ∃ task ∈ s.sync, ∃ item ∈ task.fetched.head?, Applicable s.app.storage item ∧
    (task.path = .bootstrap ∧ item.groupId ∈ task.snapshot ∧
        item.groupId ∈ settings.relayBlockedGroups ∨
      settings.relayPosture = some .explicit ∧ item.groupId ∈ task.ourGroups ∧
        item.groupId ∉ settings.relayAllowedGroups)
  | _ => False

variable {settings}

omit [Sha256] in
/-- What a sync lets through against the policy is one of the two slips. -/
theorem not_permits_iff {task : SyncTask} (hsound : SyncSound settings task) (g : String) :
    g ∈ task.ourGroups ∧ ¬ Permits settings g ↔
      task.path = .bootstrap ∧ g ∈ task.snapshot ∧ g ∈ settings.relayBlockedGroups ∨
        settings.relayPosture = some .explicit ∧ g ∈ task.ourGroups ∧
          g ∉ settings.relayAllowedGroups := by
  unfold Permits
  cases hpath : task.path with
  | periodic =>
    have hclear := hsound.unblocked hpath g
    simp only [reduceCtorEq, false_and, false_or]
    tauto
  | bootstrap =>
    rw [hsound.bootstrap hpath]
    simp only [true_and]
    tauto

variable {s : Node} (hs : Sound settings s) (hrelay : settings.relayPosture.isSome)
include hs hrelay

theorem pushItem_storesPermitted (now : String) : StoresPermitted settings s (.pushItem now) := by
  intro x hx hstored
  obtain ⟨task, htask, _, _, _, haccepts⟩ := received_pushItem hx
  have hsound := hs.push task htask
  obtain ⟨check, hcheck⟩ := Option.isSome_iff_exists.mp (hsound.relay.trans hrelay)
  have haccepted := ((onReceive_stored_iff_applicable _ _ _ _ _).mp hstored).1
  rw [haccepts, hcheck] at haccepted
  exact hsound.permits check hcheck _ haccepted

theorem syncItem_storesPermitted_iff (now : String) :
    StoresPermitted settings s (.syncItem now) ↔ ¬ SlipsIn settings s (.syncItem now) := by
  constructor
  · rintro h ⟨task, htask, item, hitem, happlies, hslip⟩
    obtain ⟨hours, hnot⟩ := (not_permits_iff (hs.sync task htask) _).mpr hslip
    have hx : received s (.syncItem now) =
        some ⟨item, task.snapshot, task.ourGroups, relayFn task.relayAcceptSet⟩ := by
      unfold received
      rw [Option.mem_def.mp htask, Option.bind_some, Option.mem_def.mp hitem, Option.map_some]
    refine hnot (h _ hx ((onReceive_stored_iff_applicable _ _ _ _ _).mpr ⟨?_, happlies⟩))
    rw [(hs.sync task htask).relayFn_eq, if_pos hrelay]
    simpa [groupAccepted] using hours
  · intro hslip x hx hstored
    obtain ⟨task, htask, hhead, _, hours, haccepts⟩ := received_syncItem hx
    obtain ⟨haccepted, happlies⟩ := (onReceive_stored_iff_applicable _ _ _ _ _).mp hstored
    have hmem : x.item.groupId ∈ task.ourGroups := by
      rw [haccepts, (hs.sync task htask).relayFn_eq, if_pos hrelay] at haccepted
      simpa [groupAccepted] using haccepted
    by_contra hnot
    exact hslip ⟨task, htask, x.item, hhead, happlies,
      (not_permits_iff (hs.sync task htask) _).mp ⟨hmem, hnot⟩⟩

theorem storesPermitted_iff (e : Event) : StoresPermitted settings s e ↔ ¬ SlipsIn settings s e := by
  cases e with
  | pushItem now => exact iff_of_true (pushItem_storesPermitted hs hrelay now) id
  | syncItem now => exact syncItem_storesPermitted_iff hs hrelay now
  | pushArrives request lockHeld => exact iff_of_true (fun x hx => by cases hx) id
  | syncTick env => exact iff_of_true (fun x hx => by cases hx) id
  | bootstrap => exact iff_of_true (fun x hx => by cases hx) id
  | fetched items => exact iff_of_true (fun x hx => by cases hx) id
  | syncEnds => exact iff_of_true (fun x hx => by cases hx) id
  | elsewhere app learned => exact iff_of_true (fun x hx => by cases hx) id

end Relays

/-- A run of a relay stores permitted groups only, just when no sync lets an item slip in. -/
theorem relays_store_permitted_iff [Sha256] (settings : Settings) (posture : RelayPosture)
    (app : AppState SqliteStorage) (learned : List String) (events : List Event) :
    Along (step { settings with relayPosture := some posture })
        (StoresPermitted { settings with relayPosture := some posture }) (.start app learned) events ↔
      Along (step { settings with relayPosture := some posture })
        (fun s e => ¬ SlipsIn { settings with relayPosture := some posture } s e)
        (.start app learned) events :=
  along_congr (I := Sound { settings with relayPosture := some posture })
    (fun s e hs _ => step_sound _ s e hs) (fun _ e hs => storesPermitted_iff hs rfl e)
    (start_sound _ app learned)

section Example

def backbone : Settings := ⟨⟨.default, "relay"⟩, some .transparent, [], ["blacklisted"]⟩

def relayApp : AppState SqliteStorage := ⟨createNew, "relay", "token", none, some [], some []⟩

def blockedNote [Sha256] : FetchedItem :=
  { noteVersion "a" "2026-02-01 00:00:00" with groupId := "blacklisted" }

def bootstrapOfBlocked [Sha256] : List Event :=
  [.elsewhere (groupsCreate relayApp (some "Bearer token") "2026-02-02 00:00:00"
      ⟨"blacklisted", "Blacklisted", "chatty", "{}"⟩).2 [],
    .bootstrap, .fetched [blockedNote], .syncItem "2026-02-02 00:00:01"]

theorem bootstrap_stores_blocked_note :
    ¬ ∃ _ : Sha256, Along (step backbone) (StoresPermitted backbone) (.start relayApp [])
      bootstrapOfBlocked := by
  rintro ⟨_, h⟩
  have hlast := h.2.2.2.1
  have hsize : (asBytes "a").length ≤ maxItemBytes := by decide
  have happlies : Applicable
      (run (step backbone) (.start relayApp []) (bootstrapOfBlocked.take 3)).app.storage blockedNote := by
    refine ⟨hsize, .inr ⟨noteVersion_wellFormed "a" "2026-02-01 00:00:00", fun e he => ?_⟩⟩
    cases he
  have hpermits := hlast ⟨blockedNote, ["blacklisted"], ["blacklisted"], relayFn (some ["blacklisted"])⟩
    rfl ((onReceive_stored_iff_applicable _ _ _ _ _).mpr ⟨by rfl, happlies⟩)
  have hblocked : "blacklisted" ∈ backbone.relayBlockedGroups := by decide
  exact hpermits.1 hblocked

end Example
end CordeliaCore.InboundAcceptance
