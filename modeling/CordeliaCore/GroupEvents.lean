import CordeliaCore.ApiHandlers
import CordeliaCore.SwarmDescriptors
import CordeliaCore.Timestamps
import Mathlib.Logic.Relation

set_option autoImplicit false

namespace CordeliaCore.GroupEvents
open CryptoPrimitives ProtocolMessages StorageRows Api Swarm Timestamps Relation

inductive GroupEvent where
  | create (authorization : Option String) (now : Instant) (req : GroupCreateRequest)
  | delete (authorization : Option String) (now : Instant) (groupId : String)
  | addMember (authorization : Option String) (now : Instant) (req : GroupAddMemberRequest)
  | removeMember (authorization : Option String) (now : Instant) (req : GroupRemoveMemberRequest)
  | updatePosture (authorization : Option String) (now : Instant) (req : GroupUpdatePostureRequest)
  | merge (descriptors : List (Instant × GroupDescriptor))
  /-- The two statements of the purge, each at its own reading of the clock. -/
  | gcTick (members groups : Instant) (retentionDays : UInt32)

variable {σ : Type} [Storage σ]

section Handlers
variable [Sha256] [Ed25519] [EarlyDates]

def stamped (descriptors : List (Instant × GroupDescriptor)) : List (String × GroupDescriptor) :=
  descriptors.map (fun d => (d.1.datetime, d.2))

def collectGarbage (storage : σ) (members groups : Instant) (retentionDays : UInt32) : σ :=
  (Storage.purgeDeletedGroups storage (daysAgo members retentionDays.toNat)
    (daysAgo groups retentionDays.toNat) groupTombstoneCulture).2

def handle (s : AppState σ) : GroupEvent → AppState σ
  | .create authorization now req => (groupsCreate s authorization now.datetime req).2
  | .delete authorization now groupId => (groupsDelete s authorization now.datetime groupId).2
  | .addMember authorization now req => (groupsAddMember s authorization now.datetime req).2
  | .removeMember authorization now req => (groupsRemoveMember s authorization now.datetime req).2
  | .updatePosture authorization now req => (groupsUpdatePosture s authorization now.datetime req).2
  | .merge descriptors => { s with storage := (mergeDescriptors s.storage (stamped descriptors)).2 }
  | .gcTick members groups retentionDays =>
    { s with storage := collectGarbage s.storage members groups retentionDays }

end Handlers

section Calls

/-- One call of a method that writes groups or members, stamped by the clock. -/
inductive Writes (s : σ) : σ → Prop where
  | writeGroup {now : Instant} {id name culture policy : String} {t : σ}
      (h : Storage.writeGroup s now.datetime id name culture policy = .ok t) : Writes s t
  | writeGroupSignature {id ownerId ownerPubkey signature : String} {t : σ}
      (h : Storage.writeGroupSignature s id ownerId ownerPubkey signature = .ok t) : Writes s t
  | addMember {now groupId entityId role : String} :
      Writes s (Storage.addMember s now groupId entityId role).2
  | updateMemberPosture {groupId entityId posture : String} {changed : Bool} {t : σ}
      (h : Storage.updateMemberPosture s groupId entityId posture = .ok (changed, t)) : Writes s t
  | removeMember {groupId entityId : String} {changed : Bool} {t : σ}
      (h : Storage.removeMember s groupId entityId = .ok (changed, t)) : Writes s t
  | logAccess {now : String} {entry : AccessLogEntry} {t : σ}
      (h : Storage.logAccess s now entry = .ok t) : Writes s t

abbrev Evolves (s t : σ) : Prop := ReflTransGen Writes s t

theorem removeMembers_evolves (s : σ) (groupId : String) : Evolves s (removeMembers s groupId) := by
  unfold removeMembers
  cases Storage.listMembers s groupId with
  | error e => exact .refl
  | ok members =>
    dsimp only
    induction members generalizing s with
    | nil => exact .refl
    | cons m members ih =>
      rw [List.foldl_cons]
      cases h : Storage.updateMemberPosture s groupId m.entityId "removed" with
      | error e => exact ih s
      | ok updated => exact (ReflTransGen.single (.updateMemberPosture h)).trans (ih updated.2)

theorem logged_evolves (s : σ) (now : String) (entry : AccessLogEntry) :
    Evolves s ((Storage.logAccess s now entry).toOption.getD s) := by
  cases h : Storage.logAccess s now entry with
  | error e => exact .refl
  | ok t => exact .single (.logAccess h)

theorem persistSignature_evolves (s : σ) (desc : GroupDescriptor) :
    Evolves s (persistSignature s desc) := by
  unfold persistSignature
  cases signatureFields desc with
  | none => exact .refl
  | some fields =>
    dsimp only
    cases h : Storage.writeGroupSignature s desc.id fields.1 fields.2.1 fields.2.2 with
    | error e => exact .refl
    | ok t => exact .single (.writeGroupSignature h)

theorem writeDescriptor_evolves (s : σ) (now : Instant) (localName : String)
    (desc : GroupDescriptor) : Evolves s (writeDescriptor s now.datetime localName desc).2 := by
  unfold writeDescriptor
  cases h : Storage.writeGroup s now.datetime desc.id localName desc.culture "{}" with
  | error e => exact .refl
  | ok t =>
    have hsigned := (ReflTransGen.single (.writeGroup h)).trans (persistSignature_evolves t desc)
    dsimp only
    split_ifs
    · exact hsigned.trans (removeMembers_evolves _ _)
    · exact hsigned

section Merges
variable [Sha256] [Ed25519]

theorem mergeDescriptor_evolves (s : σ) (now : Instant) (desc : GroupDescriptor) :
    Evolves s (mergeDescriptor s now.datetime desc).2 := by
  unfold mergeDescriptor
  split_ifs
  · exact .refl
  · exact .refl
  · exact .refl
  · split
    · split_ifs
      · exact .refl
      · exact .refl
      · exact writeDescriptor_evolves s now _ desc
    · exact writeDescriptor_evolves s now _ desc

theorem mergeDescriptors_evolves (s : σ) (descriptors : List (Instant × GroupDescriptor)) :
    Evolves s (mergeDescriptors s (stamped descriptors)).2 := by
  unfold mergeDescriptors stamped
  generalize (⟨[], []⟩ : MergeResult) = result
  induction descriptors generalizing s result with
  | nil => exact .refl
  | cons d descriptors ih => exact (mergeDescriptor_evolves s d.1 d.2).trans (ih _ _)

end Merges

theorem groupsCreate_evolves (s : AppState σ) (authorization : Option String) (now : Instant)
    (req : GroupCreateRequest) :
    Evolves s.storage (groupsCreate s authorization now.datetime req).2.storage := by
  unfold groupsCreate
  cases checkAuth s authorization with
  | some refused => exact .refl
  | none =>
    dsimp only
    cases h : Storage.writeGroup s.storage now.datetime req.groupId req.name req.culture
      req.securityPolicy with
    | error e => exact .refl
    | ok t => exact .single (.writeGroup h)

theorem groupsDelete_evolves (s : AppState σ) (authorization : Option String) (now : Instant)
    (groupId : String) :
    Evolves s.storage (groupsDelete s authorization now.datetime groupId).2.storage := by
  unfold groupsDelete
  cases checkAuth s authorization with
  | some refused => exact .refl
  | none =>
    dsimp only
    split
    · exact .refl
    · exact .refl
    · cases h : Storage.writeGroup s.storage now.datetime groupId groupId groupTombstoneCulture
        "{}" with
      | error e => exact .refl
      | ok t =>
        exact ((ReflTransGen.single (.writeGroup h)).trans (removeMembers_evolves t groupId)).trans
          (logged_evolves _ _ _)

theorem groupsAddMember_evolves (s : AppState σ) (authorization : Option String) (now : Instant)
    (req : GroupAddMemberRequest) :
    Evolves s.storage (groupsAddMember s authorization now.datetime req).2.storage := by
  unfold groupsAddMember
  cases checkAuth s authorization with
  | some refused => exact .refl
  | none =>
    dsimp only
    split_ifs
    swap
    · exact .refl
    have hadded : Evolves s.storage
        (Storage.addMember s.storage now.datetime req.groupId req.entityId req.role).2 :=
      .single .addMember
    split
    · next heq =>
      rw [heq] at hadded
      exact hadded.trans (logged_evolves _ _ _)
    · next heq =>
      rw [heq] at hadded
      exact hadded

theorem memberChanged_evolves (s : AppState σ) (now : String) (entry : AccessLogEntry)
    {result : Except StorageError (Bool × σ)}
    (h : ∀ changed t, result = .ok (changed, t) → Writes s.storage t) :
    Evolves s.storage (memberChanged s now entry result).2.storage := by
  unfold memberChanged
  split
  · next t =>
    exact (ReflTransGen.single (h true t rfl)).trans (logged_evolves t now entry)
  · next t => exact .single (h false t rfl)
  · exact .refl

theorem handle_evolves [Sha256] [Ed25519] [EarlyDates] (s : AppState σ) {event : GroupEvent}
    (h : ∀ members groups days, event ≠ .gcTick members groups days) :
    Evolves s.storage (handle s event).storage := by
  cases event with
  | create authorization now req => exact groupsCreate_evolves s authorization now req
  | delete authorization now groupId => exact groupsDelete_evolves s authorization now groupId
  | addMember authorization now req => exact groupsAddMember_evolves s authorization now req
  | removeMember authorization now req =>
    change Evolves s.storage (groupsRemoveMember s authorization now.datetime req).2.storage
    unfold groupsRemoveMember
    cases checkAuth s authorization with
    | some refused => exact .refl
    | none => exact memberChanged_evolves s _ _ (fun changed t ht => .removeMember ht)
  | updatePosture authorization now req =>
    change Evolves s.storage (groupsUpdatePosture s authorization now.datetime req).2.storage
    unfold groupsUpdatePosture
    cases checkAuth s authorization with
    | some refused => exact .refl
    | none =>
      dsimp only
      split_ifs
      · exact memberChanged_evolves s _ _ (fun changed t ht => .updateMemberPosture ht)
      · exact .refl
  | merge descriptors => exact mergeDescriptors_evolves s.storage descriptors
  | gcTick members groups days => exact absurd rfl (h members groups days)

end Calls
end CordeliaCore.GroupEvents
