import CordeliaCore.SeparatedFields
import CordeliaCore.SwarmDescriptors

set_option autoImplicit false

namespace CordeliaCore.DescriptorCanon
open CryptoPrimitives ProtocolMessages Swarm SeparatedFields

def canonical (id culture : String) : Bytes := asBytes (id ++ "\n" ++ culture)

def SameSigned (other desc : GroupDescriptor) : Prop :=
  other.id = desc.id ∧ other.culture = desc.culture ∧ other.updatedAt = desc.updatedAt

/-- Nothing that is signed or hashed for `desc` stands for another descriptor. In the last two
fields the two digests do not collide, and no signature passes for two payloads. -/
structure Unambiguous [Sha256] [Ed25519] (desc : GroupDescriptor) : Prop where
  payload : ∀ other : GroupDescriptor, other.signingPayload = desc.signingPayload →
    SameSigned other desc
  hashed : ∀ id culture, canonical id culture = canonical desc.id desc.culture →
    id = desc.id ∧ culture = desc.culture
  checksum_binds : ∀ other : GroupDescriptor,
    (Sha256.digest (canonical other.id other.culture) = Sha256.digest (canonical desc.id desc.culture) →
      canonical other.id other.culture = canonical desc.id desc.culture) →
    desc.verifyChecksum = true → { other with checksum := desc.checksum }.verifyChecksum = true →
    other.id = desc.id ∧ other.culture = desc.culture
  signature_binds : ∀ (other : GroupDescriptor) (pubkeyHex sigHex : String),
    (∀ key signature, Ed25519.verify key desc.signingPayload signature = true →
      Ed25519.verify key other.signingPayload signature = true →
      other.signingPayload = desc.signingPayload) →
    verifyDescriptorSignature desc pubkeyHex sigHex = true →
    verifyDescriptorSignature other pubkeyHex sigHex = true → SameSigned other desc

def OneLine (s : String) : Prop := '\n' ∉ s.toList

theorem asBytes_eq_iff (s t : String) : asBytes s = asBytes t ↔ s.toList = t.toList := by
  constructor
  · intro h
    have hbytes : s.toList.utf8Encode = t.toList.utf8Encode := congrArg List.toByteArray h
    rw [← String.toByteArray_ofList, ← String.toByteArray_ofList, String.toByteArray_inj,
      String.ofList_toList, String.ofList_toList] at hbytes
    rw [hbytes]
  · intro h
    rw [asBytes, asBytes, h]

theorem hexEncode_injective {a b : Bytes} (h : hexEncode a = hexEncode b) : a = b := by
  have hdecoded := congrArg hexDecode h
  rw [hexDecode_hexEncode, hexDecode_hexEncode] at hdecoded
  exact Option.some.inj hdecoded

def joinedLines (texts : List String) : List Char := ['\n'].intercalate (texts.map String.toList)

theorem canonical_eq_iff (id culture id' culture' : String) :
    canonical id culture = canonical id' culture' ↔
      joinedLines [id, culture] = joinedLines [id', culture'] := by
  have htext (a b : String) : (a ++ "\n" ++ b).toList = joinedLines [a, b] := by
    simp [joinedLines]
  rw [canonical, canonical, asBytes_eq_iff, htext, htext]

theorem signingPayload_eq_iff (a b : GroupDescriptor) :
    a.signingPayload = b.signingPayload ↔
      joinedLines [a.id, a.culture, a.updatedAt] = joinedLines [b.id, b.culture, b.updatedAt] := by
  have htext (d : GroupDescriptor) :
      (d.id ++ "\n" ++ d.culture ++ "\n" ++ d.updatedAt).toList =
        joinedLines [d.id, d.culture, d.updatedAt] := by
    simp [joinedLines]
  rw [GroupDescriptor.signingPayload, GroupDescriptor.signingPayload, asBytes_eq_iff, htext, htext]

theorem texts_eq_of_oneLine {texts other : List String} (hline : ∀ s ∈ texts, OneLine s)
    (hlength : other.length = texts.length) (h : joinedLines other = joinedLines texts) :
    other = texts := by
  have hclean : ∀ field ∈ texts.map String.toList, '\n' ∉ field := by
    intro field hfield
    obtain ⟨s, hs, rfl⟩ := List.mem_map.mp hfield
    exact hline s hs
  have hsame := readable_of_clean '\n' hclean (other.map String.toList) (by simp [hlength]) h
  exact List.map_injective_iff.mpr (fun _ _ => String.toList_inj.mp) hsame

/-- Where a text has a line break inside, other texts join to the same lines. -/
theorem oneLine_of_texts_eq {texts : List String} (htwo : 2 ≤ texts.length)
    (h : ∀ other : List String, other.length = texts.length →
      joinedLines other = joinedLines texts → other = texts) :
    ∀ s ∈ texts, OneLine s := by
  intro s hs
  refine (readable_iff '\n' (by simpa using htwo)).mp (fun fields hlength hjoined => ?_) _
    (List.mem_map_of_mem hs)
  have hback : (fields.map String.ofList).map String.toList = fields := by
    simp [Function.comp_def]
  rw [← h (fields.map String.ofList) (by simpa using hlength) (by
    rw [joinedLines, hback]
    exact hjoined), hback]

theorem sameSigned_of_payload {desc other : GroupDescriptor}
    (hline : ∀ s ∈ [desc.id, desc.culture, desc.updatedAt], OneLine s)
    (h : other.signingPayload = desc.signingPayload) : SameSigned other desc := by
  have htexts : [other.id, other.culture, other.updatedAt] =
      [desc.id, desc.culture, desc.updatedAt] :=
    texts_eq_of_oneLine hline rfl ((signingPayload_eq_iff other desc).mp h)
  simpa [SameSigned] using htexts

theorem same_of_canonical {id culture id' culture' : String}
    (hline : ∀ s ∈ [id, culture], OneLine s) (h : canonical id' culture' = canonical id culture) :
    id' = id ∧ culture' = culture := by
  have htexts : [id', culture'] = [id, culture] :=
    texts_eq_of_oneLine hline rfl ((canonical_eq_iff _ _ _ _).mp h)
  simpa using htexts

theorem canonical_digests_eq [Sha256] {desc other : GroupDescriptor}
    (hdesc : desc.verifyChecksum = true)
    (hother : { other with checksum := desc.checksum }.verifyChecksum = true) :
    Sha256.digest (canonical other.id other.culture) = Sha256.digest (canonical desc.id desc.culture) :=
  hexEncode_injective ((beq_iff_eq.mp hother).symm.trans (beq_iff_eq.mp hdesc))

theorem verified_payload [Ed25519] {desc : GroupDescriptor} {pubkeyHex sigHex : String}
    (h : verifyDescriptorSignature desc pubkeyHex sigHex = true) :
    ∃ key signature, hexDecode pubkeyHex = some key ∧ hexDecode sigHex = some signature ∧
      Ed25519.verify key desc.signingPayload signature = true := by
  unfold verifyDescriptorSignature at h
  split at h
  case h_1 key signature hkey hsig => exact ⟨key, signature, hkey, hsig, h⟩
  case h_2 => exact absurd h Bool.false_ne_true

theorem descriptor_unambiguous_iff [Sha256] [Ed25519] (desc : GroupDescriptor) :
    Unambiguous desc ↔ OneLine desc.id ∧ OneLine desc.culture ∧ OneLine desc.updatedAt := by
  constructor
  · intro h
    have hlines : ∀ s ∈ [desc.id, desc.culture, desc.updatedAt], OneLine s := by
      refine oneLine_of_texts_eq (by simp) (fun other hlength hjoined => ?_)
      obtain ⟨id, culture, updatedAt, rfl⟩ := List.length_eq_three.mp hlength
      obtain ⟨hid, hculture, hat⟩ :=
        h.payload { desc with id := id, culture := culture, updatedAt := updatedAt }
          ((signingPayload_eq_iff _ _).mpr hjoined)
      rw [← hid, ← hculture, ← hat]
    simpa using hlines
  · rintro ⟨hid, hculture, hat⟩
    have hsigned : ∀ s ∈ [desc.id, desc.culture, desc.updatedAt], OneLine s := by
      simp [hid, hculture, hat]
    have hhashed : ∀ s ∈ [desc.id, desc.culture], OneLine s := by
      simp [hid, hculture]
    refine ⟨fun _ => sameSigned_of_payload hsigned, fun _ _ => same_of_canonical hhashed,
      fun other hcollision hdesc hother =>
        same_of_canonical hhashed (hcollision (canonical_digests_eq hdesc hother)),
      fun other pubkeyHex sigHex hforgery hdesc hother => ?_⟩
    obtain ⟨key, signature, hkey, hsig, hverified⟩ := verified_payload hdesc
    obtain ⟨key', signature', hkey', hsig', hverified'⟩ := verified_payload hother
    obtain rfl := Option.some.inj (hkey.symm.trans hkey')
    obtain rfl := Option.some.inj (hsig.symm.trans hsig')
    exact sameSigned_of_payload hsigned (hforgery key signature hverified hverified')

def twoLines : GroupDescriptor where
  id := "seed-drill"
  culture := "chatty\ntaciturn"
  updatedAt := "2026-02-01 00:00:00"
  checksum := @GroupDescriptor.computeChecksum knownDigests "seed-drill" "chatty\ntaciturn"
  ownerId := none
  ownerPubkey := none
  signature := none

/-- The first line of the culture can be read as a second line of the id. -/
theorem line_moves_into_id :
    let := knownDigests
    let := knownSignatures
    let other : GroupDescriptor := { twoLines with id := "seed-drill\nchatty", culture := "taciturn" }
    other.id ≠ twoLines.id ∧ other.signingPayload = twoLines.signingPayload ∧
      twoLines.verifyChecksum = true ∧ other.verifyChecksum = true ∧
      (∀ pubkeyHex sigHex, verifyDescriptorSignature other pubkeyHex sigHex =
        verifyDescriptorSignature twoLines pubkeyHex sigHex) ∧
      ¬ Unambiguous twoLines := by
  intro _ _ other
  have hid : other.id ≠ twoLines.id := by
    change "seed-drill\nchatty" ≠ "seed-drill"
    decide
  have hpayload : other.signingPayload = twoLines.signingPayload := rfl
  refine ⟨hid, hpayload, beq_iff_eq.mpr rfl, beq_iff_eq.mpr rfl, fun pubkeyHex sigHex => ?_,
    fun h => hid (h.payload other hpayload).1⟩
  rw [verifyDescriptorSignature, verifyDescriptorSignature, hpayload]

end CordeliaCore.DescriptorCanon
