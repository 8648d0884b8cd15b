import CordeliaCore.PeerReplacement
import CordeliaCore.ReplicationEngine
import CordeliaCore.SwarmHandlers

set_option autoImplicit false

namespace CordeliaCore.PeerGovernor

def NodeRole.asStr : NodeRole → String
  | .relay => "relay"
  | .personal => "personal"
  | .keeper => "keeper"

end CordeliaCore.PeerGovernor

namespace CordeliaCore.Config
open ProtocolMessages PeerGovernor PeerPool Replication Swarm GovernorLoop

/-- `str::to_lowercase`. -/
class Lowercase where
  toLowercase : String → String

@[reducible] def asciiLowercase : Lowercase := ⟨String.toLower⟩

structure RelaySection where
  posture : String
  allowedGroups : List String
  blockedGroups : List String
deriving DecidableEq

structure GovernorSection where
  hotMin : ℕ
  hotMax : ℕ
  warmMin : ℕ
  warmMax : ℕ
  coldMax : ℕ
  churnIntervalSecs : ℕ
  churnFraction : ℚ
deriving DecidableEq

def GovernorSection.default : GovernorSection where
  hotMin := 2
  hotMax := 20
  warmMin := 10
  warmMax := 50
  coldMax := 100
  churnIntervalSecs := 3600
  churnFraction := 1 / 5

/-- The fields that the tasks of a node read; the others name files and addresses. -/
structure NodeConfig where
  role : String
  entityId : String
  groups : List String
  bootnodes : List String
  trustedRelays : List String
  governor : GovernorSection
  replication : ReplicationConfig
  relay : Option RelaySection

section Parsing
variable [Lowercase]

def parseRole (s : String) : Except String NodeRole :=
  let lower := Lowercase.toLowercase s
  if lower = "relay" then .ok .relay
  else if lower = "personal" then .ok .personal
  else if lower = "keeper" then .ok .keeper
  else .error ("unknown node role: " ++ lower)

def parsePosture (s : String) : Except String RelayPosture :=
  let lower := Lowercase.toLowercase s
  if lower = "transparent" then .ok .transparent
  else if lower = "dynamic" then .ok .dynamic
  else if lower = "explicit" then .ok .explicit
  else .error ("unknown relay posture: " ++ lower)

end Parsing

namespace NodeConfig
variable [Lowercase] (cfg : NodeConfig)

/-- A role that is none counts as personal. -/
def nodeRole : NodeRole := (parseRole cfg.role).toOption.getD .personal

def relayPosture : RelayPosture :=
  if cfg.nodeRole ≠ .relay then .dynamic
  else (cfg.relay.map (fun r => (parsePosture r.posture).toOption.getD .dynamic)).getD .dynamic

omit [Lowercase] in
def relayAllowedGroups : List String := (cfg.relay.map RelaySection.allowedGroups).getD []

omit [Lowercase] in
def relayBlockedGroups : List String := (cfg.relay.map RelaySection.blockedGroups).getD []

def effectiveGovernorTargets : GovernorSection :=
  match cfg.nodeRole with
  | .personal =>
    { cfg.governor with
      hotMin := min cfg.governor.hotMin 2
      hotMax := min cfg.governor.hotMax 5
      warmMin := min cfg.governor.warmMin 5
      warmMax := min cfg.governor.warmMax 10 }
  | .keeper =>
    { cfg.governor with
      hotMin := min cfg.governor.hotMin 1
      hotMax := min cfg.governor.hotMax 3
      warmMin := min cfg.governor.warmMin 2
      warmMax := min cfg.governor.warmMax 5 }
  | .relay => cfg.governor

def governorTargets : GovernorTargets where
  hotMin := cfg.effectiveGovernorTargets.hotMin
  hotMax := cfg.effectiveGovernorTargets.hotMax
  warmMin := cfg.effectiveGovernorTargets.warmMin
  warmMax := cfg.effectiveGovernorTargets.warmMax
  coldMax := cfg.effectiveGovernorTargets.coldMax
  churnIntervalSecs := cfg.effectiveGovernorTargets.churnIntervalSecs
  churnFraction := cfg.effectiveGovernorTargets.churnFraction

def dialPolicy [Libp2p] : DialPolicy := dialPolicyOf cfg.trustedRelays cfg.nodeRole

def postureOfNode : Option RelayPosture :=
  if cfg.nodeRole = .relay then some cfg.relayPosture else none

/-- The set of accepted groups as the node starts; a transparent relay needs none. -/
def relayAcceptedGroups : Option (List String) :=
  match cfg.postureOfNode with
  | some .dynamic => some []
  | some .explicit => some cfg.relayAllowedGroups
  | _ => none

/-- A dynamic relay learns into the very set it accepts by. -/
def relayLearnedGroups : Option (List String) :=
  if cfg.postureOfNode = some .dynamic then cfg.relayAcceptedGroups else none

def startGovernor [Libp2p] (now : ℕ) (sharedGroups : List String) : Governor :=
  withDialPolicy now cfg.governorTargets sharedGroups cfg.dialPolicy

end NodeConfig
end CordeliaCore.Config
