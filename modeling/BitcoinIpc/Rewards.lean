import BitcoinIpc.HeedDb
import BitcoinIpc.Lib.Grouping
import BitcoinIpc.Lib.Commits

/-!
# Validator rewards

The reward tracker. At the first block of a snapshot the active subnets become
candidates; a checkpoint that kills a candidate removes it, and one that rotates
its committee lowers the collaterals that are rewarded; at the last block the
collaterals of the candidates are added up.
-/

namespace Rewards

open Faults Chain Messages Crates Multisig Db Grouping Commits

/-- A validated configuration. -/
structure RewardConfig where
  activationHeight : Nat
  snapshotLength : Nat
  length_pos : 0 < snapshotLength
deriving DecidableEq

inductive RewardTrackerError where
  | db (e : DbError)
  | ipcTxInvalid (text : String)
deriving DecidableEq

namespace RewardConfig

/-- Number, first and last height of the snapshot of a height. -/
def snapshotBoundariesFromHeight (c : RewardConfig) (h : Nat) : Option (Nat × Nat × Nat) :=
  if h < c.activationHeight then none
  else
    let snapshot := (h - c.activationHeight) / c.snapshotLength
    let start := c.activationHeight + snapshot * c.snapshotLength
    some (snapshot, start, start + c.snapshotLength - 1)

end RewardConfig

variable (X : Library)

def isActive (db : HeedDb) (heightFrom heightTo : Nat) (s : SubnetState) : Bool :=
  match db.getSubnetGenesisInfo X s.id with
  | none => false
  | some g =>
    g.createMsgBlockHeight ≤ heightFrom &&
    (match g.genesisBlockHeight with
      | none => false
      | some h => h ≤ heightFrom) &&
    (match s.killed with
      | .killed parentHeight => heightTo < parentHeight
      | _ => true)

def getAllActiveSubnets (db : HeedDb) (heightFrom heightTo : Nat) : List SubnetState :=
  db.getAllSubnets.filter (isActive X db heightFrom heightTo)

/-- What stands after the last colon of a key. -/
def lastField (k : Key) : List Char := (k.reverse.takeWhile (fun c => c ≠ ':')).reverse

def iterRewardCandidateInfo (db : HeedDb) (snapshot : Nat) :
    Outcome RewardTrackerError (List (SubnetId × SubnetRewardInfo)) :=
  traverseList (fun e => do
    let s ← okOr (subnetFromStr X (lastField e.1))
      (.db (.invalidChange "invalid subnet_id in reward candidate key: \x7b\x7d"))
    return (s, e.2))
    (db.rewardCandidatesDb.scanEntries (fun k => (rewardCandidatesPrefix snapshot).isPrefixOf k))

def positiveCollaterals (c : SubnetCommittee) : List (XOnlyPublicKey × Amount) :=
  (c.validators.filter (fun v => 0 < v.collateral)).map (fun v => (v.pubkey, v.collateral))

def committeeMissing : RewardTrackerError :=
  .ipcTxInvalid "could not get committee \x7b\x7d for subnet \x7b\x7d at block height \x7b\x7d"

/-- The accumulated amounts, or the collaterals of the committee they start from. -/
def getOrInitRewardAmounts (db : HeedDb) (s : SubnetId) (info : SubnetRewardInfo) :
    Outcome RewardTrackerError (List (XOnlyPublicKey × Amount)) :=
  match info.rewardedAmounts with
  | some l => .ok l
  | none => do
    let c ← okOr (db.getCommittee X s info.mostRecentCommitteeNumber) committeeMissing
    return positiveCollaterals c

/-- The first block of a snapshot: every active subnet becomes a candidate. -/
def storeCandidates (db : HeedDb) (snapshot start stop : Nat) : HeedDb :=
  (getAllActiveSubnets X db start stop).foldl
    (fun db s => db.putRewardCandidateInfo X snapshot s.id ⟨s.committeeNumber, none⟩) db

/-- The last block of a snapshot: the amounts of each key are added up. -/
def finalizeRewards (σ : HashOrder XOnlyPublicKey) (db : HeedDb) (snapshot : Nat) :
    Outcome RewardTrackerError HeedDb := do
  let candidates ← iterRewardCandidateInfo X db snapshot
  let amounts ← traverseList (fun c => getOrInitRewardAmounts X db c.1 c.2) candidates
  let rewards ← traverseList (fun e => do
    let total ← sumAmounts e.2
    return (e.1, total)) (grouped σ amounts.flatten)
  let total ← sumAmounts (rewards.map Prod.snd)
  return db.putSnapshotResult snapshot ⟨rewards, total⟩

def startSnapshot (snapshot start stop blockHeight : Nat) :
    Proc HeedDb RewardTrackerError Unit :=
  if blockHeight = start then do
    let db ← Proc.read
    Proc.commit (storeCandidates X db snapshot start stop)
  else pure ()

def endSnapshot (σ : HashOrder XOnlyPublicKey) (snapshot stop blockHeight : Nat) :
    Proc HeedDb RewardTrackerError Unit :=
  if blockHeight = stop then do
    let db ← Proc.read
    let db ← Proc.lift (finalizeRewards X σ db snapshot)
    Proc.commit db
  else pure ()

def updateAfterBlock (c : RewardConfig) (σ : HashOrder XOnlyPublicKey) (blockHeight : Nat) :
    Proc HeedDb RewardTrackerError Unit :=
  match c.snapshotBoundariesFromHeight blockHeight with
  | none => pure ()
  | some (snapshot, start, stop) => do
    startSnapshot X snapshot start stop blockHeight
    endSnapshot X σ snapshot stop blockHeight

/-- The lower of the rewarded and the new collateral, for the keys that stay. -/
def lowerRewards (rewards new : List (XOnlyPublicKey × Amount)) :
    List (XOnlyPublicKey × Amount) :=
  rewards.filterMap fun (pk, amount) =>
    (valuesAt new pk).getLast?.map (fun a => (pk, min amount a))

/-- A rotation of a candidate's committee. -/
def rotateCandidate (db : HeedDb) (snapshot : Nat) (s : SubnetId) (nextCommitteeNumber : Nat)
    (info : SubnetRewardInfo) : Outcome RewardTrackerError HeedDb := do
  let rewards ← getOrInitRewardAmounts X db s info
  let new ← okOr (db.getCommittee X s nextCommitteeNumber) committeeMissing
  return db.putRewardCandidateInfo X snapshot s
    ⟨nextCommitteeNumber, some (lowerRewards rewards (positiveCollaterals new))⟩

/-- A rotation is taken up only while the subnet is a candidate. -/
def rotateRewards (snapshot : Nat) (s : SubnetId) (nextCommitteeNumber : Nat) :
    Proc HeedDb RewardTrackerError Unit := do
  let db ← Proc.read
  match db.getRewardCandidateInfo X snapshot s with
  | none => pure ()
  | some info =>
    if nextCommitteeNumber = info.mostRecentCommitteeNumber then pure ()
    else do
      let db ← Proc.lift (rotateCandidate X db snapshot s nextCommitteeNumber info)
      Proc.commit db

def removeCandidate (snapshot : Nat) (s : SubnetId) : Proc HeedDb RewardTrackerError Unit := do
  let db ← Proc.read
  Proc.commit (db.deleteRewardCandidateInfo X snapshot s)

def updateAfterCheckpoint (c : RewardConfig) (blockHeight : Nat) (s : SubnetId)
    (checkpoint : SubnetCheckpoint) : Proc HeedDb RewardTrackerError Unit :=
  match c.snapshotBoundariesFromHeight blockHeight with
  | none => pure ()
  | some (snapshot, start, _) =>
    if blockHeight = start then pure ()
    else if checkpoint.isKillCheckpoint then removeCandidate X snapshot s
    else if checkpoint.signedCommitteeNumber = checkpoint.nextCommitteeNumber then pure ()
    else rotateRewards X snapshot s checkpoint.nextCommitteeNumber

end Rewards
