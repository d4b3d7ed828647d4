import BitcoinIpc.Multisig

/-!
# Records of the database

The records the monitor stores, with the operations on committees, subnet states
and genesis infos.
-/

namespace Db

open Faults Bytes Chain Messages Crates Multisig

structure SubnetValidator where
  pubkey : XOnlyPublicKey
  subnetAddress : EthAddress
  power : Power
  collateral : Amount
  backupAddress : Address
  ip : SocketAddr
  joinTxid : Txid
deriving DecidableEq

structure SubnetCommittee where
  configurationNumber : Nat
  threshold : Power
  validators : List SubnetValidator
  multisigAddress : Address
deriving DecidableEq

def genesisCommitteeConfNum : Nat := 0

namespace SubnetValidators

variable (X : Library) {ε : Type}

def weightedKeys (vs : List SubnetValidator) : List WeightedKey :=
  vs.map (fun v => (v.pubkey, v.power))

def totalPower (vs : List SubnetValidator) : Outcome ε Power := sumPower (vs.map (·.power))

def threshold (vs : List SubnetValidator) : Outcome ε Power := do
  multisigThreshold (← totalPower vs)

/-- The address of the validators; the `expect` of the source makes every failure a panic. -/
def multisigAddress (vs : List SubnetValidator) (subnetId : SubnetId) : Outcome ε Address := do
  let t ← threshold vs
  expectOk (createSubnetMultisigAddress X subnetId (weightedKeys vs) t)

def toCommittee (vs : List SubnetValidator) (subnetId : SubnetId) (configurationNumber : Nat) :
    Outcome ε SubnetCommittee := do
  let t ← threshold vs
  let a ← multisigAddress X vs subnetId
  return ⟨configurationNumber, t, vs, a⟩

def addValidator (vs : List SubnetValidator) (v : SubnetValidator) :
    Outcome DbError (List SubnetValidator) := do
  ensure (¬ vs.any (fun w => w.pubkey = v.pubkey))
    (.invalidChange "Validator with public key \x7b\x7d already exists")
  return vs ++ [v]

/-- Removal of the first validator with the key. -/
def removeValidator (vs : List SubnetValidator) (pubkey : XOnlyPublicKey) :
    Outcome DbError (List SubnetValidator) := do
  let position ← okOr (vs.findIdx? (fun w => w.pubkey = pubkey))
    (.invalidChange "Validator with public key \x7b\x7d not found")
  return vs.eraseIdx position

end SubnetValidators

namespace SubnetCommittee

variable (X : Library)

/-- `PartialEq`: committees are compared by their multisig address alone. -/
def sameAs (a b : SubnetCommittee) : Bool := a.multisigAddress == b.multisigAddress

def isValidator (c : SubnetCommittee) (pubkey : XOnlyPublicKey) : Bool :=
  c.validators.any (fun v => v.pubkey = pubkey)

def findValidator (c : SubnetCommittee) (pubkey : XOnlyPublicKey) : Option SubnetValidator :=
  c.validators.find? (fun v => v.pubkey = pubkey)

def validatorWeightedKeys (c : SubnetCommittee) : List WeightedKey :=
  SubnetValidators.weightedKeys c.validators

def totalPower {ε : Type} (c : SubnetCommittee) : Outcome ε Power :=
  SubnetValidators.totalPower c.validators

/-- The committee with new validators, its threshold and address recomputed. -/
def rebuilt (c : SubnetCommittee) (subnetId : SubnetId) (configurationNumber : Nat)
    (vs : List SubnetValidator) : Outcome DbError SubnetCommittee := do
  let t ← SubnetValidators.threshold vs
  let a ← SubnetValidators.multisigAddress X vs subnetId
  return { c with
    configurationNumber := configurationNumber, threshold := t, validators := vs,
    multisigAddress := a }

def joinNewValidator (c : SubnetCommittee) (subnetId : SubnetId) (v : SubnetValidator) :
    Outcome DbError SubnetCommittee := do
  let vs ← SubnetValidators.addValidator c.validators v
  c.rebuilt X subnetId (c.configurationNumber + 2) vs

def modifyValidator (c : SubnetCommittee) (subnetId : SubnetId) (v : SubnetValidator) :
    Outcome DbError SubnetCommittee := do
  let position ← okOr (c.validators.findIdx? (fun w => w.pubkey = v.pubkey))
    (.invalidChange "Validator \x7b\x7d not found in committee")
  c.rebuilt X subnetId (c.configurationNumber + 1) (c.validators.set position v)

def removeValidator (c : SubnetCommittee) (subnetId : SubnetId) (pubkey : XOnlyPublicKey) :
    Outcome DbError SubnetCommittee := do
  let vs ← SubnetValidators.removeValidator c.validators pubkey
  c.rebuilt X subnetId (c.configurationNumber + 1) vs

end SubnetCommittee

structure SubnetCheckpoint where
  checkpointNumber : Nat
  checkpointHash : FixedBytes 32
  checkpointHeight : Nat
  blockHeight : Nat
  txid : Txid
  batchTransferTxid : Option Txid
  batchTransferBlockHeight : Option Nat
  signedCommitteeNumber : Nat
  nextCommitteeNumber : Nat
  nextConfigurationNumber : Nat
  isKillCheckpoint : Bool
deriving DecidableEq

inductive SubnetKillState where
  | notKilled
  | toBeKilled
  | killed (parentHeight : Nat)
deriving DecidableEq

structure SubnetState where
  id : SubnetId
  committeeNumber : Nat
  committee : SubnetCommittee
  waitingCommittee : Option SubnetCommittee
  lastCheckpointNumber : Option Nat
  killed : SubnetKillState
  markedForKillCheckpointNumber : Option Nat
deriving DecidableEq

def killRequestValidBlocks : Nat := 36
def killPeriodNumberOfCheckpoints : Nat := 5

namespace SubnetState

def totalCollateral {ε : Type} (s : SubnetState) : Outcome ε Amount :=
  sumAmounts (s.committee.validators.map (·.collateral))

def isValidator (s : SubnetState) (pubkey : XOnlyPublicKey) : Bool :=
  s.committee.isValidator pubkey

def latestCommittee (s : SubnetState) : SubnetCommittee := s.waitingCommittee.getD s.committee

def rotateToCommittee (s : SubnetState) (new : SubnetCommittee) : SubnetState :=
  if s.committee.sameAs new then s
  else
    { s with
      waitingCommittee :=
        if s.waitingCommittee.any (fun wc => wc.sameAs new) then none else s.waitingCommittee
      committee := new
      committeeNumber := s.committeeNumber + 1 }

def isKilled (s : SubnetState) : Bool :=
  match s.killed with
  | .killed _ => true
  | _ => false

def isKilledOrPending (s : SubnetState) : Bool := s.killed ≠ .notKilled

/-- The delay rule; the subtraction of the source panics when it underflows. -/
def shouldKill {ε : Type} (s : SubnetState) : Outcome ε Bool :=
  if s.killed = .toBeKilled then
    match s.lastCheckpointNumber, s.markedForKillCheckpointNumber with
    | none, _ => .ok false
    | some last, some marked => do
      assertThat (marked ≤ last)
      return decide (killPeriodNumberOfCheckpoints ≤ last - marked)
    | some last, none => .ok (decide (killPeriodNumberOfCheckpoints ≤ last + 1))
  else .ok false

end SubnetState

structure GenesisBalanceEntry where
  subnetAddress : EthAddress
  amount : Amount
  prefundTxid : Txid
  blockHeight : Nat
deriving DecidableEq

structure SubnetGenesisInfo where
  subnetId : SubnetId
  createSubnetMsg : IpcCreateSubnetMsg
  createMsgBlockHeight : Nat
  bootstrapped : Bool
  genesisBlockHeight : Option Nat
  genesisValidators : List SubnetValidator
  genesisBalanceEntries : List GenesisBalanceEntry
deriving DecidableEq

namespace SubnetGenesisInfo

variable (X : Library)

/-- The number of validators is compared after its cast to 16 bits. -/
def enoughToBootstrap (g : SubnetGenesisInfo) : Bool :=
  g.createSubnetMsg.minValidators ≤ g.genesisValidators.length % 2 ^ 16

/-- Address of the whitelist, every key with weight one. -/
def multisigAddress {ε : Type} (g : SubnetGenesisInfo) : Outcome ε Address :=
  expectOk (createSubnetMultisigAddress X g.subnetId
    (g.createSubnetMsg.whitelist.map (fun k => (k, 1))) g.createSubnetMsg.minValidators)

def toSubnet {ε : Type} (g : SubnetGenesisInfo) : Outcome ε SubnetState := do
  let committee ← SubnetValidators.toCommittee X g.genesisValidators g.subnetId
    genesisCommitteeConfNum
  return ⟨g.subnetId, 1, committee, none, none, .notKilled, none⟩

def addGenesisBalanceEntry (g : SubnetGenesisInfo) (subnetAddress : EthAddress)
    (amount : Amount) (prefundTxid : Txid) (blockHeight : Nat) : SubnetGenesisInfo :=
  { g with genesisBalanceEntries :=
      g.genesisBalanceEntries ++ [⟨subnetAddress, amount, prefundTxid, blockHeight⟩] }

end SubnetGenesisInfo

inductive RootnetMessage where
  | fundSubnet (msg : IpcFundSubnetMsg) (blockHeight : Nat) (blockHash : BlockHash)
      (nonce : Nat) (txid : Txid)
  | ercTransfer (msg : IpcCrossSubnetErcTransfer) (blockHeight : Nat) (blockHash : BlockHash)
      (nonce : Nat) (txid : Txid)
  | ercRegistration (homeSubnetId : SubnetId) (registration : IpcErcTokenRegistration)
      (blockHeight : Nat) (blockHash : BlockHash) (nonce : Nat) (txid : Txid)
deriving DecidableEq

def RootnetMessage.nonce : RootnetMessage → Nat
  | .fundSubnet _ _ _ n _ => n
  | .ercTransfer _ _ _ n _ => n
  | .ercRegistration _ _ _ _ n _ => n

def RootnetMessage.blockHeight : RootnetMessage → Nat
  | .fundSubnet _ h _ _ _ => h
  | .ercTransfer _ h _ _ _ => h
  | .ercRegistration _ _ h _ _ _ => h

inductive StakingChange where
  | deposit (amount : Amount)
  | withdraw (amount : Amount)
  | join (pubkey : XOnlyPublicKey)
deriving DecidableEq

structure StakeChangeRequest where
  change : StakingChange
  validatorXpk : XOnlyPublicKey
  validatorSubnetAddress : EthAddress
  configurationNumber : Nat
  committeeAfterChange : SubnetCommittee
  blockHeight : Nat
  blockHash : BlockHash
  checkpointBlockHeight : Option Nat
  checkpointBlockHash : Option BlockHash
  txid : Txid
deriving DecidableEq

structure KillRequest where
  validatorXpk : XOnlyPublicKey
  blockHeight : Nat
  blockHash : BlockHash
  txid : Txid
deriving DecidableEq

structure SubnetRewardInfo where
  mostRecentCommitteeNumber : Nat
  rewardedAmounts : Option (List (XOnlyPublicKey × Amount))
deriving DecidableEq

structure SnapshotResult where
  rewardsList : List (XOnlyPublicKey × Amount)
  totalRewardedCollateral : Amount
deriving DecidableEq

end Db
