import BitcoinIpc.HeedDb

/-!
# Creating, joining and funding subnets

The handlers of the CreateSubnet, JoinSubnet, PrefundSubnet and FundSubnet
messages. A handler reads the committed database and returns the database it
commits; an error leaves the database as it was.
-/

namespace Messages

open Faults Bytes Chain Crates Multisig Db

variable (X : Library)

def orInvalid {α : Type} (x : Outcome IpcValidateError α) : Outcome IpcLibError α :=
  mapErr .ipcValidateError x

def invalidMsg (text : String) : IpcLibError := .ipcValidateError (.invalidMsg text)
def invalidField (field text : String) : IpcLibError :=
  .ipcValidateError (.invalidField field text)

namespace IpcCreateSubnetMsg

def genesisInfo (m : IpcCreateSubnetMsg) (blockHeight : Nat) (txid : Txid) :
    SubnetGenesisInfo :=
  ⟨.fromTxid txid, m, blockHeight, false, none, [], []⟩

/-- The genesis info is written whether or not one exists. -/
def saveToDb (m : IpcCreateSubnetMsg) (db : HeedDb) (blockHeight : Nat) (txid : Txid) :
    HeedDb × SubnetGenesisInfo :=
  let g := m.genesisInfo blockHeight txid
  (db.saveSubnetGenesisInfo X (.fromTxid txid) g, g)

end IpcCreateSubnetMsg

namespace IpcJoinSubnetMsg

def ensureMinStake (m : IpcJoinSubnetMsg) (g : SubnetGenesisInfo) :
    Outcome IpcValidateError Unit :=
  ensure (g.createSubnetMsg.minValidatorStake ≤ m.collateral) (.invalidField "collateral"
    "Collateral must be at least \x7b\x7d, supplied \x7b\x7d")

def validatePreBootstrap (m : IpcJoinSubnetMsg) (g : SubnetGenesisInfo) :
    Outcome IpcValidateError Unit := do
  m.ensureMinStake g
  ensure (m.pubkey ∈ g.createSubnetMsg.whitelist) (.invalidField "pubkey"
    "Validator public key not whitelisted")
  ensure (¬ g.genesisValidators.any (fun v => v.pubkey = m.pubkey)) (.invalidField "pubkey"
    "Validator with public key '\x7b\x7d' already registered in subnet")

def validatePostBootstrap (m : IpcJoinSubnetMsg) (g : SubnetGenesisInfo) (s : SubnetState) :
    Outcome IpcValidateError Unit := do
  ensure (¬ s.isKilledOrPending = true) (.invalidMsg
    "Subnet \x7b\x7d is killed or marked for killing, cannot join.")
  m.ensureMinStake g
  ensure (¬ s.committee.isValidator m.pubkey = true) (.invalidMsg
    "Validator with public key '\x7b\x7d' already registered in subnet")
  ensure (¬ s.waitingCommittee.any (fun c => c.isValidator m.pubkey) = true) (.invalidMsg
    "Validator with public key '\x7b\x7d' already registered in subnet, waiting for next committee")

def validateForSubnet (m : IpcJoinSubnetMsg) (g : SubnetGenesisInfo) (s : Option SubnetState) :
    Outcome IpcValidateError Unit :=
  match s with
  | some s => do
    ensure (s.id = m.subnetId) (.invalidField "subnet_id"
      "Subnet ID mismatch: expected \x7b\x7d, got \x7b\x7d")
    m.validatePostBootstrap g s
  | none => m.validatePreBootstrap g

def newValidator (m : IpcJoinSubnetMsg) (power : Power) (txid : Txid) : SubnetValidator :=
  ⟨m.pubkey, X.ethAddrFromXOnlyPubkey m.pubkey, power, m.collateral, m.backupAddress, m.ip, txid⟩

/-- The request recorded for one half of a join. -/
def stakeChange (m : IpcJoinSubnetMsg) (change : StakingChange) (configurationNumber : Nat)
    (committee : SubnetCommittee) (blockHeight : Nat) (blockHash : BlockHash) (txid : Txid) :
    StakeChangeRequest :=
  ⟨change, m.pubkey, X.ethAddrFromXOnlyPubkey m.pubkey, configurationNumber, committee,
    blockHeight, blockHash, none, none, txid⟩

/-- Joining a bootstrapped subnet: the validator enters the next committee. -/
def savePostBootstrap (m : IpcJoinSubnetMsg) (db : HeedDb) (s : SubnetState)
    (v : SubnetValidator) (blockHeight : Nat) (blockHash : BlockHash) (txid : Txid) :
    Outcome IpcLibError HeedDb := do
  ensure (¬ s.isValidator m.pubkey = true) (invalidField "pubkey"
    "Validator with public key '\x7b\x7d' already registered in subnet")
  ensure (¬ s.latestCommittee.isValidator m.pubkey = true) (invalidField "pubkey"
    "Validator with public key '\x7b\x7d' already registered in subnet, waiting in next committee.")
  let next ← mapErr .dbError (s.latestCommittee.joinNewValidator X s.id v)
  let n := db.getNextStakeChangeConfigurationNumber X m.subnetId
  let db := db.saveSubnetState X m.subnetId { s with waitingCommittee := some next }
  let db := db.addStakeChange X m.subnetId
    (m.stakeChange X (.join m.pubkey) n next blockHeight blockHash txid)
  return db.addStakeChange X m.subnetId
    (m.stakeChange X (.deposit m.collateral) (n + 1) next blockHeight blockHash txid)

/-- Joining before the bootstrap: the subnet starts with its last missing validator. -/
def savePreBootstrap (m : IpcJoinSubnetMsg) (db : HeedDb) (g : SubnetGenesisInfo)
    (v : SubnetValidator) (blockHeight : Nat) :
    Outcome IpcLibError (HeedDb × Option SubnetState) := do
  let g := { g with genesisValidators := g.genesisValidators ++ [v] }
  if g.enoughToBootstrap then
    let g := { g with bootstrapped := true, genesisBlockHeight := some blockHeight }
    let s ← g.toSubnet X
    let db := db.saveSubnetState X m.subnetId s
    let db := db.saveSubnetGenesisInfo X m.subnetId g
    return (db.saveCommittee X m.subnetId s.committeeNumber s.committee, some s)
  else return (db.saveSubnetGenesisInfo X m.subnetId g, none)

def saveToDb (m : IpcJoinSubnetMsg) (db : HeedDb) (blockHeight : Nat) (blockHash : BlockHash)
    (txid : Txid) : Outcome IpcLibError (HeedDb × Option SubnetState) := do
  let g ← okOr (db.getSubnetGenesisInfo X m.subnetId)
    (invalidMsg "subnet id=\x7b\x7d does not exist")
  let subnetState := db.getSubnetState X m.subnetId
  orInvalid (m.validateForSubnet g subnetState)
  let power ← mapErr .multisigError
    (collateralToPower m.collateral g.createSubnetMsg.minValidatorStake)
  let v := m.newValidator X power txid
  match subnetState with
  | some s => return (← m.savePostBootstrap X db s v blockHeight blockHash txid, none)
  | none => m.savePreBootstrap X db g v blockHeight

end IpcJoinSubnetMsg

/-- The first push of the first output, of the length a message has. -/
def opReturnData (tag noData badLength : String) (dataLen : Nat) (tx : Transaction) :
    Outcome IpcLibError (List UInt8) := do
  let out ← index tx.output 0
  let data ← okOr (firstPush out.scriptPubkey) (.msgParseError tag noData)
  ensure (data.length = dataLen) (.msgParseError tag badLength)
  return data

def ethAddrLen : Nat := 20

/-- Parsing shared by the two funding messages, which differ in their tag. -/
def fundingFromTx (tag : String) (tx : Transaction) :
    Outcome IpcLibError (SubnetId × Amount × EthAddress) := do
  ensure (2 ≤ tx.output.length) (.msgParseError tag "Transaction must have at least 2 outputs")
  let data ← opReturnData tag "First output must be OP_RETURN with pushdata"
    "OP_RETURN data length mismatch: got \x7b\x7d, expected \x7b\x7d"
    (ipcTagLength + SubnetId.innerLen + ethAddrLen) tx
  let rest := data.drop ipcTagLength
  ensure (data.take ipcTagLength = tagBytes tag) (.msgParseError tag
    "Invalid tag: got '\x7b\x7d', expected '\x7b\x7d'")
  let txid20 ← okOr (FixedBytes.ofList? 20 (rest.take SubnetId.innerLen))
    (.msgParseError tag "Invalid txid bytes: \x7b\x7d")
  let address ← expect (FixedBytes.ofList? 20 (rest.drop SubnetId.innerLen))
  let funding ← index tx.output 1
  return (.fromTxid20 txid20, funding.value, address)

namespace IpcPrefundSubnetMsg

def fromTx (tx : Transaction) : Outcome IpcLibError IpcPrefundSubnetMsg := do
  let (subnetId, amount, address) ← fundingFromTx ipcPrefundSubnetTag tx
  return ⟨subnetId, amount, address⟩

def validateForGenesisInfo (g : SubnetGenesisInfo) : Outcome IpcValidateError Unit :=
  ensure (¬ g.bootstrapped = true) (.invalidMsg "Subnet \x7b\x7d is already bootstrapped.")

def saveToDb (m : IpcPrefundSubnetMsg) (db : HeedDb) (blockHeight : Nat) (txid : Txid) :
    Outcome IpcLibError HeedDb := do
  let g ← okOr (db.getSubnetGenesisInfo X m.subnetId)
    (invalidMsg "subnet id=\x7b\x7d does not exist")
  orInvalid (validateForGenesisInfo g)
  return db.saveSubnetGenesisInfo X m.subnetId
    (g.addGenesisBalanceEntry m.address m.amount txid blockHeight)

end IpcPrefundSubnetMsg

namespace IpcFundSubnetMsg

def fromTx (tx : Transaction) : Outcome IpcLibError IpcFundSubnetMsg := do
  let (subnetId, amount, address) ← fundingFromTx ipcFundSubnetTag tx
  return ⟨subnetId, amount, address⟩

def validateForSubnet (s : SubnetState) : Outcome IpcValidateError Unit :=
  ensure (¬ s.isKilledOrPending = true) (.invalidMsg
    "Subnet \x7b\x7d is killed or marked for killing, cannot fund.")

def toRootnetMessage (m : IpcFundSubnetMsg) (nonce blockHeight : Nat) (blockHash : BlockHash)
    (txid : Txid) : RootnetMessage :=
  .fundSubnet m blockHeight blockHash nonce txid

def saveToDb (m : IpcFundSubnetMsg) (db : HeedDb) (blockHeight : Nat) (blockHash : BlockHash)
    (txid : Txid) : Outcome IpcLibError HeedDb := do
  let s ← okOr (db.getSubnetState X m.subnetId)
    (invalidMsg "subnet id=\x7b\x7d does not exist")
  orInvalid (validateForSubnet s)
  let nonce := db.getNextRootnetMsgNonce X m.subnetId
  return db.addRootnetMsg X m.subnetId (m.toRootnetMessage nonce blockHeight blockHash txid)

end IpcFundSubnetMsg

end Messages
