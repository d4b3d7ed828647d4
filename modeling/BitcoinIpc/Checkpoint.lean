import BitcoinIpc.Subnets
import BitcoinIpc.Lib.Grouping
import BitcoinIpc.Lib.Doubles

/-!
# Checkpoints

The checkpoint transaction and its handler. The builder lays out the metadata,
the withdrawals, the commit output of the batch transfer, one output for each
destination subnet, the unstakes and the change. The parser finds its outputs
from the three counters of the metadata. The hash maps of the builder are
iterated in an order that is a parameter of the model.
-/

namespace Messages

open Faults Bytes Chain Crates Multisig Db Grouping

/-- Iteration orders of the hash maps of one evaluation of the builder. -/
structure MapOrders where
  native : HashOrder Txid20
  erc : HashOrder Txid20
  outputs : HashOrder Txid20

variable (X : Library)

namespace IpcCheckpointSubnetMsg

def markersLen : Nat := 3
def heightLen : Nat := 8
def committeeConfLen : Nat := 8
def killedLen : Nat := 1
def hashLen : Nat := 32
def dataLen : Nat :=
  ipcTagLength + SubnetId.innerLen + hashLen + markersLen + heightLen + committeeConfLen + killedLen

def txidOffset : Nat := ipcTagLength
def hashOffset : Nat := txidOffset + SubnetId.innerLen
def heightOffset : Nat := hashOffset + hashLen
def markersOffset : Nat := heightOffset + heightLen
def committeeConfOffset : Nat := markersOffset + markersLen
def killedOffset : Nat := committeeConfOffset + committeeConfLen

/-- A counter of the metadata, saturated at one byte. -/
def marker (count : Nat) : UInt8 := UInt8.ofNat (min count 255)

/-- The 78 bytes of the metadata. -/
def metadata (m : IpcCheckpointSubnetMsg) (id : Txid20) : List UInt8 :=
  tagBytes ipcCheckpointTag ++ id.bytes ++ m.checkpointHash.bytes ++
    toLe heightLen m.checkpointHeight ++
    [marker m.withdrawals.length, marker m.transfers.length, marker m.unstakes.length] ++
    toLe committeeConfLen m.nextCommitteeConfigurationNumber ++
    [if m.isKillCheckpoint then 1 else 0]

def makeMetadataTxOut {ε : Type} (m : IpcCheckpointSubnetMsg) (feeRate : FeeRate) :
    Outcome ε TxOut := do
  let id ← m.subnetId.txid20
  let script := makeOpReturnScript (m.metadata id)
  return ⟨max (X.minimalNonDustCustom script feeRate) (X.minimalNonDust script), script⟩

/-- The counters of withdrawals, transfers and unstakes, and the killed flag. -/
def extractMarkersFromMetadataTxOut (out : TxOut) :
    Outcome IpcLibError (UInt8 × UInt8 × UInt8 × Bool) := do
  let data ← okOr (firstPush out.scriptPubkey)
    (.msgParseError ipcCheckpointTag "First output must be OP_RETURN with pushdata")
  ensure (data.length = dataLen) (.msgParseError ipcCheckpointTag
    "Error while extracting markers, invalid metadata op_return data length: got \x7b\x7d, expected \x7b\x7d")
  let withdrawals ← index data markersOffset
  let transfers ← index data (markersOffset + 1)
  let unstakes ← index data (markersOffset + 2)
  let killed ← index data killedOffset
  return (withdrawals, transfers, unstakes, killed ≠ 0)

def nativeEntry {ε : Type} (t : IpcCrossSubnetTransfer) :
    Outcome ε (Txid20 × EthAddress × Amount) := do
  let id ← t.destinationSubnetId.txid20
  return (id, t.subnetUserAddress, t.amount)

def ercEntry {ε : Type} (e : IpcCrossSubnetErcTransfer) :
    Outcome ε (Txid20 × IpcCrossSubnetErcTransferWire) := do
  let id ← e.destinationSubnetId.txid20
  return (id, ⟨e.homeSubnetId, e.homeTokenAddress, e.amount, e.recipient⟩)

/-- The data to be serialized, with the entries of its maps in iteration order. -/
def wireData {ε : Type} (m : IpcCheckpointSubnetMsg) (σ : MapOrders) :
    Outcome ε BatchTransferWireData := do
  let native ← traverseList nativeEntry m.transfers
  let erc ← traverseList ercEntry m.tokenTransfers
  return ⟨grouped σ.native native, m.tokenRegistrations, m.tokenSupplyAdjustments,
    grouped σ.erc erc⟩

def makeBatchedTransferData (m : IpcCheckpointSubnetMsg) (σ : MapOrders) :
    Outcome IpcLibError (List UInt8) := do
  let wire ← m.wireData σ
  let binary ← okOr (X.encodeBatch wire)
    (invalidMsg "Failed to serialize batch transfer data: \x7b\x7d")
  return tagBytes ipcTransferTag ++ binary

/-- A reveal transaction for the commit output at the given place. -/
def revealTransaction (outpoint : OutPoint) (witness : List (List UInt8)) (out : TxOut) :
    Transaction :=
  ⟨2, 0, [⟨outpoint, [], 0xffffffff, witness⟩], [out]⟩

/-- The commit output, the witness that reveals it and the output of the reveal. -/
def makeBatchedTransfer (m : IpcCheckpointSubnetMsg) (σ : MapOrders) (feeRate : FeeRate)
    (returnAddress : Address) : Outcome IpcLibError (TxOut × List (List UInt8) × TxOut) := do
  let data ← m.makeBatchedTransferData X σ
  let commitScript := makePushDataScript data
  let commitScriptPubkey := Address.p2trScript (X.taprootOutputKey (.leaf commitScript))
  let witness := [commitScript, X.controlBlock commitScript]
  let revealOut : TxOut :=
    ⟨X.minimalNonDustCustom returnAddress.scriptPubkey feeRate, returnAddress.scriptPubkey⟩
  let revealTx := revealTransaction ⟨FixedBytes.zeros 32, 0⟩ witness revealOut
  let fee ← okOr (X.feeWu feeRate (X.weight revealTx)) (.bitcoinUtilsError .feeRateOverflow)
  let revealCost ← addAmount revealOut.value fee
  let value := max (max (X.minimalNonDustCustom commitScriptPubkey feeRate)
    (X.minimalNonDust commitScriptPubkey)) revealCost
  return (⟨value, commitScriptPubkey⟩, witness, revealOut)

/-- Sets the current multisig address of each destination. -/
def updateSubnetsForTransfer (m : IpcCheckpointSubnetMsg) (db : HeedDb) :
    Outcome IpcLibError IpcCheckpointSubnetMsg := do
  let transfers ← traverseList (fun t => do
    let s ← okOr (db.getSubnetState X t.destinationSubnetId)
      (invalidField "destination_subnet_id" "Subnet \x7b\x7d does not exist")
    return { t with subnetMultisigAddress := some s.committee.multisigAddress }) m.transfers
  return { m with transfers := transfers }

/-- The place of the commit output as the source computes it. -/
def batchTransferCommitOutpoint (m : IpcCheckpointSubnetMsg) (txid : Txid) : Option OutPoint :=
  if m.hasBatch then some ⟨txid, 1 + m.withdrawals.length + m.unstakes.length⟩ else none

def makeRevealBatchTransferTx (m : IpcCheckpointSubnetMsg) (σ : MapOrders)
    (checkpointTxid : Txid) (feeRate : FeeRate) (returnAddress : Address) :
    Outcome IpcLibError (Option Transaction) :=
  if m.hasBatch then do
    let outpoint ← expect (m.batchTransferCommitOutpoint checkpointTxid)
    let (_, witness, out) ← m.makeBatchedTransfer X σ feeRate returnAddress
    return some (revealTransaction outpoint witness out)
  else return none

/-- An output paying an amount to an address of the current network. -/
def payment {ε : Type} (amount : Amount) (address : Address) : Outcome ε TxOut := do
  let a ← address.requireNetwork
  return ⟨amount, a.scriptPubkey⟩

/-- The amounts and addresses of the transfers, under the id of their destination.
Each step adds to the total of one destination and fails when that overflows. -/
def transferEntries : List (Txid20 × Amount × Address) → List IpcCrossSubnetTransfer →
    Outcome IpcLibError (List (Txid20 × Amount × Address))
  | seen, [] => .ok seen
  | seen, t :: rest => do
    let id ← t.destinationSubnetId.txid20
    let a ← okOr t.subnetMultisigAddress (invalidField "transfer.subnet_multisig_address"
      "subnet_multisig_address must be defined")
    let _ ← addAmount ((valuesAt seen id).map Prod.fst).sum t.amount
    transferEntries (seen ++ [(id, t.amount, a)]) rest

/-- The output of one destination: the total, paid to the address met first. -/
def destinationOutput {ε : Type} (entry : Txid20 × List (Amount × Address)) :
    Outcome ε TxOut := do
  let first ← index entry.2 0
  payment (entry.2.map Prod.fst).sum first.2

/-- The commit output and the outputs of the destinations, if there is a batch. -/
def batchOutputs (m : IpcCheckpointSubnetMsg) (σ : MapOrders) (committee : SubnetCommittee)
    (feeRate : FeeRate) : Outcome IpcLibError (List TxOut) :=
  if m.hasBatch then do
    let returnAddress ← committee.multisigAddress.requireNetwork
    let (commit, _, _) ← m.makeBatchedTransfer X σ feeRate returnAddress
    let entries ← transferEntries [] m.transfers
    let outs ← traverseList destinationOutput (grouped σ.outputs entries)
    return commit :: outs
  else return []

def checkpointOutputs (m : IpcCheckpointSubnetMsg) (σ : MapOrders) (committee : SubnetCommittee)
    (feeRate : FeeRate) : Outcome IpcLibError (List TxOut) := do
  let metadata ← m.makeMetadataTxOut X feeRate
  let withdrawals ← traverseList (fun w => payment w.amount w.address) m.withdrawals
  let batch ← m.batchOutputs X σ committee feeRate
  let unstakes ← traverseList (fun u => payment u.amount u.address) m.unstakes
  return metadata :: (withdrawals ++ batch ++ unstakes)

/-- The share of the change for one unstake: the proportion and the product are computed in
double precision, and truncated. -/
def killShare (change amount total : Amount) : Amount :=
  Doubles.proportional 53 amountBound change amount total

/-- Adds to each unstake output its share of the change; the last gets the rest. -/
def shareChange (change total : Amount) : Amount → List IpcUnstake → List TxOut →
    Outcome IpcLibError (List TxOut)
  | distributed, [_], o :: _ => do
    let additional ← subAmount change distributed
    let value ← addAmount o.value additional
    return [{ o with value := value }]
  | distributed, u :: us, o :: os => do
    let additional := killShare change u.amount total
    let value ← addAmount o.value additional
    let distributed ← addAmount distributed additional
    let rest ← shareChange change total distributed us os
    return { o with value := value } :: rest
  | _, _, _ => .ok []

/-- The outputs of a kill checkpoint after the leftover is given to the unstakes. -/
def redistribute (m : IpcCheckpointSubnetMsg) (change : Amount) (outs : List TxOut) :
    Outcome IpcLibError (List TxOut) := do
  let total ← sumAmounts (m.unstakes.map (·.amount))
  if 0 < total then
    let start := outs.length - m.unstakes.length
    let shared ← shareChange change total 0 m.unstakes (outs.drop start)
    return outs.take start ++ shared
  else return outs

def toCheckpointPsbt (m : IpcCheckpointSubnetMsg) (σ : MapOrders)
    (committee nextCommittee : SubnetCommittee) (feeRate : FeeRate) (unspent : List Utxo) :
    Outcome IpcLibError Psbt := do
  let exhaustUnspent := !committee.sameAs nextCommittee || m.isKillCheckpoint
  let changeAddress ← nextCommittee.multisigAddress.requireNetwork
  let outs ← m.checkpointOutputs X σ committee feeRate
  let keys := committee.validatorWeightedKeys
  let build := fun outs => mapErr IpcLibError.multisigError (constructSpendUnsignedTransaction X
    keys committee.threshold changeAddress unspent exhaustUnspent outs feeRate
    checkpointConsolidationLimit)
  let tx ← build outs
  let change := ((tx.output.find? (fun o => o.scriptPubkey = changeAddress.scriptPubkey)).map
    (·.value)).getD 0
  let outs ← if m.isKillCheckpoint ∧ 0 < change ∧ m.unstakes ≠ [] then do
      let outs ← m.redistribute change outs
      let _ ← build outs
      pure outs
    else pure outs
  mapErr .multisigError (constructSpendPsbt X m.subnetId keys committee.threshold changeAddress
    unspent exhaustUnspent outs feeRate checkpointConsolidationLimit)

def parseErr (text : String) : IpcLibError := .msgParseError ipcCheckpointTag text

def parseWithdrawal (out : TxOut) : Outcome IpcLibError IpcWithdrawal := do
  let a ← okOr (Address.fromScript out.scriptPubkey)
    (parseErr "Could not parse address from withdrawal output \x7b\x7d")
  return ⟨out.value, a⟩

/-- An output to an address that is no validator's backup address is skipped. -/
def parseUnstake (s : SubnetState) (out : TxOut) : Outcome IpcLibError (Option IpcUnstake) := do
  let a ← okOr (Address.fromScript out.scriptPubkey)
    (parseErr "Could not parse address from unstake output \x7b\x7d")
  return (s.committee.validators.find? (fun v => v.backupAddress = a)).map
    (fun v => ⟨out.value, a, v.pubkey⟩)

def parseTransferOutput (out : TxOut) : Outcome IpcLibError Unit := do
  let _ ← okOr (Address.fromScript out.scriptPubkey)
    (parseErr "Could not parse address from transfer output \x7b\x7d")
  return ()

def parseChange (outputs : List TxOut) (expected : Nat) :
    Outcome IpcLibError (Option Address) :=
  if expected < outputs.length then do
    let out ← index outputs (outputs.length - 1)
    let a ← okOr (Address.fromScript out.scriptPubkey)
      (parseErr "Could not parse change address from last output")
    return some a
  else return none

/-- The outputs the counters announce: each transfer is counted as an output. -/
def expectedOutputs (withdrawals transfers unstakes : Nat) : Nat :=
  1 + withdrawals + unstakes + (if 0 < transfers then 1 else 0) + transfers

/-- The fields of the metadata. -/
structure Metadata where
  subnetId : SubnetId
  checkpointHash : FixedBytes 32
  checkpointHeight : Nat
  withdrawalsCount : Nat
  transfersCount : Nat
  unstakesCount : Nat
  nextCommitteeConfigurationNumber : Nat
  killed : Bool
deriving DecidableEq

def parseMetadata (data : List UInt8) : Outcome IpcLibError Metadata := do
  let tag ← slice data 0 txidOffset
  ensure (tag = tagBytes ipcCheckpointTag)
    (parseErr "Invalid tag: got '\x7b\x7d', expected '\x7b\x7d'")
  let idBytes ← slice data txidOffset hashOffset
  let id ← okOr (FixedBytes.ofList? 20 idBytes) (parseErr "Invalid subnet ID bytes: \x7b\x7d")
  let hashBytes ← slice data hashOffset heightOffset
  let hash ← okOr (FixedBytes.ofList? 32 hashBytes)
    (parseErr "Invalid checkpoint hash bytes: \x7b\x7d")
  let heightBytes ← slice data heightOffset markersOffset
  let withdrawals ← index data markersOffset
  let transfers ← index data (markersOffset + 1)
  let unstakes ← index data (markersOffset + 2)
  let confBytes ← slice data committeeConfOffset killedOffset
  let killed ← index data killedOffset
  return ⟨.fromTxid20 id, hash, fromLe heightBytes, withdrawals.toNat, transfers.toNat,
    unstakes.toNat, fromLe confBytes, killed ≠ 0⟩

def fromCheckpointTx (db : HeedDb) (tx : Transaction) :
    Outcome IpcLibError IpcCheckpointSubnetMsg := do
  ensure (tx.output ≠ []) (parseErr "Transaction must have at least one output")
  let data ← opReturnData ipcCheckpointTag "First output must be OP_RETURN with pushdata"
    "OP_RETURN data length mismatch: got \x7b\x7d, expected \x7b\x7d" dataLen tx
  let d ← parseMetadata data
  let expected := expectedOutputs d.withdrawalsCount d.transfersCount d.unstakesCount
  ensure (expected ≤ tx.output.length)
    (parseErr "Not enough outputs: got \x7b\x7d, expected at least \x7b\x7d")
  let s ← okOr (db.getSubnetState X d.subnetId) (parseErr "Subnet \x7b\x7d not found")
  let withdrawalOuts ← slice tx.output 1 (1 + d.withdrawalsCount)
  let withdrawals ← traverseList parseWithdrawal withdrawalOuts
  let unstakeOuts ← slice tx.output (1 + d.withdrawalsCount)
    (1 + d.withdrawalsCount + d.unstakesCount)
  let unstakes ← traverseList (parseUnstake s) unstakeOuts
  if 0 < d.transfersCount then
    let start := 1 + d.withdrawalsCount + d.unstakesCount + 1
    let transferOuts ← slice tx.output start (start + d.transfersCount)
    forEach transferOuts parseTransferOutput
  let change ← parseChange tx.output expected
  return ⟨d.subnetId, d.checkpointHash, d.checkpointHeight, d.nextCommitteeConfigurationNumber,
    withdrawals, [], [], [], [], unstakes.reduceOption, change, d.killed⟩

/-- The stake change up to which the checkpoint rotates, if it rotates. -/
def rotation (m : IpcCheckpointSubnetMsg) (db : HeedDb) (s : SubnetState) :
    Outcome IpcLibError (Option StakeChangeRequest) :=
  let n := m.nextCommitteeConfigurationNumber
  let last := s.committee.configurationNumber
  if n = 0 ∨ n = last then return none
  else do
    ensure (last ≤ n) (invalidField "next_committee_configuration_number"
      "Next committee configuration number \x7b\x7d is less than the last one \x7b\x7d")
    let c ← okOr (db.getStakeChange X m.subnetId n)
      (invalidField "next_committee_configuration_number"
        "Stake change for committee configuration number \x7b\x7d does not exist")
    return some c

/-- The checkpoint record before its batch transfer is known. -/
def checkpointRecord (m : IpcCheckpointSubnetMsg) (s : SubnetState)
    (change : Option StakeChangeRequest) (blockHeight : Nat) (txid : Txid) : SubnetCheckpoint :=
  { checkpointNumber := (s.lastCheckpointNumber.map (· + 1)).getD 0
    checkpointHash := m.checkpointHash
    checkpointHeight := m.checkpointHeight
    blockHeight := blockHeight
    txid := txid
    batchTransferTxid := none
    batchTransferBlockHeight := none
    signedCommitteeNumber := s.committeeNumber
    nextCommitteeNumber :=
      if change.isSome then s.committeeNumber + 1 else s.committeeNumber
    nextConfigurationNumber :=
      (change.map (·.configurationNumber)).getD s.committee.configurationNumber
    isKillCheckpoint := m.isKillCheckpoint }

/-- The subnet state after the checkpoint. -/
def checkpointedState (m : IpcCheckpointSubnetMsg) (s : SubnetState)
    (change : Option StakeChangeRequest) (blockHeight : Nat) : SubnetState :=
  let s := { s with lastCheckpointNumber := some ((s.lastCheckpointNumber.map (· + 1)).getD 0) }
  let s := match change with
    | some c => s.rotateToCommittee c.committeeAfterChange
    | none => s
  if m.isKillCheckpoint then { s with killed := .killed blockHeight } else s

def saveToDb (m : IpcCheckpointSubnetMsg) (db : HeedDb) (blockHeight : Nat)
    (blockHash : BlockHash) (txid : Txid) : Outcome IpcLibError (HeedDb × SubnetCheckpoint) := do
  let s ← okOr (db.getSubnetState X m.subnetId) (invalidMsg "Subnet ID \x7b\x7d does not exist")
  let change ← m.rotation X db s
  let record := m.checkpointRecord s change blockHeight txid
  let saved := (db.saveSubnetState X m.subnetId (m.checkpointedState s change blockHeight))
    |>.saveCheckpoint X m.subnetId record record.checkpointNumber
  match change with
  | none => return (saved, record)
  | some c =>
    let saved := saved.saveCommittee X m.subnetId record.nextCommitteeNumber
      c.committeeAfterChange
    return (saved.confirmStakeChanges X m.subnetId m.nextCommitteeConfigurationNumber
      blockHeight blockHash, record)

end IpcCheckpointSubnetMsg

end Messages
