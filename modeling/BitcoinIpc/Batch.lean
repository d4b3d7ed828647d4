import BitcoinIpc.Checkpoint

/-!
# Batch transfers

The reveal of a checkpoint's batch transfer and its handler: native transfers
become fund messages of their destinations, and the token ledger is updated by
registrations, mints, burns and transfers. The token records are first checked
on running balances that stand in a map, and then applied to the database.
-/

namespace Messages

open Faults Bytes Chain Crates Multisig Db OrderedTable Grouping

variable (X : Library)

abbrev RunningBalances := Table Key U256

/-- Key of a token in the running balances. -/
def tokenKey (home : SubnetId) (token : EthAddress) : Key :=
  subnetDisplay X home ++ ':' :: X.ethDisplay token

/-- The running balance of a token on the source subnet, read from the database
when the token is met first. -/
def runningBalance (db : HeedDb) (source home : SubnetId) (token : EthAddress)
    (b : RunningBalances) : U256 :=
  (b.get (tokenKey X home token)).getD (db.getTokenBalance X home token source)

def checkRegistration (db : HeedDb) (source : SubnetId) (b : RunningBalances)
    (r : IpcErcTokenRegistration) : Outcome IpcValidateError RunningBalances := do
  let key := tokenKey X source r.homeTokenAddress
  ensure (b.get key = none) (.invalidMsg
    "Token (\x7b\x7d,\x7b\x7d) registered more than once in the same checkpoint")
  ensure (¬ 0 < db.getTokenBalance X source r.homeTokenAddress source) (.invalidMsg
    "Token (\x7b\x7d,\x7b\x7d) is already registered (existing balance: \x7b\x7d)")
  return b.put key r.initialSupply

def checkMint (db : HeedDb) (source : SubnetId) (b : RunningBalances)
    (a : IpcErcSupplyAdjustment) : RunningBalances :=
  if a.delta.isNegative ∨ a.delta.abs = 0 then b
  else b.put (tokenKey X source a.homeTokenAddress)
    (U256.saturatingAdd (runningBalance X db source source a.homeTokenAddress b) a.delta.abs)

def checkBurn (db : HeedDb) (source : SubnetId) (b : RunningBalances)
    (a : IpcErcSupplyAdjustment) : Outcome IpcValidateError RunningBalances :=
  if a.delta.isNegative then do
    let left ← okOr
      (U256.checkedSub (runningBalance X db source source a.homeTokenAddress b) a.delta.abs)
      (.invalidMsg "Burn exceeds balance for token (\x7b\x7d,\x7b\x7d): has \x7b\x7d, burn \x7b\x7d")
    return b.put (tokenKey X source a.homeTokenAddress) left
  else return b

def checkTransfer (db : HeedDb) (source : SubnetId) (b : RunningBalances)
    (e : IpcCrossSubnetErcTransfer) : Outcome IpcValidateError RunningBalances := do
  ensure (e.amount ≠ 0) (.invalidMsg
    "Zero-amount ETX for token (\x7b\x7d,\x7b\x7d) on subnet \x7b\x7d")
  let left ← okOr
    (U256.checkedSub (runningBalance X db source e.homeSubnetId e.homeTokenAddress b) e.amount)
    (.invalidMsg "Insufficient balance for token (\x7b\x7d,\x7b\x7d): has \x7b\x7d, needs \x7b\x7d")
  return b.put (tokenKey X e.homeSubnetId e.homeTokenAddress) left

/-- Registrations, then mints, then burns, then transfers. -/
def validateErcBatchData (source : SubnetId) (registrations : List IpcErcTokenRegistration)
    (adjustments : List IpcErcSupplyAdjustment) (transfers : List IpcCrossSubnetErcTransfer)
    (db : HeedDb) : Outcome IpcValidateError Unit := do
  let b ← registrations.foldlM (checkRegistration X db source) .empty
  let b := adjustments.foldl (checkMint X db source) b
  let b ← adjustments.foldlM (checkBurn X db source) b
  let _ ← transfers.foldlM (checkTransfer X db source) b
  return ()

namespace IpcBatchTransferMsg

def parseErr (text : String) : IpcLibError := .msgParseError ipcTransferTag text

def witnessToWireData (witnessData : List UInt8) : Outcome IpcLibError BatchTransferWireData := do
  ensure (¬ (witnessData.length < ipcTagLength ∨
      witnessData.take ipcTagLength ≠ tagBytes ipcTransferTag))
    (parseErr "Invalid tag: expected '\x7b\x7d' prefix")
  okOr (X.decodeBatch (witnessData.drop ipcTagLength))
    (parseErr "Failed to deserialize batch transfer data: \x7b\x7d")

/-- The transfers of one entry, unless its destination does not exist. -/
def nativeTransfers (db : HeedDb) (entry : Txid20 × List (EthAddress × Amount)) :
    List IpcCrossSubnetTransfer :=
  match db.getSubnetState X (.fromTxid20 entry.1) with
  | none => []
  | some s => entry.2.map fun (user, amount) =>
      ⟨amount, .fromTxid20 entry.1, some s.committee.multisigAddress, user⟩

def ercTransfers (entry : Txid20 × List IpcCrossSubnetErcTransferWire) :
    List IpcCrossSubnetErcTransfer :=
  entry.2.map fun w =>
    ⟨w.homeSubnetId, w.homeTokenAddress, w.amount, .fromTxid20 entry.1, w.recipient⟩

/-- The maps of the witness are rebuilt as hash maps and iterated in their order. -/
def fromTx (native erc : HashOrder Txid20) (db : HeedDb) (tx : Transaction) :
    Outcome IpcLibError IpcBatchTransferMsg := do
  ensure (tx.input.length = 1) (parseErr "Transaction must have at least one input")
  let i ← index tx.input 0
  ensure (i.witness ≠ []) (parseErr "Transaction witness is empty")
  let item ← index i.witness 0
  let data ← okOr (concatenateOpPushData item).toOption
    (parseErr "Failed to extract witness data")
  let wire ← mapErr (fun _ => parseErr "Failed to deserialize batch transfer data: \x7b\x7d")
    (witnessToWireData X data)
  let transfers := (latest native wire.transfers).flatMap (nativeTransfers X db)
  let tokenTransfers := (latest erc wire.tokenTransfers).flatMap ercTransfers
  ensure (¬ (transfers = [] ∧ wire.tokenRegistrations = [] ∧
      wire.tokenSupplyAdjustments = [] ∧ tokenTransfers = []))
    (parseErr "No valid data found in batch transfer")
  return ⟨SubnetId.default, i.previousOutput.txid, i.previousOutput.vout, transfers,
    wire.tokenRegistrations, wire.tokenSupplyAdjustments, tokenTransfers⟩

/-- The links between a batch transfer and the checkpoint it spends. -/
def validateForCheckpoint (m : IpcBatchTransferMsg) (checkpointTx : Transaction) :
    Outcome IpcValidateError Unit := do
  ensure (X.computeTxid checkpointTx = m.checkpointTxid) (.invalidMsg
    "Checkpoint txid mismatch: expected \x7b\x7d, got \x7b\x7d")
  ensure (m.checkpointVout < checkpointTx.output.length) (.invalidMsg
    "Checkpoint transaction doesn't have output at index \x7b\x7d")
  let out ← okOr checkpointTx.output.head? (.invalidMsg
    "Checkpoint transaction doesn't have output at index \x7b\x7d")
  let (_, count, _, _) ← mapErr
    (fun _ => .invalidMsg "Failed to extract counts from checkpoint: \x7b\x7d")
    (IpcCheckpointSubnetMsg.extractMarkersFromMetadataTxOut out)
  ensure (m.transfers.length = count.toNat) (.invalidMsg
    "Transfer count mismatch: batch has \x7b\x7d, checkpoint expected \x7b\x7d")

/-- Where and when a message was found. -/
structure Origin where
  blockHeight : Nat
  blockHash : BlockHash
  txid : Txid
deriving DecidableEq

/-- Appends a message, made with the next nonce, to the queue of a subnet. -/
def enqueue (db : HeedDb) (s : SubnetId) (msg : Nat → RootnetMessage) : HeedDb :=
  db.addRootnetMsg X s (msg (db.getNextRootnetMsgNonce X s))

def applyNative (o : Origin) (db : HeedDb) (t : IpcCrossSubnetTransfer) : HeedDb :=
  enqueue X db t.destinationSubnetId fun nonce =>
    .fundSubnet ⟨t.destinationSubnetId, t.amount, t.subnetUserAddress⟩
      o.blockHeight o.blockHash nonce o.txid

/-- The home balance is set and every other subnet is told. -/
def applyRegistration (o : Origin) (source : SubnetId) (subnets : List SubnetState)
    (db : HeedDb) (r : IpcErcTokenRegistration) : HeedDb :=
  (subnets.filter (fun s => s.id ≠ source)).foldl
    (fun db s => enqueue X db s.id fun nonce =>
      .ercRegistration source r o.blockHeight o.blockHash nonce o.txid)
    (db.setTokenBalance X source r.homeTokenAddress source r.initialSupply)

def applyMint (source : SubnetId) (db : HeedDb) (a : IpcErcSupplyAdjustment) : HeedDb :=
  db.setTokenBalance X source a.homeTokenAddress source
    (U256.saturatingAdd (db.getTokenBalance X source a.homeTokenAddress source) a.delta.abs)

def applyBurn (source : SubnetId) (db : HeedDb) (a : IpcErcSupplyAdjustment) :
    Outcome IpcLibError HeedDb := do
  let left ← okOr
    (U256.checkedSub (db.getTokenBalance X source a.homeTokenAddress source) a.delta.abs)
    (invalidMsg "ETS burn underflow for token \x7b\x7d: balance \x7b\x7d, burn \x7b\x7d")
  return db.setTokenBalance X source a.homeTokenAddress source left

/-- Debit, credit and message of one token transfer; a zero amount is skipped. -/
def applyTransfer (o : Origin) (source : SubnetId) (db : HeedDb)
    (e : IpcCrossSubnetErcTransfer) : Outcome IpcLibError HeedDb :=
  if e.amount = 0 then return db
  else do
    let left ← okOr
      (U256.checkedSub (db.getTokenBalance X e.homeSubnetId e.homeTokenAddress source) e.amount)
      (invalidMsg "ETX underflow for token \x7b\x7d: balance \x7b\x7d, amount \x7b\x7d")
    let db := db.setTokenBalance X e.homeSubnetId e.homeTokenAddress source left
    let credited := (U256.checkedAdd
      (db.getTokenBalance X e.homeSubnetId e.homeTokenAddress e.destinationSubnetId)
      e.amount).getD U256.max
    let db := db.setTokenBalance X e.homeSubnetId e.homeTokenAddress e.destinationSubnetId credited
    return enqueue X db e.destinationSubnetId fun nonce =>
      .ercTransfer e o.blockHeight o.blockHash nonce o.txid

/-- The records of the message, applied to the working database. The list of
subnets is read from the committed one. -/
def applyRecords (m : IpcBatchTransferMsg) (o : Origin) (committed db : HeedDb) :
    Outcome IpcLibError HeedDb := do
  let db := m.transfers.foldl (applyNative X o) db
  let db := m.tokenRegistrations.foldl
    (applyRegistration X o m.subnetId committed.getAllSubnets) db
  let db := (m.tokenSupplyAdjustments.filter (fun a => !a.delta.isNegative)).foldl
    (applyMint X m.subnetId) db
  let db ← (m.tokenSupplyAdjustments.filter (fun a => a.delta.isNegative)).foldlM
    (applyBurn X m.subnetId) db
  m.tokenTransfers.foldlM (applyTransfer X o m.subnetId) db

/-- The updated record is stored under the number after the last checkpoint's. -/
def saveToDb (m : IpcBatchTransferMsg) (db : HeedDb) (o : Origin) :
    Outcome IpcLibError (HeedDb × SubnetCheckpoint) := do
  let s ← okOr (db.getSubnetState X m.subnetId) (invalidMsg "Source subnet \x7b\x7d not found")
  let number ← okOr s.lastCheckpointNumber (invalidMsg "Subnet \x7b\x7d has no checkpoints")
  let checkpoint ← okOr (db.getCheckpoint X m.subnetId number)
    (invalidMsg "Checkpoint #\x7b\x7d for subnet \x7b\x7d not found")
  orInvalid (validateErcBatchData X m.subnetId m.tokenRegistrations m.tokenSupplyAdjustments
    m.tokenTransfers db)
  let checkpoint := { checkpoint with
    batchTransferTxid := some o.txid, batchTransferBlockHeight := some o.blockHeight }
  let saved ← m.applyRecords X o db (db.saveCheckpoint X m.subnetId checkpoint (number + 1))
  return (saved, checkpoint)

end IpcBatchTransferMsg

end Messages
