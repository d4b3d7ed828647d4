import BitcoinIpc.Staking
import BitcoinIpc.Batch
import BitcoinIpc.Rewards

/-!
# The monitor

Processing of transactions and blocks. Every message handler commits its own
write transaction; the last processed block and the reward bookkeeping are
committed separately. Imports into the watch-only wallet touch no table and are
left out, except for the checks on addresses that can panic.
-/

namespace Monitor

open Faults Bytes Chain Messages Crates Multisig Db Grouping Commits Rewards

structure Config where
  rewardTracker : Option RewardConfig

/-- The block a transaction stands in, and the iteration orders of the hash maps
built while it is processed. -/
structure BlockContext where
  blockHeight : Nat
  blockHash : BlockHash
  native : HashOrder Txid20
  erc : HashOrder Txid20
  rewards : HashOrder XOnlyPublicKey

abbrev MonitorProc := Proc HeedDb MonitorError

variable (X : Library)

def orMsgInvalid {α : Type} (x : Outcome IpcValidateError α) : Outcome MonitorError α :=
  mapErr .ipcMsgInvalid x

def orProcessing {α : Type} (x : Outcome IpcLibError α) : Outcome MonitorError α :=
  mapErr .ipcMsgProcessingError x

section Handlers

variable (cfg : Config) (ctx : BlockContext) (tx : Transaction)

def processCreateSubnet (m : IpcCreateSubnetMsg) : MonitorProc Unit := do
  Proc.lift (orMsgInvalid m.validate)
  let db ← Proc.read
  let saved := m.saveToDb X db ctx.blockHeight (X.computeTxid tx)
  Proc.commit saved.1
  let _ ← Proc.lift (saved.2.multisigAddress X)

/-- The checks on a join before it is saved; the collateral is the first output's value. -/
def checkJoin (db : HeedDb) (m : IpcJoinSubnetMsg) : Outcome MonitorError IpcJoinSubnetMsg := do
  let out ← okOr tx.output.head? (.ipcTxInvalid "Transaction output must be non zero")
  let m := { m with collateral := out.value }
  let g ← okOr (db.getSubnetGenesisInfo X m.subnetId)
    (.ipcMsgInvalid (.invalidMsg "Subnet \x7b\x7d not found."))
  orMsgInvalid (m.validateForSubnet g (db.getSubnetState X m.subnetId))
  orMsgInvalid m.validate
  return m

def processJoinSubnet (m : IpcJoinSubnetMsg) : MonitorProc Unit := do
  let db ← Proc.read
  let m ← Proc.lift (checkJoin X tx db m)
  let saved ← Proc.lift (orProcessing
    (m.saveToDb X db ctx.blockHeight ctx.blockHash (X.computeTxid tx)))
  Proc.commit saved.1
  match saved.2 with
  | some s => do let _ ← Proc.lift s.committee.multisigAddress.requireNetwork
  | none => pure ()

def processPrefundSubnet (m : IpcPrefundSubnetMsg) : MonitorProc Unit := do
  Proc.lift (orMsgInvalid m.validate)
  let db ← Proc.read
  let db ← Proc.lift (orProcessing (m.saveToDb X db ctx.blockHeight (X.computeTxid tx)))
  Proc.commit db

def processFundSubnet (m : IpcFundSubnetMsg) : MonitorProc Unit := do
  Proc.lift (orMsgInvalid m.validate)
  let db ← Proc.read
  let db ← Proc.lift (orProcessing
    (m.saveToDb X db ctx.blockHeight ctx.blockHash (X.computeTxid tx)))
  Proc.commit db

/-- After a rotation the address of the new committee is imported. -/
def importCommittee (m : IpcCheckpointSubnetMsg) (record : SubnetCheckpoint) :
    MonitorProc Unit := do
  if record.signedCommitteeNumber ≠ record.nextCommitteeNumber then
    let db ← Proc.read
    let s ← Proc.lift (okOr (db.getSubnetState X m.subnetId) (.ipcMsgInvalid
      (.invalidMsg "Could not fetch subnet id after a checkpoint")))
    let _ ← Proc.lift s.committee.multisigAddress.requireNetwork

def rewardCheckpoint (m : IpcCheckpointSubnetMsg) (record : SubnetCheckpoint) :
    MonitorProc Unit :=
  match cfg.rewardTracker with
  | none => pure ()
  | some c => Proc.handle (updateAfterCheckpoint X c ctx.blockHeight m.subnetId record)
      (fun _ => .ok ())

/-- The checkpoint and its transaction are committed one after the other. -/
def processCheckpointSubnet (m : IpcCheckpointSubnetMsg) : MonitorProc Unit := do
  Proc.lift (orMsgInvalid m.validate)
  let db ← Proc.read
  let saved ← Proc.lift (orProcessing
    (m.saveToDb X db ctx.blockHeight ctx.blockHash (X.computeTxid tx)))
  Proc.commit saved.1
  let db ← Proc.read
  Proc.commit (db.saveTransaction X tx)
  importCommittee X m saved.2
  rewardCheckpoint X cfg ctx m saved.2

/-- The checks on a batch transfer before it is saved, against the transaction it spends. -/
def checkBatch (db : HeedDb) (m : IpcBatchTransferMsg) :
    Outcome MonitorError IpcBatchTransferMsg := do
  orMsgInvalid m.validate
  let checkpointTx ← okOr (db.getTransaction m.checkpointTxid) (.ipcTxInvalid
    "Can't get Checkpoint Txid \x7b\x7d for BatchTransferMsg: not found in database")
  let checkpoint ← mapErr (fun _ => .ipcTxInvalid
      "BatchTransferMsg has invalid CheckpointMsg as previous tx: \x7be\x7d")
    (IpcCheckpointSubnetMsg.fromCheckpointTx X db checkpointTx)
  orMsgInvalid checkpoint.validate
  orMsgInvalid (m.validateForCheckpoint X checkpointTx)
  return { m with subnetId := checkpoint.subnetId }

def processBatchTransfer (m : IpcBatchTransferMsg) : MonitorProc Unit := do
  let db ← Proc.read
  let m ← Proc.lift (checkBatch X db m)
  let saved ← Proc.lift (orProcessing
    (m.saveToDb X db ⟨ctx.blockHeight, ctx.blockHash, X.computeTxid tx⟩))
  Proc.commit saved.1

def processStakeCollateral (m : IpcStakeCollateralMsg) : MonitorProc Unit := do
  Proc.lift (orMsgInvalid m.validate)
  let db ← Proc.read
  let db ← Proc.lift (orProcessing
    (m.saveToDb X db ctx.blockHeight ctx.blockHash (X.computeTxid tx)))
  Proc.commit db

def processUnstakeCollateral (m : IpcUnstakeCollateralMsg) : MonitorProc Unit := do
  Proc.lift (orMsgInvalid m.validate)
  let db ← Proc.read
  let db ← Proc.lift (orProcessing
    (m.saveToDb X db ctx.blockHeight ctx.blockHash (X.computeTxid tx)))
  Proc.commit db

def processKillSubnet (m : IpcKillSubnetMsg) : MonitorProc Unit := do
  Proc.lift (orMsgInvalid m.validate)
  let db ← Proc.read
  let db ← Proc.lift (orProcessing
    (m.saveToDb X db ctx.blockHeight ctx.blockHash (X.computeTxid tx)))
  Proc.commit db

def processIpcMsg : IpcMessage → MonitorProc Unit
  | .createSubnet m => processCreateSubnet X ctx tx m
  | .joinSubnet m => processJoinSubnet X ctx tx m
  | .prefundSubnet m => processPrefundSubnet X ctx tx m
  | .fundSubnet m => processFundSubnet X ctx tx m
  | .checkpointSubnet m => processCheckpointSubnet X cfg ctx tx m
  | .batchTransfer m => processBatchTransfer X ctx tx m
  | .stakeCollateral m => processStakeCollateral X ctx tx m
  | .unstakeCollateral m => processUnstakeCollateral X ctx tx m
  | .killSubnet m => processKillSubnet X ctx tx m

/-- Invalid messages are ignored; every other error stops the monitor. -/
def handleIpcMsgError : MonitorError → Outcome MonitorError Unit
  | .ipcMsgInvalid _ => .ok ()
  | .ipcTxInvalid _ => .ok ()
  | .ipcMsgProcessingError (.ipcValidateError _) => .ok ()
  | e => raise e

def handleMsg (m : IpcMessage) : MonitorProc Unit :=
  Proc.handle (processIpcMsg X cfg ctx tx m) handleIpcMsgError

end Handlers

/-- Only the two messages of the commit-reveal scheme are read from a witness. -/
def fromWitness (w : List UInt8) : Option IpcMessage :=
  if w.length < ipcTagLength then none
  else
    match IpcTag.fromBytes (w.take ipcTagLength) with
    | some .createSubnet => (X.decodeCreateSubnet (w.drop ipcTagLength)).map .createSubnet
    | some .joinSubnet => (X.decodeJoinSubnet (w.drop ipcTagLength)).map .joinSubnet
    | _ => none

def witnessMessage (item : List UInt8) : Option IpcMessage :=
  if item = [] then none
  else
    match concatenateOpPushData item with
    | .ok data => fromWitness X data
    | .error _ => none

/-- The messages of the witnesses, in the order of the inputs. -/
def witnessMessages (tx : Transaction) : List IpcMessage :=
  tx.input.flatMap (fun i => i.witness.filterMap (witnessMessage X))

/-- The first parser that succeeds; a parser that fails is passed over. -/
def firstParsed {ε : Type} : List (Outcome IpcLibError IpcMessage) →
    Outcome ε (Option IpcMessage)
  | [] => .ok none
  | .ok m :: _ => .ok (some m)
  | .error (.error _) :: rest => firstParsed rest
  | .error .panic :: _ => panicked

def outputParsers (ctx : BlockContext) (db : HeedDb) (tx : Transaction) :
    List (Outcome IpcLibError IpcMessage) :=
  [ .prefundSubnet <$> IpcPrefundSubnetMsg.fromTx tx
  , .fundSubnet <$> IpcFundSubnetMsg.fromTx tx
  , .checkpointSubnet <$> IpcCheckpointSubnetMsg.fromCheckpointTx X db tx
  , .batchTransfer <$> IpcBatchTransferMsg.fromTx X ctx.native ctx.erc db tx
  , .stakeCollateral <$> IpcStakeCollateralMsg.fromTx X db tx
  , .unstakeCollateral <$> IpcUnstakeCollateralMsg.fromTx X db tx
  , .killSubnet <$> IpcKillSubnetMsg.fromTx X db tx ]

def processOutputs (cfg : Config) (ctx : BlockContext) (tx : Transaction) :
    MonitorProc Unit := do
  let db ← Proc.read
  match ← Proc.lift (firstParsed (outputParsers X ctx db tx)) with
  | some m => handleMsg X cfg ctx tx m
  | none => pure ()

def processTransaction (cfg : Config) (ctx : BlockContext) (tx : Transaction) :
    MonitorProc Unit := do
  Proc.each (handleMsg X cfg ctx tx) (witnessMessages X tx)
  processOutputs X cfg ctx tx

def processBlockData (cfg : Config) (ctx : BlockContext) (txs : List Transaction) :
    MonitorProc Unit :=
  Proc.each (processTransaction X cfg ctx) txs

def rewardBlock (cfg : Config) (ctx : BlockContext) : MonitorProc Unit :=
  match cfg.rewardTracker with
  | none => pure ()
  | some c => Proc.handle (updateAfterBlock X c ctx.rewards ctx.blockHeight) (fun _ => .ok ())

/-- One turn of the synchronisation loop: the block, its height and the rewards. -/
def syncBlock (cfg : Config) (ctx : BlockContext) (txs : List Transaction) :
    MonitorProc Unit := do
  processBlockData X cfg ctx txs
  let db ← Proc.read
  Proc.commit (db.setLastProcessedBlock ctx.blockHeight)
  rewardBlock X cfg ctx

/-- The loop over the fetched blocks, which stops at the first error. -/
def sync (cfg : Config) (blocks : List (BlockContext × List Transaction)) : MonitorProc Unit :=
  Proc.each (fun b => syncBlock X cfg b.1 b.2) blocks

end Monitor
