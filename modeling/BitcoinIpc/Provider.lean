import BitcoinIpc.Staking
import BitcoinIpc.Batch

/-!
# The checkpoint request

What the provider does with a checkpoint request: it fills in the destinations'
addresses, selects the unstakes, checks the token records and builds the
checkpoint and the reveal of its batch. The unspent outputs and the fee rate are
read from the wallet and are parameters; the signatures are left out.
-/

namespace Provider

open Faults Chain Messages Crates Multisig Db

inductive RpcError where
  | invalidParams (text : String)
  | internalError (text : String)
deriving DecidableEq

/-- A transfer as it is deserialized: its multisig address is not read. -/
structure TransferRequest where
  amount : Amount
  destinationSubnetId : SubnetId
  subnetUserAddress : EthAddress
deriving DecidableEq

/-- A checkpoint message as it is deserialized: the unstakes, the change address
and the killed flag are not read. -/
structure CheckpointRequest where
  subnetId : SubnetId
  checkpointHash : Bytes.FixedBytes 32
  checkpointHeight : Nat
  nextCommitteeConfigurationNumber : Nat
  withdrawals : List IpcWithdrawal
  transfers : List TransferRequest
  tokenRegistrations : List IpcErcTokenRegistration
  tokenSupplyAdjustments : List IpcErcSupplyAdjustment
  tokenTransfers : List IpcCrossSubnetErcTransfer
deriving DecidableEq

def TransferRequest.toTransfer (t : TransferRequest) : IpcCrossSubnetTransfer :=
  ⟨t.amount, t.destinationSubnetId, none, t.subnetUserAddress⟩

def CheckpointRequest.toMsg (r : CheckpointRequest) : IpcCheckpointSubnetMsg :=
  ⟨r.subnetId, r.checkpointHash, r.checkpointHeight, r.nextCommitteeConfigurationNumber,
    r.withdrawals, r.transfers.map (·.toTransfer), r.tokenRegistrations,
    r.tokenSupplyAdjustments, r.tokenTransfers, [], none, false⟩

variable (X : Library)

def orInvalidParams {ε α : Type} (text : String) (x : Outcome ε α) : Outcome RpcError α :=
  mapErr (fun _ => .invalidParams text) x

def orInternal {ε α : Type} (x : Outcome ε α) : Outcome RpcError α :=
  mapErr (fun _ => .internalError "\x7b\x7d") x

/-- The sums of a kill checkpoint, which are only printed but can panic. -/
def killSums (m : IpcCheckpointSubnetMsg) (s : SubnetState) (unspent : List Utxo) :
    Outcome RpcError Unit := do
  let total ← sumAmounts (unspent.map (·.amount))
  let stake ← sumAmounts (s.committee.validators.map (·.collateral))
  let transfers ← sumAmounts (m.transfers.map (·.amount))
  let withdrawals ← sumAmounts (m.withdrawals.map (·.amount))
  let left ← subAmount total stake
  let left ← subAmount left withdrawals
  let _ ← subAmount left transfers
  return ()

def killUnstakes (s : SubnetState) : List IpcUnstake :=
  s.committee.validators.map (fun v => ⟨v.collateral, v.backupAddress, v.pubkey⟩)

/-- The open withdrawals of validators of the current committee, as unstakes. -/
def pendingUnstakes (db : HeedDb) (s : SubnetState) (subnetId : SubnetId) : List IpcUnstake :=
  (db.getUnconfirmedStakeChanges X subnetId).filterMap fun c =>
    match s.committee.findValidator c.validatorXpk, c.change with
    | some v, .withdraw amount => some ⟨amount, v.backupAddress, c.validatorXpk⟩
    | _, _ => none

/-- The message with its unstakes and the committee it hands over to. -/
def planRotation (db : HeedDb) (s : SubnetState) (shouldKill : Bool)
    (m : IpcCheckpointSubnetMsg) (unspent : List Utxo) :
    Outcome RpcError (IpcCheckpointSubnetMsg × SubnetCommittee) := do
  let n := m.nextCommitteeConfigurationNumber
  let current := s.committee.configurationNumber
  if shouldKill then
    killSums m s unspent
    return ({ m with isKillCheckpoint := true, unstakes := killUnstakes s }, s.committee)
  else if current < n then
    let c ← okOr (db.getStakeChange X m.subnetId n) (.invalidParams
      "Stake change with configuration number \x7b\x7d not found.")
    let _ ← c.committeeAfterChange.multisigAddress.requireNetwork
    return ({ m with unstakes := pendingUnstakes X db s m.subnetId }, c.committeeAfterChange)
  else if n = 0 ∨ n = current then return (m, s.committee)
  else raise (.invalidParams "Invalid next committee configuration number: \x7b\x7d")

/-- The checkpoint message as it is built, its PSBT and the batch transfer transaction. -/
structure GenCheckpointPsbt where
  msg : IpcCheckpointSubnetMsg
  unsignedPsbt : Psbt
  batchTransferTx : Option Transaction

def genCheckpointPsbt (σ τ : MapOrders) (db : HeedDb) (validator : XOnlyPublicKey)
    (r : CheckpointRequest) (unspent : List Utxo) (feeRate : FeeRate) :
    Outcome RpcError GenCheckpointPsbt := do
  let m := r.toMsg
  orInvalidParams "\x7b\x7d" m.validate
  let s ← okOr (db.getSubnetState X m.subnetId) (.invalidParams "Subnet \x7b\x7d not found.")
  ensure (s.isValidator validator = true) (.invalidParams
    "Configured validator isn't a validator in the specified subnet.")
  ensure (¬ s.isKilled = true) (.invalidParams
    "Subnet \x7b\x7d is killed, cannot generate checkpoint.")
  let shouldKill ← s.shouldKill
  let m ← orInvalidParams "\x7b\x7d" (m.updateSubnetsForTransfer X db)
  let (m, next) ← planRotation X db s shouldKill m unspent
  orInvalidParams "\x7b\x7d" (validateErcBatchData X m.subnetId m.tokenRegistrations
    m.tokenSupplyAdjustments m.tokenTransfers db)
  let psbt ← orInternal (m.toCheckpointPsbt X σ s.committee next feeRate unspent)
  let returnAddress ← s.committee.multisigAddress.requireNetwork
  let reveal ← orInternal (m.makeRevealBatchTransferTx X τ (X.computeTxid psbt.unsignedTx)
    feeRate returnAddress)
  return ⟨m, psbt, reveal⟩

end Provider
