import BitcoinIpc.Chain

/-!
# IPC messages

Subnet identifiers, the messages carried by Bitcoin transactions and the checks
a message passes on its own, before any database is read. Error texts are the
format strings of the source; the values filled into them are left out, since
nothing reads an error's text.
-/

namespace Messages

open Faults Bytes Chain

abbrev Txid20 := FixedBytes 20

/-- Payload of an FVM address. -/
inductive FvmAddress where
  | id (actor : Nat)
  | secp256k1 (hash : FixedBytes 20)
  | actor (hash : FixedBytes 20)
  | bls (key : FixedBytes 48)
  | delegated (ns : Nat) (subaddress : List UInt8)
deriving DecidableEq

structure SubnetId where
  addr : FvmAddress
deriving DecidableEq

def l1DelegatedNamespace : Nat := 10

namespace Txid20

/-- First 20 bytes of a transaction id. -/
def fromTxid (txid : Txid) : Txid20 :=
  ⟨txid.bytes.take 20, by simp [txid.length_eq]⟩

end Txid20

namespace SubnetId

def innerLen : Nat := 20

def fromTxid20 (t : Txid20) : SubnetId := ⟨.delegated l1DelegatedNamespace t.bytes⟩

def fromTxid (txid : Txid) : SubnetId := fromTxid20 (Txid20.fromTxid txid)

/-- The 20 bytes of a delegated address; other addresses panic. -/
def txid20 {ε : Type} (s : SubnetId) : Outcome ε Txid20 :=
  match s.addr with
  | .delegated _ sub => expect (FixedBytes.ofList? 20 sub)
  | _ => panicked

def default : SubnetId := fromTxid (FixedBytes.zeros 32)

theorem txid20_eq_ok {ε : Type} {s : SubnetId} {t : Txid20} :
    (s.txid20 : Outcome ε Txid20) = .ok t ↔ ∃ ns, s.addr = .delegated ns t.bytes := by
  unfold txid20
  constructor
  · intro h
    split at h
    case h_1 ns sub haddr =>
      exact ⟨ns, by rw [haddr, FixedBytes.ofList?_eq_some.mp (expect_eq_ok.mp h)]⟩
    case h_2 => cases h
  · rintro ⟨ns, haddr⟩
    rw [haddr]
    exact expect_eq_ok.mpr (FixedBytes.ofList?_bytes t)

@[simp] theorem txid20_fromTxid20 {ε : Type} (t : Txid20) :
    ((fromTxid20 t).txid20 : Outcome ε Txid20) = .ok t := by
  simp [txid20, fromTxid20]

/-- The id is an address of the namespace of the chain. -/
def InNamespace (s : SubnetId) : Prop := ∃ t, s = fromTxid20 t

/-- The bytes of an id stand for it exactly if it is in the namespace. -/
theorem fromTxid20_eq_iff {ε : Type} {s : SubnetId} {t : Txid20}
    (h : (s.txid20 : Outcome ε Txid20) = .ok t) : fromTxid20 t = s ↔ s.InNamespace := by
  constructor
  · intro heq
    exact ⟨t, heq.symm⟩
  · rintro ⟨u, rfl⟩
    rw [txid20_fromTxid20] at h
    rw [Except.ok.inj h]

theorem fromTxid20_injective : Function.Injective fromTxid20 := by
  intro a b h
  have : a.bytes = b.bytes := by simpa [fromTxid20] using h
  exact FixedBytes.ext_bytes this

end SubnetId

inductive IpcValidateError where
  | invalidMsg (text : String)
  | invalidField (field text : String)
deriving DecidableEq

inductive DbError where
  | invalidChange (text : String)
deriving DecidableEq

inductive MultisigError where
  | insufficientTotalPower
  | insufficientCollateral
  | collateralTooHigh
  | taprootBuilderNotFinalizable
  | coinSelectionFailed (text : String)
  | psbtError (text : String)
deriving DecidableEq

inductive IpcLibError where
  | msgParseError (tag text : String)
  | ipcValidateError (e : IpcValidateError)
  | dbError (e : DbError)
  | bitcoinUtilsError (e : BitcoinUtilsError)
  | multisigError (e : MultisigError)
deriving DecidableEq

inductive MonitorError where
  | ipcTxInvalid (text : String)
  | ipcMsgInvalid (e : IpcValidateError)
  | ipcMsgProcessingError (e : IpcLibError)
  | dbError (e : DbError)
deriving DecidableEq

def ipcTagLength : Nat := 6

def tagBytes (tag : String) : List UInt8 := tag.toList.map (fun c => UInt8.ofNat c.toNat)

def ipcCreateSubnetTag : String := "IPCCRT"
def ipcPrefundSubnetTag : String := "IPCPFD"
def ipcJoinSubnetTag : String := "IPCJOI"
def ipcFundSubnetTag : String := "IPCFND"
def ipcCheckpointTag : String := "IPCCPT"
def ipcTransferTag : String := "IPCTFR"
def ipcStakeTag : String := "IPCSTK"
def ipcUnstakeTag : String := "IPCUST"
def ipcKillSubnetTag : String := "IPCKIL"

inductive IpcTag where
  | createSubnet
  | joinSubnet
  | prefundSubnet
  | fundSubnet
  | checkpointSubnet
  | batchTransfer
  | stakeCollateral
  | unstakeCollateral
  | killSubnet
deriving DecidableEq

def IpcTag.asStr : IpcTag → String
  | .createSubnet => ipcCreateSubnetTag
  | .joinSubnet => ipcJoinSubnetTag
  | .prefundSubnet => ipcPrefundSubnetTag
  | .fundSubnet => ipcFundSubnetTag
  | .checkpointSubnet => ipcCheckpointTag
  | .batchTransfer => ipcTransferTag
  | .stakeCollateral => ipcStakeTag
  | .unstakeCollateral => ipcUnstakeTag
  | .killSubnet => ipcKillSubnetTag

/-- `IpcTag::from_str` on the bytes of a tag. -/
def IpcTag.fromBytes (b : List UInt8) : Option IpcTag :=
  [.createSubnet, .joinSubnet, .prefundSubnet, .fundSubnet, .checkpointSubnet,
    .batchTransfer, .stakeCollateral, .unstakeCollateral, .killSubnet].find?
    (fun t => tagBytes t.asStr == b)

structure IpcCreateSubnetMsg where
  minValidatorStake : Amount
  minValidators : Nat
  bottomupCheckPeriod : Nat
  activeValidatorsLimit : Nat
  minCrossMsgFee : Amount
  whitelist : List XOnlyPublicKey
deriving DecidableEq

def IpcCreateSubnetMsg.validate (m : IpcCreateSubnetMsg) : Outcome IpcValidateError Unit := do
  ensure (m.minValidators ≠ 0) (.invalidField "min_validators"
    "The minimum number of validators must be greater than 0")
  ensure (m.minValidators ≤ m.whitelist.length) (.invalidField "whitelist"
    "Number of whitelisted validators is less than the minimum required validators")
  ensure (m.bottomupCheckPeriod ≠ 0) (.invalidField "bottomup_check_period"
    "Must be greater than 0")
  ensure (m.minValidators ≤ m.activeValidatorsLimit) (.invalidField "active_validators_limit"
    "Must be greater than or equal to min_validators")
  ensure (m.minCrossMsgFee ≠ 0) (.invalidField "min_cross_msg_fee" "Must be greater than 0")

structure SocketAddr where
  host : List UInt8
  port : Nat
deriving DecidableEq

structure IpcJoinSubnetMsg where
  subnetId : SubnetId
  collateral : Amount
  ip : SocketAddr
  backupAddress : Address
  pubkey : XOnlyPublicKey
deriving DecidableEq

def ensureSubnetId (s : SubnetId) : Outcome IpcValidateError Unit :=
  ensure (s ≠ SubnetId.default) (.invalidField "subnet_id" "Subnet ID cannot be all zeros")

def IpcJoinSubnetMsg.validate (m : IpcJoinSubnetMsg) : Outcome IpcValidateError Unit := do
  ensureSubnetId m.subnetId
  ensure (m.collateral ≠ 0) (.invalidField "collateral"
    "Collateral amount must be greater than zero")
  ensure (m.backupAddress.isValidForNetwork = true) (.invalidField "backup_address"
    "Bitcoin address must be for \x7b\x7d")

structure IpcPrefundSubnetMsg where
  subnetId : SubnetId
  amount : Amount
  address : EthAddress
deriving DecidableEq

structure IpcFundSubnetMsg where
  subnetId : SubnetId
  amount : Amount
  address : EthAddress
deriving DecidableEq

/-- The check shared by the two funding messages. -/
def ensureFunding (amount : Amount) : Outcome IpcValidateError Unit :=
  ensure (amount ≠ 0) (.invalidField "value" "Value must be greater than 0")

def IpcPrefundSubnetMsg.validate (m : IpcPrefundSubnetMsg) : Outcome IpcValidateError Unit :=
  ensureFunding m.amount

def IpcFundSubnetMsg.validate (m : IpcFundSubnetMsg) : Outcome IpcValidateError Unit :=
  ensureFunding m.amount

structure IpcStakeCollateralMsg where
  subnetId : SubnetId
  amount : Amount
  pubkey : XOnlyPublicKey
deriving DecidableEq

structure IpcUnstakeCollateralMsg where
  subnetId : SubnetId
  amount : Amount
  pubkey : Option XOnlyPublicKey
deriving DecidableEq

structure IpcKillSubnetMsg where
  subnetId : SubnetId
  pubkey : Option XOnlyPublicKey
deriving DecidableEq

def ensureStakeAmount (amount : Amount) : Outcome IpcValidateError Unit :=
  ensure (amount ≠ 0) (.invalidField "amount" "Amount must be greater than zero")

def IpcStakeCollateralMsg.validate (m : IpcStakeCollateralMsg) :
    Outcome IpcValidateError Unit := do
  ensureSubnetId m.subnetId
  ensureStakeAmount m.amount

def IpcUnstakeCollateralMsg.validate (m : IpcUnstakeCollateralMsg) :
    Outcome IpcValidateError Unit := do
  ensureSubnetId m.subnetId
  ensureStakeAmount m.amount

def IpcKillSubnetMsg.validate (m : IpcKillSubnetMsg) : Outcome IpcValidateError Unit :=
  ensureSubnetId m.subnetId

def u256Bound : Nat := 2 ^ 256

instance : NeZero u256Bound := ⟨by decide⟩

/-- Unsigned 256-bit integers. -/
abbrev U256 := Fin u256Bound

namespace U256

def max : U256 := ⟨u256Bound - 1, by decide⟩

def saturatingAdd (a b : U256) : U256 :=
  if h : a.val + b.val < u256Bound then ⟨a.val + b.val, h⟩ else max

def checkedAdd (a b : U256) : Option U256 :=
  if h : a.val + b.val < u256Bound then some ⟨a.val + b.val, h⟩ else none

def checkedSub (a b : U256) : Option U256 :=
  if b.val ≤ a.val then some ⟨a.val - b.val, lt_of_le_of_lt (Nat.sub_le _ _) a.isLt⟩ else none

end U256

/-- Signed 256-bit integers. -/
structure I256 where
  val : Int
  low : -2 ^ 255 ≤ val
  high : val < 2 ^ 255
deriving DecidableEq

namespace I256

def isNegative (z : I256) : Bool := z.val < 0

/-- The absolute value of `into_sign_and_abs`. -/
def abs (z : I256) : U256 := ⟨z.val.natAbs, by
  have h1 := z.low
  have h2 := z.high
  have : (u256Bound : Int) = 2 * 2 ^ 255 := by decide
  omega⟩

end I256

structure IpcErcTokenRegistration where
  homeTokenAddress : EthAddress
  name : List Char
  symbol : List Char
  decimals : Nat
  initialSupply : U256
deriving DecidableEq

structure IpcErcSupplyAdjustment where
  homeTokenAddress : EthAddress
  delta : I256
deriving DecidableEq

structure IpcCrossSubnetErcTransfer where
  homeSubnetId : SubnetId
  homeTokenAddress : EthAddress
  amount : U256
  destinationSubnetId : SubnetId
  recipient : EthAddress
deriving DecidableEq

structure IpcCrossSubnetErcTransferWire where
  homeSubnetId : SubnetId
  homeTokenAddress : EthAddress
  amount : U256
  recipient : EthAddress
deriving DecidableEq

/-- Content of a batch transfer witness. The entries of the two hash maps stand
in the order in which they are serialized. -/
structure BatchTransferWireData where
  transfers : List (Txid20 × List (EthAddress × Amount))
  tokenRegistrations : List IpcErcTokenRegistration
  tokenSupplyAdjustments : List IpcErcSupplyAdjustment
  tokenTransfers : List (Txid20 × List IpcCrossSubnetErcTransferWire)
deriving DecidableEq

structure IpcWithdrawal where
  amount : Amount
  address : Address
deriving DecidableEq

structure IpcUnstake where
  amount : Amount
  address : Address
  pubkey : XOnlyPublicKey
deriving DecidableEq

structure IpcCrossSubnetTransfer where
  amount : Amount
  destinationSubnetId : SubnetId
  subnetMultisigAddress : Option Address
  subnetUserAddress : EthAddress
deriving DecidableEq

structure IpcCheckpointSubnetMsg where
  subnetId : SubnetId
  checkpointHash : FixedBytes 32
  checkpointHeight : Nat
  nextCommitteeConfigurationNumber : Nat
  withdrawals : List IpcWithdrawal
  transfers : List IpcCrossSubnetTransfer
  tokenRegistrations : List IpcErcTokenRegistration
  tokenSupplyAdjustments : List IpcErcSupplyAdjustment
  tokenTransfers : List IpcCrossSubnetErcTransfer
  unstakes : List IpcUnstake
  changeAddress : Option Address
  isKillCheckpoint : Bool
deriving DecidableEq

/-- Runs a check over a list, returning the first error. -/
def forEach {ε α : Type} (l : List α) (check : α → Outcome ε Unit) : Outcome ε Unit :=
  match l with
  | [] => .ok ()
  | a :: rest => do
    check a
    forEach rest check

theorem forEach_eq_ok {ε α : Type} {l : List α} {check : α → Outcome ε Unit} :
    forEach l check = .ok () ↔ ∀ a ∈ l, check a = .ok () := by
  induction l with
  | nil => simp [forEach]
  | cons a rest ih =>
    simp only [forEach, bind_eq_ok, List.mem_cons, forall_eq_or_imp]
    constructor
    · rintro ⟨_, ha, hr⟩
      exact ⟨ha, ih.mp hr⟩
    · rintro ⟨ha, hr⟩
      exact ⟨(), ha, ih.mpr hr⟩

/-- The checks on one payment of a checkpoint, under the names of its fields. -/
def ensurePayment (amountField amountText addressField : String) (amount : Amount)
    (address : Address) : Outcome IpcValidateError Unit := do
  ensure (amount ≠ 0) (.invalidField amountField amountText)
  ensure (address.isValidForNetwork = true) (.invalidField addressField
    "Bitcoin address \x7b:?\x7d must be for the current network")

namespace IpcCheckpointSubnetMsg

def distinctDestinationSubnets (m : IpcCheckpointSubnetMsg) : List SubnetId :=
  (m.transfers.map (·.destinationSubnetId)).dedup

def validate (m : IpcCheckpointSubnetMsg) : Outcome IpcValidateError Unit := do
  ensure (m.checkpointHeight ≠ 0) (.invalidField "checkpoint_height"
    "Checkpoint height must be greater than zero")
  ensure (m.unstakes.length ≤ 255) (.invalidMsg
    "Number of unstakes (\x7b\x7d) exceeds maximum allowed (\x7b\x7d)")
  forEach m.unstakes fun u => ensurePayment "unstake.amount"
    "Unstake amount must be greater than zero" "unstake.address" u.amount u.address
  ensure (m.withdrawals.length ≤ 255) (.invalidMsg
    "Number of withdrawals (\x7b\x7d) exceeds maximum allowed (\x7b\x7d)")
  forEach m.withdrawals fun w => ensurePayment "withdrawal.amount"
    "Withdrawal amount must be greater than zero" "withdrawal.address" w.amount w.address
  forEach m.transfers fun t => ensure (t.amount ≠ 0) (.invalidField "transfer.amount"
    "Transfer amount must be greater than zero")
  ensure (m.distinctDestinationSubnets.length ≤ 255) (.invalidMsg
    "Number of batch transfer destination subnets (\x7b\x7d) exceeds maximum allowed (\x7b\x7d)")
  forEach m.changeAddress.toList fun a => ensure (a.isValidForNetwork = true)
    (.invalidField "change_address"
      "Bitcoin address \x7b:?\x7d must be for the current network")
  ensure (¬ (m.isKillCheckpoint = true ∧ m.changeAddress.isSome = true))
    (.invalidField "change_address" "Change address must not be set for kill checkpoint")

/-- Whether the checkpoint carries a batch transfer. -/
def hasBatch (m : IpcCheckpointSubnetMsg) : Bool :=
  !m.transfers.isEmpty || !m.tokenRegistrations.isEmpty ||
    !m.tokenSupplyAdjustments.isEmpty || !m.tokenTransfers.isEmpty

end IpcCheckpointSubnetMsg

structure IpcBatchTransferMsg where
  subnetId : SubnetId
  checkpointTxid : Txid
  checkpointVout : Nat
  transfers : List IpcCrossSubnetTransfer
  tokenRegistrations : List IpcErcTokenRegistration
  tokenSupplyAdjustments : List IpcErcSupplyAdjustment
  tokenTransfers : List IpcCrossSubnetErcTransfer
deriving DecidableEq

/-- A check of a field of a batch transfer. -/
def ensureField (p : Prop) [Decidable p] (field text : String) : Outcome IpcValidateError Unit :=
  ensure p (.invalidField field text)

def zeroEthAddress : EthAddress := FixedBytes.zeros 20

def IpcBatchTransferMsg.validate (m : IpcBatchTransferMsg) : Outcome IpcValidateError Unit := do
  ensureField (m.checkpointTxid ≠ FixedBytes.zeros 32) "checkpoint_txid"
    "Checkpoint txid must not be all zeros"
  ensure (¬ (m.transfers = [] ∧ m.tokenRegistrations = [] ∧
      m.tokenSupplyAdjustments = [] ∧ m.tokenTransfers = [])) (.invalidMsg
    "Batch transfer message must have at least one transfer, token registration, or ERC transfer")
  forEach m.transfers fun t => do
    ensureField (t.amount ≠ 0) "transfer.amount" "Transfer amount must be greater than zero"
    ensureField (t.subnetUserAddress ≠ zeroEthAddress) "transfer.subnet_user_address"
      "Transfer address must not be zero"
  forEach m.tokenRegistrations fun r => do
    ensureField (r.homeTokenAddress ≠ zeroEthAddress) "token_registration.home_token_address"
      "Token address must not be zero"
    ensureField (r.name ≠ []) "token_registration.name" "Token name must not be empty"
    ensureField (r.symbol ≠ []) "token_registration.symbol" "Token symbol must not be empty"
  forEach m.tokenTransfers fun e => do
    ensureField (e.homeTokenAddress ≠ zeroEthAddress) "erc_transfer.home_token_address"
      "ERC transfer token address must not be zero"
    ensureField (e.recipient ≠ zeroEthAddress) "erc_transfer.recipient"
      "ERC transfer recipient must not be zero"
    ensureField (e.amount ≠ 0) "erc_transfer.amount"
      "ERC transfer amount must be greater than zero"

inductive IpcMessage where
  | createSubnet (m : IpcCreateSubnetMsg)
  | joinSubnet (m : IpcJoinSubnetMsg)
  | prefundSubnet (m : IpcPrefundSubnetMsg)
  | fundSubnet (m : IpcFundSubnetMsg)
  | checkpointSubnet (m : IpcCheckpointSubnetMsg)
  | batchTransfer (m : IpcBatchTransferMsg)
  | stakeCollateral (m : IpcStakeCollateralMsg)
  | unstakeCollateral (m : IpcUnstakeCollateralMsg)
  | killSubnet (m : IpcKillSubnetMsg)
deriving DecidableEq

/-- Creations and joins are carried by a witness, all other messages by outputs. -/
def IpcMessage.inWitness : IpcMessage → Bool
  | .createSubnet _ => true
  | .joinSubnet _ => true
  | _ => false

end Messages
