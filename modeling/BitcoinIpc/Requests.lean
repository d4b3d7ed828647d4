import BitcoinIpc.Provider

/-!
# The requests of users and validators

What the provider does with a request to fund a subnet, to stake, to unstake or
to kill it: it makes its checks on the database, builds the transaction and has
the wallet add inputs and change and sign it. The wallet and the fee rate are
parameters. An unstake and a kill are funded first and then signed for the
transaction that the first input spends. The encoder of a prefund message stands
beside the others.
-/

namespace Messages

open Faults Bytes Chain Crates Multisig Db

variable (X : Library)

def createTxFromTxouts (txOuts : List TxOut) : Transaction := ⟨2, 0, [], txOuts⟩

/-- The output that carries the data of a request. -/
def dataTxOut (feeRate : FeeRate) (data : List UInt8) : TxOut :=
  let script := makeOpReturnScript data
  ⟨X.minimalNonDustCustom script feeRate, script⟩

/-- The least output that names a subnet by the address of its committee. -/
def namingTxOut (feeRate : FeeRate) (a : Address) : TxOut :=
  ⟨X.minimalNonDustCustom a.scriptPubkey feeRate, a.scriptPubkey⟩

def opCsv : UInt8 := 0xb2

/-- Pays one address, or another one after some blocks. -/
def createSendWithTimelockReleaseTxScript (receive release : Address) (releaseBlocks : Nat) :
    Script :=
  let sendScript := receive.scriptPubkey
  let releaseScript := pushInt releaseBlocks ++ [opCsv, opDrop] ++ release.scriptPubkey
  -- two leaves of depth one complete the tree, so the builder does not fail
  Address.p2trScript (X.taprootOutputKey (.branch (.leaf sendScript) (.leaf releaseScript)))

def IpcPrefundSubnetMsg.releaseLocktime : Nat := 6

def IpcPrefundSubnetMsg.toTx {ε : Type} (m : IpcPrefundSubnetMsg) (feeRate : FeeRate)
    (a release : Address) : Outcome ε Transaction := do
  let id ← m.subnetId.txid20
  return createTxFromTxouts
    [dataTxOut X feeRate (tagBytes ipcPrefundSubnetTag ++ id.bytes ++ m.address.bytes),
      ⟨m.amount, createSendWithTimelockReleaseTxScript X a release releaseLocktime⟩]

def IpcFundSubnetMsg.toTx {ε : Type} (m : IpcFundSubnetMsg) (feeRate : FeeRate) (a : Address) :
    Outcome ε Transaction := do
  let id ← m.subnetId.txid20
  return createTxFromTxouts
    [dataTxOut X feeRate (tagBytes ipcFundSubnetTag ++ id.bytes ++ m.address.bytes),
      ⟨m.amount, a.scriptPubkey⟩]

def IpcStakeCollateralMsg.toTx (m : IpcStakeCollateralMsg) (feeRate : FeeRate) (a : Address) :
    Transaction :=
  createTxFromTxouts [dataTxOut X feeRate (tagBytes ipcStakeTag ++ m.pubkey.bytes),
    ⟨m.amount, a.scriptPubkey⟩]

def IpcUnstakeCollateralMsg.toTx (m : IpcUnstakeCollateralMsg) (feeRate : FeeRate) (a : Address)
    (signature : Signature) : Transaction :=
  createTxFromTxouts [dataTxOut X feeRate
      (tagBytes ipcUnstakeTag ++ signature.bytes ++ toBe amountSize m.amount),
    namingTxOut X feeRate a]

def IpcKillSubnetMsg.toTx (feeRate : FeeRate) (a : Address) (signature : Signature) :
    Transaction :=
  createTxFromTxouts [dataTxOut X feeRate (tagBytes ipcKillSubnetTag ++ signature.bytes),
    namingTxOut X feeRate a]

end Messages

namespace Provider

open Faults Bytes Chain Messages Crates Multisig Db

/-- The wallet of the node. -/
structure Wallet where
  feeRate : FeeRate
  fundTx : Transaction → Option Transaction
  signTx : Transaction → Option Transaction

/-- Funding keeps the outputs and puts the change behind them. Signing keeps the
outputs and what is spent, and no witness of the wallet starts like a message. -/
structure WalletLaws (w : Wallet) : Prop where
  funded : ∀ tx tx', w.fundTx tx = some tx' → ∃ change, tx'.output = tx.output ++ change
  signed : ∀ tx tx', w.signTx tx = some tx' → tx'.output = tx.output ∧
    tx'.input.map (·.previousOutput) = tx.input.map (·.previousOutput)
  plain : ∀ tx tx', w.signTx tx = some tx' → ∀ i ∈ tx'.input, ∀ item ∈ i.witness, ∀ data,
    concatenateOpPushData item = .ok data → IpcTag.fromBytes (data.take ipcTagLength) = none

/-- A signature verifies for the key it was made with and for no other. -/
structure SchnorrLaws (X : Library) : Prop where
  complete : ∀ sk d, X.verifySchnorr (X.signSchnorr sk d) d (X.xOnlyPublicKey sk) = true
  exact : ∀ sk d d' k, X.verifySchnorr (X.signSchnorr sk d) d' k = true → k = X.xOnlyPublicKey sk

variable (X : Library) (w : Wallet)

/-- Funds and signs the transaction of a request. -/
def submit (tx : Transaction) : Outcome RpcError Transaction := do
  let tx ← okOr (w.fundTx tx) (.internalError "\x7b\x7d")
  okOr (w.signTx tx) (.internalError "\x7b\x7d")

/-- Funds the transaction with an empty signature, and signs it for its first input. -/
def submitSigned (toTx : Signature → Transaction)
    (makeSignature : Txid → Outcome RpcError Signature) : Outcome RpcError Transaction := do
  let tx ← okOr (w.fundTx (toTx (FixedBytes.zeros 64))) (.internalError "\x7b\x7d")
  let i ← okOr tx.input.head? (.internalError "No inputs in the transaction")
  let signature ← makeSignature i.previousOutput.txid
  let out ← index (toTx signature).output 0
  let _ ← index tx.output 0
  okOr (w.signTx { tx with output := tx.output.set 0 out }) (.internalError "\x7b\x7d")

section Handlers

variable (db : HeedDb)

def readState (id : SubnetId) : Outcome RpcError SubnetState :=
  okOr (db.getSubnetState X id) (.invalidParams "Subnet \x7b\x7d not found.")

def readGenesis (id : SubnetId) : Outcome RpcError SubnetGenesisInfo :=
  okOr (db.getSubnetGenesisInfo X id) (.invalidParams "Subnet \x7b\x7d not found.")

/-- The state of the subnet is not checked, only that there is one. -/
def fundSubnet (m : IpcFundSubnetMsg) : Outcome RpcError Transaction := do
  orInvalidParams "\x7b\x7d" m.validate
  let s ← readState X db m.subnetId
  let a ← s.committee.multisigAddress.requireNetwork
  submit w (← m.toTx X w.feeRate a)

def stakeCollateral (m : IpcStakeCollateralMsg) : Outcome RpcError Transaction := do
  orInvalidParams "\x7b\x7d" m.validate
  let s ← readState X db m.subnetId
  orInvalidParams "\x7b\x7d" (m.validateForSubnet s)
  let a ← s.committee.multisigAddress.requireNetwork
  submit w (m.toTx X w.feeRate a)

/-- The key of the configured validator. Its public key is computed when it is loaded. -/
def configured (validator : Option X.SecretKey) : Outcome RpcError X.SecretKey :=
  okOr validator (.internalError "No validator keypair configured.")

def unstakeCollateral (validator : Option X.SecretKey) (m : IpcUnstakeCollateralMsg) :
    Outcome RpcError Transaction := do
  let sk ← configured X validator
  let m := { m with pubkey := some (X.xOnlyPublicKey sk) }
  orInvalidParams "\x7b\x7d" m.validate
  let g ← readGenesis X db m.subnetId
  let s ← readState X db m.subnetId
  orInvalidParams "\x7b\x7d" (m.validateForSubnet g s)
  let a ← s.committee.multisigAddress.requireNetwork
  submitSigned w (m.toTx X w.feeRate a) (fun prev => m.makeSignature X prev sk)

def killSubnet (validator : Option X.SecretKey) (m : IpcKillSubnetMsg) :
    Outcome RpcError Transaction := do
  let sk ← configured X validator
  let m := { m with pubkey := some (X.xOnlyPublicKey sk) }
  orInvalidParams "\x7b\x7d" m.validate
  let g ← readGenesis X db m.subnetId
  let s ← readState X db m.subnetId
  orInvalidParams "\x7b\x7d" (m.validateForSubnet g s)
  let requests := db.getValidKillRequests X m.subnetId db.getLastProcessedBlock
  ensure (¬ requests.any (fun r => r.validatorXpk = X.xOnlyPublicKey sk)) (.invalidParams
    "Validator \x7b\x7d has already submitted a kill request for subnet \x7b\x7d")
  let a ← s.committee.multisigAddress.requireNetwork
  submitSigned w (IpcKillSubnetMsg.toTx X w.feeRate a) (fun prev => m.makeSignature X prev sk)

end Handlers

/-- The requests that send one message to the chain. The keys of an unstake and of a
kill are not read from the request. -/
inductive Request where
  | fund (m : IpcFundSubnetMsg)
  | stake (m : IpcStakeCollateralMsg)
  | unstake (subnetId : SubnetId) (amount : Amount)
  | kill (subnetId : SubnetId)

/-- The transaction of a request that passes the checks of its handler. -/
def transactionFor (db : HeedDb) (validator : Option X.SecretKey) :
    Request → Outcome RpcError Transaction
  | .fund m => fundSubnet X w db m
  | .stake m => stakeCollateral X w db m
  | .unstake id amount => unstakeCollateral X w db validator ⟨id, amount, none⟩
  | .kill id => killSubnet X w db validator ⟨id, none⟩

/-- The message a request stands for. -/
def messageFor (validator : Option X.SecretKey) : Request → IpcMessage
  | .fund m => .fundSubnet m
  | .stake m => .stakeCollateral m
  | .unstake id amount => .unstakeCollateral ⟨id, amount, validator.map X.xOnlyPublicKey⟩
  | .kill id => .killSubnet ⟨id, validator.map X.xOnlyPublicKey⟩

end Provider
