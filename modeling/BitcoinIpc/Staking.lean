import BitcoinIpc.Subnets
import BitcoinIpc.Lib.Doubles

/-!
# Staking, unstaking and killing

The handlers of the StakeCollateral, UnstakeCollateral and KillSubnet messages.
The last two are authorised by a signature over a digest that binds the
transaction spent by the first input, the validator's key, the amount and the
subnet; the inputs themselves are not authenticated.
-/

namespace Messages

open Faults Bytes Chain Crates Multisig Db

variable (X : Library)

def schnorrPublicKeySize : Nat := 32
def schnorrSignatureSize : Nat := 64
def amountSize : Nat := 8

/-- The address paid by the second output. -/
def secondOutputAddress (tag : String) (tx : Transaction) : Outcome IpcLibError Address := do
  let out ← index tx.output 1
  okOr (Address.fromScript out.scriptPubkey)
    (.msgParseError tag "Could not parse address from output 1")

/-- The subnet whose current committee is paid by the second output. -/
def payedSubnet (tag notFound : String) (db : HeedDb) (tx : Transaction) :
    Outcome IpcLibError SubnetState := do
  let a ← secondOutputAddress tag tx
  okOr (db.getSubnetByMultisigAddress a) (.msgParseError tag notFound)

/-- The first two checks on the data of a tagged message. -/
def taggedData (tag tooFew : String) (dataLen : Nat) (tx : Transaction) :
    Outcome IpcLibError (List UInt8) := do
  ensure (2 ≤ tx.output.length) (.msgParseError tag tooFew)
  let data ← opReturnData tag "First output must be OP_RETURN with pushdata"
    "Invalid OP_RETURN data length: expected \x7b\x7d, got \x7b\x7d" dataLen tx
  ensure (data.take ipcTagLength = tagBytes tag) (.msgParseError tag
    "Invalid IPC tag: expected \x7b:?\x7d, got \x7b:?\x7d")
  return data

/-- The transaction spent by the first input. -/
def firstPrevTxid (tag : String) (tx : Transaction) : Outcome IpcLibError Txid := do
  let i ← okOr tx.input.head? (.msgParseError tag "No inputs in the transaction")
  return i.previousOutput.txid

/-- The validator of the current committee whose key verifies the signature. -/
def signingValidator (s : SubnetState) (signature : Signature)
    (digest : XOnlyPublicKey → Outcome IpcLibError X.Digest) :
    Outcome IpcLibError SubnetValidator := do
  let found ← findFirst (fun v => do
    let d ← digest v.pubkey
    return X.verifySchnorr signature d v.pubkey) s.committee.validators
  okOr found (invalidMsg
    "Signature doesn't match any of the validators in the committee for subnet \x7b\x7d")

/-- A request for a stake change, recorded with the committee it leads to. -/
def stakeRequest (change : StakingChange) (v : SubnetValidator) (configurationNumber : Nat)
    (committee : SubnetCommittee) (blockHeight : Nat) (blockHash : BlockHash) (txid : Txid) :
    StakeChangeRequest :=
  ⟨change, v.pubkey, v.subnetAddress, configurationNumber, committee, blockHeight, blockHash,
    none, none, txid⟩

namespace IpcStakeCollateralMsg

def fromTx (db : HeedDb) (tx : Transaction) : Outcome IpcLibError IpcStakeCollateralMsg := do
  let data ← taggedData ipcStakeTag
    "Expected at least 2 outputs for stake collateral message, found \x7b\x7d"
    (ipcTagLength + schnorrPublicKeySize) tx
  let pubkey ← okOr ((FixedBytes.ofList? 32 (data.drop ipcTagLength)).filter
    (fun k => X.onCurve k)) (.msgParseError ipcStakeTag "Invalid validator pubkey: \x7b\x7d")
  let out ← index tx.output 1
  let s ← payedSubnet ipcStakeTag
    "StakeCollateralMsg: Could not find subnet with multisig address \x7b:?\x7d" db tx
  return ⟨s.id, out.value, pubkey⟩

/-- `diff < MIN_STAKE_DIFF`, in double precision. Divided by zero the difference is infinite or no
number, and not below. -/
def stakeDiffBelowMin (current amount : Amount) : Bool :=
  let new := Doubles.ofNat 53 (current + amount)
  let old := Doubles.ofNat 53 current
  current ≠ 0 ∧ Doubles.mul 53 (Doubles.div 53 (Doubles.sub 53 new old) old) 100 < 5

def validateForSubnet (m : IpcStakeCollateralMsg) (s : SubnetState) :
    Outcome IpcValidateError Unit := do
  ensure (s.id = m.subnetId) (.invalidField "subnet_id"
    "Subnet ID mismatch: expected \x7b\x7d, got \x7b\x7d")
  ensure (¬ s.isKilledOrPending = true) (.invalidMsg
    "Subnet \x7b\x7d is killed or marked for killing, cannot change stake.")
  ensure (s.latestCommittee.isValidator m.pubkey = true) (.invalidMsg
    "Validator with public key '\x7b\x7d' must already be a validator in subnet \x7b\x7d")
  let current ← s.totalCollateral
  let _ ← addAmount current m.amount
  ensure (¬ stakeDiffBelowMin current m.amount = true) (.invalidMsg
    "Stake addition must change the total collateral by at least \x7b:.2\x7d%. Current change: \x7b:.2\x7d%")

def saveToDb (m : IpcStakeCollateralMsg) (db : HeedDb) (blockHeight : Nat)
    (blockHash : BlockHash) (txid : Txid) : Outcome IpcLibError HeedDb := do
  let g ← okOr (db.getSubnetGenesisInfo X m.subnetId)
    (invalidMsg "subnet id=\x7b\x7d does not exist")
  let s ← okOr (db.getSubnetState X m.subnetId) (invalidMsg "Subnet \x7b\x7d not found.")
  orInvalid (m.validateForSubnet s)
  let v ← okOr (s.latestCommittee.findValidator m.pubkey)
    (invalidMsg "Validator with public key \x7b\x7d not part of committee")
  let collateral ← addAmount m.amount v.collateral
  let power ← mapErr .multisigError
    (collateralToPower collateral g.createSubnetMsg.minValidatorStake)
  let v := { v with collateral := collateral, power := power }
  let next ← mapErr .dbError (s.latestCommittee.modifyValidator X m.subnetId v)
  let n := db.getNextStakeChangeConfigurationNumber X m.subnetId
  let db := db.saveSubnetState X m.subnetId { s with waitingCommittee := some next }
  return db.addStakeChange X m.subnetId
    (stakeRequest (.deposit m.amount) v n next blockHeight blockHash txid)

end IpcStakeCollateralMsg

namespace IpcUnstakeCollateralMsg

/-- The digest a validator signs to unstake. -/
def makeSignatureMsg {ε : Type} (prevTxid : Txid) (pubkey : XOnlyPublicKey) (amount : Amount)
    (subnetId : SubnetId) : Outcome ε X.Digest := do
  let id ← subnetId.txid20
  return X.sha256 (prevTxid.bytes ++ pubkey.bytes ++ toBe amountSize amount ++ id.bytes)

def makeSignature {ε : Type} (m : IpcUnstakeCollateralMsg) (prevTxid : Txid)
    (secretKey : X.SecretKey) : Outcome ε Signature := do
  let d ← makeSignatureMsg X prevTxid (X.xOnlyPublicKey secretKey) m.amount m.subnetId
  return X.signSchnorr secretKey d

def dataLen : Nat := ipcTagLength + schnorrSignatureSize + amountSize

/-- The signature and the amount in the data of the message. -/
def signatureAndAmount (data : List UInt8) : Outcome IpcLibError (Signature × Amount) := do
  let sigBytes ← slice data ipcTagLength (ipcTagLength + schnorrSignatureSize)
  let signature ← okOr (FixedBytes.ofList? 64 sigBytes)
    (.msgParseError ipcUnstakeTag "Invalid schnorr signature: \x7b\x7d")
  let amountBytes ← okOr (FixedBytes.ofList? 8 (data.drop (ipcTagLength + schnorrSignatureSize)))
    (.msgParseError ipcUnstakeTag "Could not parse amount from OP_RETURN data")
  return (signature, fromBe amountBytes.bytes)

def fromTx (db : HeedDb) (tx : Transaction) : Outcome IpcLibError IpcUnstakeCollateralMsg := do
  let data ← taggedData ipcUnstakeTag
    "Expected at least 2 outputs for unstake collateral message, found \x7b\x7d" dataLen tx
  let (signature, amount) ← signatureAndAmount data
  let s ← payedSubnet ipcUnstakeTag
    "StakeCollateralMsg: Could not find subnet with multisig address \x7b:?\x7d" db tx
  let prevTxid ← firstPrevTxid ipcUnstakeTag tx
  let v ← signingValidator X s signature
    (fun k => makeSignatureMsg X prevTxid k amount s.id)
  return ⟨s.id, amount, some v.pubkey⟩

/-- Power of what is left after the unstake, and whether it suffices to participate. -/
def remainingPower (collateral : Amount) (g : SubnetGenesisInfo) :
    Outcome MultisigError (Power × Bool) :=
  match collateralToPower collateral g.createSubnetMsg.minValidatorStake with
  | .ok power => .ok (power, true)
  | .error (.error .insufficientCollateral) => .ok (0, false)
  | .error e => .error e

def validateForSubnet (m : IpcUnstakeCollateralMsg) (g : SubnetGenesisInfo) (s : SubnetState) :
    Outcome IpcValidateError Unit := do
  ensure (¬ (s.id ≠ m.subnetId ∨ g.subnetId ≠ m.subnetId)) (.invalidField "subnet_id"
    "Subnet ID mismatch: expected \x7b\x7d, got \x7b\x7d")
  ensure (¬ s.isKilledOrPending = true) (.invalidMsg
    "Subnet \x7b\x7d is killed or marked for killing, cannot change stake.")
  let pubkey ← okOr m.pubkey (.invalidField "pubkey" "Validator public key is required")
  ensure (s.latestCommittee.isValidator pubkey = true) (.invalidMsg
    "Validator with public key '\x7b\x7d' must already be a validator in subnet \x7b\x7d")
  let total ← s.totalCollateral
  ensure (m.amount ≤ total) (.invalidMsg
    "Unstake amount \x7b\x7d is greater than current collateral \x7b\x7d")
  let v ← okOr (s.latestCommittee.findValidator pubkey)
    (.invalidMsg "Validator with public key \x7b\x7d not part of committee")
  ensure (m.amount ≤ v.collateral) (.invalidMsg
    "Amount \x7b\x7d is greater than current validator collateral \x7b\x7d")
  let (_, sufficient) ← mapErr (fun _ => .invalidMsg "Collateral too high")
    (remainingPower (v.collateral - m.amount) g)
  ensure (¬ (sufficient = false ∧ m.amount ≠ v.collateral)) (.invalidMsg
    "Validator with public key \x7b\x7d has insufficient collateral to participate in the committee after unstaking \x7b\x7d. Please unstake all \x7b\x7d.")

def saveToDb (m : IpcUnstakeCollateralMsg) (db : HeedDb) (blockHeight : Nat)
    (blockHash : BlockHash) (txid : Txid) : Outcome IpcLibError HeedDb := do
  let g ← okOr (db.getSubnetGenesisInfo X m.subnetId)
    (invalidMsg "subnet id=\x7b\x7d does not exist")
  let s ← okOr (db.getSubnetState X m.subnetId) (invalidMsg "Subnet \x7b\x7d not found.")
  orInvalid (m.validateForSubnet g s)
  let pubkey ← expect m.pubkey
  let v ← okOr (s.latestCommittee.findValidator pubkey)
    (invalidMsg "Validator with public key \x7b\x7d not part of committee")
  ensure (m.amount ≤ v.collateral) (invalidMsg
    "Amount \x7b\x7d is greater than current collateral \x7b\x7d")
  let collateral := v.collateral - m.amount
  let (power, sufficient) ← mapErr .multisigError (remainingPower collateral g)
  let changed := { v with collateral := collateral, power := power }
  let next ← mapErr .dbError
    (if power = 0 ∨ sufficient = false then s.latestCommittee.removeValidator X m.subnetId pubkey
      else s.latestCommittee.modifyValidator X m.subnetId changed)
  let n := db.getNextStakeChangeConfigurationNumber X m.subnetId
  let db := db.saveSubnetState X m.subnetId { s with waitingCommittee := some next }
  return db.addStakeChange X m.subnetId
    { stakeRequest (.withdraw m.amount) v n next blockHeight blockHash txid with
      validatorXpk := pubkey }

end IpcUnstakeCollateralMsg

namespace IpcKillSubnetMsg

/-- The digest a validator signs to request the kill. -/
def makeSignatureMsg {ε : Type} (prevTxid : Txid) (pubkey : XOnlyPublicKey)
    (subnetId : SubnetId) : Outcome ε X.Digest := do
  let id ← subnetId.txid20
  return X.sha256 (prevTxid.bytes ++ pubkey.bytes ++ id.bytes)

def makeSignature {ε : Type} (m : IpcKillSubnetMsg) (prevTxid : Txid)
    (secretKey : X.SecretKey) : Outcome ε Signature := do
  let d ← makeSignatureMsg X prevTxid (X.xOnlyPublicKey secretKey) m.subnetId
  return X.signSchnorr secretKey d

def dataLen : Nat := ipcTagLength + schnorrSignatureSize

def fromTx (db : HeedDb) (tx : Transaction) : Outcome IpcLibError IpcKillSubnetMsg := do
  let data ← taggedData ipcKillSubnetTag
    "Expected at least 2 outputs for kill subnet message, found \x7b\x7d" dataLen tx
  let sigBytes ← slice data ipcTagLength (ipcTagLength + schnorrSignatureSize)
  let signature ← okOr (FixedBytes.ofList? 64 sigBytes)
    (.msgParseError ipcKillSubnetTag "Invalid schnorr signature: \x7b\x7d")
  let s ← payedSubnet ipcKillSubnetTag
    "KillSubnetMsg: Could not find subnet with multisig address \x7b:?\x7d" db tx
  let prevTxid ← firstPrevTxid ipcKillSubnetTag tx
  let v ← signingValidator X s signature (fun k => makeSignatureMsg X prevTxid k s.id)
  return ⟨s.id, some v.pubkey⟩

def validateForSubnet (m : IpcKillSubnetMsg) (g : SubnetGenesisInfo) (s : SubnetState) :
    Outcome IpcValidateError Unit := do
  ensure (¬ (s.id ≠ m.subnetId ∨ g.subnetId ≠ m.subnetId)) (.invalidField "subnet_id"
    "Subnet ID mismatch: expected \x7b\x7d, got \x7b\x7d")
  let pubkey ← okOr m.pubkey (.invalidField "pubkey" "Validator public key is required")
  ensure (s.latestCommittee.isValidator pubkey = true) (.invalidMsg
    "Validator with public key '\x7b\x7d' must be a validator in subnet \x7b\x7d")

/-- Power of the validators that requested the kill, in 32 bits. -/
def requestedPower (c : SubnetCommittee) (requests : List KillRequest) :
    Outcome IpcLibError Power :=
  sumPower (requests.filterMap (fun r => (c.findValidator r.validatorXpk).map (·.power)))

def saveToDb (m : IpcKillSubnetMsg) (db : HeedDb) (blockHeight : Nat)
    (blockHash : BlockHash) (txid : Txid) : Outcome IpcLibError HeedDb := do
  let g ← okOr (db.getSubnetGenesisInfo X m.subnetId)
    (invalidMsg "subnet id=\x7b\x7d does not exist")
  let s ← okOr (db.getSubnetState X m.subnetId) (invalidMsg "Subnet \x7b\x7d not found.")
  orInvalid (m.validateForSubnet g s)
  let pubkey ← expect m.pubkey
  let _ ← okOr (s.latestCommittee.findValidator pubkey)
    (invalidMsg "Validator with public key \x7b\x7d not part of committee")
  let valid := db.getValidKillRequests X m.subnetId blockHeight
  let request : KillRequest := ⟨pubkey, blockHeight, blockHash, txid⟩
  ensure (¬ valid.any (fun r => r.validatorXpk = pubkey)) (invalidMsg
    "Validator \x7b\x7d has already submitted a kill request for subnet \x7b\x7d")
  let db := db.addKillRequest X m.subnetId request
  let requested ← requestedPower s.latestCommittee (valid ++ [request])
  let total ← s.latestCommittee.totalPower
  let threshold ← multisigThreshold total
  if threshold ≤ requested ∧ s.killed = .notKilled then
    return db.saveSubnetState X m.subnetId
      { s with
        killed := .toBeKilled
        markedForKillCheckpointNumber :=
          s.lastCheckpointNumber.orElse (fun _ => s.markedForKillCheckpointNumber) }
  else return db

end IpcKillSubnetMsg

end Messages
