import BitcoinIpc.Crates
import Mathlib.Data.List.Sort

/-!
# Committee multisig

Power of a collateral, the threshold script and its address, the size of the
witness that spends it, coin selection and the unsigned spending transaction.
Powers are unsigned 32-bit integers; their sums and the doubled total of the
threshold panic on overflow.
-/

namespace Multisig

open Faults Bytes Chain Messages Crates

abbrev Power := Nat
abbrev WeightedKey := XOnlyPublicKey × Power

def powerBound : Nat := 2 ^ 32

def powerScaleFactor : Nat := 10000
def maxPower : Nat := 2 ^ 32 - 1
def checkpointConsolidationLimit : Nat := 50

def sumPower {ε : Type} (l : List Power) : Outcome ε Power :=
  if l.sum < powerBound then .ok l.sum else panicked

def multisigThreshold {ε : Type} (totalPower : Power) : Outcome ε Power :=
  if totalPower * 2 < powerBound then .ok (totalPower * 2 / 3 + 1) else panicked

def collateralToPower (amount minAmount : Amount) : Outcome MultisigError Power := do
  ensure (minAmount ≤ amount) .insufficientCollateral
  let power := min amount maxPower / powerScaleFactor
  ensure (power < powerBound) .collateralTooHigh
  return power

/-- The power of an amount that reaches the minimum. -/
def powerOf (amount : Amount) : Power := min amount maxPower / powerScaleFactor

theorem powerOf_lt (amount : Amount) : powerOf amount < powerBound := by
  have h1 : powerOf amount ≤ min amount maxPower := Nat.div_le_self _ _
  have h2 : min amount maxPower ≤ maxPower := Nat.min_le_right _ _
  have h3 : maxPower < powerBound := by decide
  exact lt_of_le_of_lt (le_trans h1 h2) h3

theorem collateralToPower_of_le {amount minAmount : Amount} (h : minAmount ≤ amount) :
    collateralToPower amount minAmount = .ok (powerOf amount) := by
  have hp := powerOf_lt amount
  simp only [collateralToPower, ensure_pos h, ok_bind]
  rw [ensure_pos (by exact hp)]
  rfl

theorem collateralToPower_of_lt {amount minAmount : Amount} (h : amount < minAmount) :
    collateralToPower amount minAmount = raise .insufficientCollateral := by
  simp only [collateralToPower, ensure_neg (not_le.mpr h), raise_bind]

theorem collateralToPower_eq_ok {amount minAmount : Amount} {p : Power} :
    collateralToPower amount minAmount = .ok p ↔ minAmount ≤ amount ∧ p = powerOf amount := by
  by_cases h : minAmount ≤ amount
  · simp [collateralToPower_of_le h, h, eq_comm]
  · simp [collateralToPower_of_lt (not_le.mp h), h]

def sortCommitteeKeys (keys : List WeightedKey) : List WeightedKey :=
  keys.insertionSort (fun a b => a.1.num ≤ b.1.num)

/-- Script of one committee member: its power is added when its signature checks. -/
def memberScript (k : WeightedKey) : Script :=
  [opSwap] ++ pushSlice k.1.bytes ++ [opChecksig, opIf] ++ pushInt k.2 ++ [opAdd, opEndif]

def createMultisigScript (keys : List WeightedKey) (threshold : Power) :
    Outcome MultisigError Script := do
  let totalWeight ← sumPower (keys.map Prod.snd)
  ensure (threshold ≤ totalWeight) .insufficientTotalPower
  return pushInt 0 ++ (sortCommitteeKeys keys).flatMap memberScript ++
    pushInt threshold ++ [opGreaterThanOrEqual]

def createUnspendableSubnetIdScript (t : Txid20) : Script := opReturn :: pushSlice t.bytes

variable (X : Library)

def createSubnetMultisigAddress (subnetId : SubnetId) (keys : List WeightedKey)
    (threshold : Power) : Outcome MultisigError Address := do
  let script ← createMultisigScript keys threshold
  let id ← subnetId.txid20
  return Address.p2tr (X.taprootOutputKey
    (.branch (.leaf script) (.leaf (createUnspendableSubnetIdScript id))))

def varIntSize (n : Nat) : Nat :=
  if n < 0xfd then 1 else if n < 0x10000 then 3 else if n < 0x100000000 then 5 else 9

def multisigSpendMaxWitnessSize (keys : List WeightedKey) (threshold : Power) : Nat :=
  let committeeSize := keys.length
  let signaturesSize := 64 * committeeSize
  let scriptSize := 1 + (keys.map (fun k => 32 + 5 + varIntSize k.2)).sum +
    varIntSize threshold + 1
  let controlBlockContentSize := 33 + 32
  let varInts := varIntSize (committeeSize + 2) + varIntSize 64 * committeeSize +
    varIntSize scriptSize + varIntSize controlBlockContentSize
  signaturesSize + scriptSize + controlBlockContentSize + varInts

/-- An entry of `listunspent`. -/
structure Utxo where
  txid : Txid
  vout : Nat
  amount : Amount
  scriptPubkey : Script
deriving DecidableEq

/-- Largest amount first, then by transaction id and output index. -/
def utxoBefore (a b : Utxo) : Prop :=
  b.amount < a.amount ∨ (a.amount = b.amount ∧
    (a.txid.num < b.txid.num ∨ (a.txid.num = b.txid.num ∧ a.vout ≤ b.vout)))

instance : DecidableRel utxoBefore := fun _ _ => by unfold utxoBefore; infer_instance

def sortUtxos (l : List Utxo) : List Utxo := l.insertionSort utxoBefore

structure Selection where
  selected : List Utxo
  totalAmount : Amount
  totalWeight : Weight
deriving DecidableEq

/-- Phase 1: the largest entries until the target and the fee are covered. Returns
the selection and the entries that were not visited. -/
def selectLargest (target : Amount) (feeRate : FeeRate) (perInput : Weight) :
    List Utxo → Selection → Outcome MultisigError (Selection × List Utxo)
  | [], _ => raise (.coinSelectionFailed "Insufficient funds")
  | u :: rest, s => do
    let totalAmount ← addAmount s.totalAmount u.amount
    let totalWeight := s.totalWeight + perInput
    let totalFee ← expect (X.feeWu feeRate totalWeight)
    let need ← addAmount target totalFee
    let s' : Selection := ⟨s.selected ++ [u], totalAmount, totalWeight⟩
    if need ≤ totalAmount then return (s', rest)
    else selectLargest target feeRate perInput rest s'

/-- Phase 2: folds in small entries while the change stays above dust. -/
def consolidate (target : Amount) (feeRate : FeeRate) (perInput : Weight) (dust : Amount) :
    List Utxo → Selection → Outcome MultisigError Selection
  | [], s => .ok s
  | u :: rest, s => do
    let nextWeight := s.totalWeight + perInput
    let nextAmount ← addAmount s.totalAmount u.amount
    let nextFee ← expect (X.feeWu feeRate nextWeight)
    let need ← addAmount target nextFee
    let bound ← addAmount need dust
    if nextAmount < bound then return s
    else consolidate target feeRate perInput dust rest ⟨s.selected ++ [u], nextAmount, nextWeight⟩

def selectCoins (target : Amount) (utxos : List Utxo) (feeRate : FeeRate)
    (baseTxWeight perInput : Weight) (changeAddress : Address) (consolidationLimit : Nat) :
    Outcome MultisigError (List Utxo × Option TxOut) := do
  let dust := X.minimalNonDust changeAddress.scriptPubkey
  let (s, rest) ← selectLargest X target feeRate perInput (sortUtxos utxos)
    ⟨[], 0, baseTxWeight⟩
  let s ← consolidate X target feeRate perInput dust
    (rest.reverse.take consolidationLimit) s
  let totalFee ← expect (X.feeWu feeRate s.totalWeight)
  ensure (target + totalFee ≤ s.totalAmount)
    (.coinSelectionFailed "Insufficient funds to cover outputs and fees")
  let change := s.totalAmount - target - totalFee
  if dust < change then return (s.selected, some ⟨change, changeAddress.scriptPubkey⟩)
  else return (s.selected, none)

def spendInput (u : Utxo) : TxIn := ⟨⟨u.txid, u.vout⟩, [], 0xffffffff, []⟩

def spendTransaction (inputs : List TxIn) (outputs : List TxOut) : Transaction :=
  ⟨2, 0, inputs, outputs⟩

/-- Every entry is spent and what remains after the outputs and the fee is change. -/
def sweepTransaction (spendWitnessSize : Nat) (changeAddress : Address) (unspent : List Utxo)
    (txOuts : List TxOut) (feeRate : FeeRate) : Outcome MultisigError Transaction := do
  ensure (unspent ≠ []) (.coinSelectionFailed "No UTXOs available")
  let totalInput ← sumAmounts (unspent.map (·.amount))
  let totalOutput ← sumAmounts (txOuts.map (·.value))
  ensure (totalOutput ≤ totalInput) (.coinSelectionFailed "Insufficient funds to cover outputs")
  let inputs := (sortUtxos unspent).map spendInput
  let tentativeTx := spendTransaction inputs (txOuts ++ [⟨1, changeAddress.scriptPubkey⟩])
  let fee ← expect (X.feeWu feeRate
    (X.weight tentativeTx + spendWitnessSize * unspent.length))
  ensure (fee ≤ totalInput - totalOutput)
    (.coinSelectionFailed "Insufficient funds to cover outputs and fees")
  let remaining := totalInput - totalOutput - fee
  if X.minimalNonDust changeAddress.scriptPubkey < remaining then
    return spendTransaction inputs (txOuts ++ [⟨remaining, changeAddress.scriptPubkey⟩])
  else return spendTransaction inputs txOuts

/-- Size of an input without its witness. -/
def txInBaseSize : Nat := 41

def constructSpendUnsignedTransaction (keys : List WeightedKey) (threshold : Power)
    (changeAddress : Address) (unspent : List Utxo) (exhaustUnspent : Bool)
    (txOuts : List TxOut) (feeRate : FeeRate) (consolidationLimit : Nat) :
    Outcome MultisigError Transaction := do
  let spendWitnessSize := multisigSpendMaxWitnessSize keys threshold
  if exhaustUnspent then
    sweepTransaction X spendWitnessSize changeAddress unspent txOuts feeRate
  else
    let perInput := 4 * txInBaseSize + spendWitnessSize
    let dust := X.minimalNonDust changeAddress.scriptPubkey
    let amount ← sumAmounts (txOuts.map (·.value))
    let baseTx := spendTransaction [] (txOuts ++ [⟨dust, changeAddress.scriptPubkey⟩])
    let (selected, change) ← selectCoins X amount unspent feeRate (X.weight baseTx) perInput
      changeAddress consolidationLimit
    return spendTransaction (selected.map spendInput) (txOuts ++ change.toList)

/-- An unsigned transaction with the outputs its inputs spend and their script. -/
structure Psbt where
  unsignedTx : Transaction
  witnessScript : Script
  witnessUtxos : List TxOut
deriving DecidableEq

/-- The output spent by an input, looked up among the entries. -/
def findUtxo (unspent : List Utxo) (i : TxIn) : Outcome MultisigError TxOut := do
  let u ← okOr (unspent.find? (fun u => u.txid = i.previousOutput.txid ∧
    u.vout = i.previousOutput.vout)) (.psbtError "Cannot find matching utxo for \x7b\x7d")
  return ⟨u.amount, u.scriptPubkey⟩

def constructSpendPsbt (subnetId : SubnetId) (keys : List WeightedKey) (threshold : Power)
    (changeAddress : Address) (unspent : List Utxo) (exhaustUnspent : Bool)
    (txOuts : List TxOut) (feeRate : FeeRate) (consolidationLimit : Nat) :
    Outcome MultisigError Psbt := do
  let unsignedTx ← constructSpendUnsignedTransaction X keys threshold changeAddress unspent
    exhaustUnspent txOuts feeRate consolidationLimit
  let script ← createMultisigScript keys threshold
  let _ ← createSubnetMultisigAddress X subnetId keys threshold
  let witnessUtxos ← traverseList (findUtxo unspent) unsignedTx.input
  return ⟨unsignedTx, script, witnessUtxos⟩

end Multisig
