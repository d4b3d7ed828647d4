import BitcoinIpc.Transactions

/-!
# Ideal crates

Concrete functions in place of the crates, on which the program can be run. The
codec writes a message as its place in a list of messages, a signature verifies
when it is listed with its key and digest, and hashes are polynomial. The laws
the development assumes of the crates hold of them. At the end stand a subnet
with one validator and the transactions that create it.
-/

namespace Crates

open Faults Bytes Chain Messages Multisig Db Text Grouping Monitor

/-- The messages that can be serialized and the signatures that were made. -/
structure Ideal where
  creates : List IpcCreateSubnetMsg := []
  joins : List IpcJoinSubnetMsg := []
  batches : List BatchTransferWireData := []
  signed : List (XOnlyPublicKey × List UInt8 × Signature) := []

/-- A value is written as its place in the list, in one byte. -/
def placeOf {α : Type} [DecidableEq α] (l : List α) (a : α) : Option (List UInt8) :=
  (l.findIdx? (· = a)).bind (fun i => if i < 256 then some [UInt8.ofNat i] else none)

def atPlace {α : Type} (l : List α) : List UInt8 → Option α
  | [b] => l[b.toNat]?
  | _ => none

theorem atPlace_of_placeOf {α : Type} [DecidableEq α] {l : List α} {a : α} {b : List UInt8}
    (h : placeOf l a = some b) : atPlace l b = some a := by
  obtain ⟨i, hi, h⟩ := Option.bind_eq_some_iff.mp h
  split_ifs at h with hlt
  cases h
  obtain ⟨hlen, heq, -⟩ := List.findIdx?_eq_some_iff_getElem.mp hi
  have hmod : i % 256 = i := Nat.mod_eq_of_lt hlt
  simp only [atPlace, UInt8.toNat_ofNat', hmod, List.getElem?_eq_getElem hlen]
  simpa using heq

/-- A polynomial of numbers, modulo a prime. -/
def polynomial (l : List Nat) : Nat :=
  l.foldl (fun h n => (h * 0x100000001b3 + n + 1) % (2 ^ 256 - 189)) 0xcbf29ce484222325

/-- A polynomial hash of numbers in 32 bytes, which are not all zero. -/
def polynomialHash (l : List Nat) : FixedBytes 32 :=
  ⟨toBe 32 (polynomial l + 1), length_toBe _ _⟩

theorem polynomial_lt (l : List Nat) : polynomial l < 2 ^ 256 - 189 := by
  have hstep : ∀ (l : List Nat) (h : Nat), h < 2 ^ 256 - 189 →
      l.foldl (fun h n => (h * 0x100000001b3 + n + 1) % (2 ^ 256 - 189)) h < 2 ^ 256 - 189 := by
    intro l
    induction l with
    | nil => exact fun h hh => hh
    | cons n rest ih => exact fun h _ => ih _ (Nat.mod_lt _ (by decide))
  exact hstep l _ (by decide)

theorem polynomialHash_ne_zeros (l : List Nat) : polynomialHash l ≠ FixedBytes.zeros 32 := by
  intro h
  have hlt := polynomial_lt l
  have hbytes : fromBe (toBe 32 (polynomial l + 1)) = 0 := by
    rw [show toBe 32 (polynomial l + 1) = _ from congrArg FixedBytes.bytes h]
    decide
  rw [fromBe_toBe_of_lt (lt_of_le_of_lt hlt (by decide))] at hbytes
  omega

/-- The numbers of a transaction without its witnesses. -/
def transactionNumbers (tx : Transaction) : List Nat :=
  [tx.version, tx.lockTime, tx.input.length] ++
    tx.input.flatMap (fun i =>
      [fromLe i.previousOutput.txid.bytes, i.previousOutput.vout, i.sequence]) ++
    tx.output.flatMap (fun o => [o.value, o.scriptPubkey.length, fromLe o.scriptPubkey])

def treeNumbers : TapTree → List Nat
  | .leaf s => [0, s.length, fromLe s]
  | .branch l r => 1 :: (treeNumbers l ++ treeNumbers r)

/-- The first character of a printed address. `set_fvm_network` selects the test network, as
`NETWORK` is not the main one. -/
def networkPrefix : Char := 't'

/-- Addresses as they are printed, but for the encoding of the bytes. -/
def fvmText : FvmAddress → List Char
  | .id n => networkPrefix :: '0' :: decimal n
  | .secp256k1 h => networkPrefix :: '1' :: hexBytes h.bytes
  | .actor h => networkPrefix :: '2' :: hexBytes h.bytes
  | .bls k => networkPrefix :: '3' :: hexBytes k.bytes
  | .delegated ns sub => networkPrefix :: '4' :: (decimal ns ++ 'f' :: hexBytes sub)

def ethText (a : EthAddress) : List Char := '0' :: 'x' :: hexBytes a.bytes

theorem decimal_no_letter (n : Nat) : 'f' ∉ decimal n := by
  intro h
  have := Nat.isDigit_of_mem_toDigits (b := 10) (by omega) (by omega) h
  exact absurd this (by decide)

theorem fvmText_injective : Function.Injective fvmText := by
  intro a b h
  cases a <;> cases b <;> simp only [fvmText, List.cons.injEq, true_and] at h
  case id.id n m => rw [decimal_injective h]
  case secp256k1.secp256k1 n m => rw [FixedBytes.ext_bytes (hexBytes_injective h)]
  case actor.actor n m => rw [FixedBytes.ext_bytes (hexBytes_injective h)]
  case bls.bls n m => rw [FixedBytes.ext_bytes (hexBytes_injective h)]
  case delegated.delegated n s m r =>
    obtain ⟨hn, hs⟩ := join_inj (decimal_no_letter n) (decimal_no_letter m) h
    rw [decimal_injective hn, hexBytes_injective hs]
  all_goals exact absurd h.1 (by decide)

theorem fvmText_no_colon (a : FvmAddress) : ':' ∉ fvmText a := by
  cases a with
  | id n =>
    simp only [fvmText, List.mem_cons, not_or]
    exact ⟨by decide, by decide, decimal_no_colon n⟩
  | secp256k1 h =>
    simp only [fvmText, List.mem_cons, not_or]
    exact ⟨by decide, by decide, hexBytes_no_colon _⟩
  | actor h =>
    simp only [fvmText, List.mem_cons, not_or]
    exact ⟨by decide, by decide, hexBytes_no_colon _⟩
  | bls k =>
    simp only [fvmText, List.mem_cons, not_or]
    exact ⟨by decide, by decide, hexBytes_no_colon _⟩
  | delegated ns sub =>
    simp only [fvmText, List.mem_cons, List.mem_append, not_or]
    exact ⟨by decide, by decide, decimal_no_colon ns, by decide, hexBytes_no_colon sub⟩

theorem length_hexBytes (l : List UInt8) : (hexBytes l).length = 2 * l.length := by
  induction l with
  | nil => rfl
  | cons b rest ih =>
    have hcons : hexBytes (b :: rest) = hexByte b ++ hexBytes rest := rfl
    rw [hcons, List.length_append, ih, List.length_cons]
    have : (hexByte b).length = 2 := rfl
    omega

def ideal (w : Ideal) : Library where
  Digest := List UInt8
  SecretKey := XOnlyPublicKey
  sha256 := id
  xOnlyPublicKey := id
  signSchnorr k d := ((w.signed.find? (fun e => e.1 = k ∧ e.2.1 = d)).map (·.2.2)).getD
    (FixedBytes.zeros 64)
  verifySchnorr sig d k := (k, d, sig) ∈ w.signed
  onCurve _ := true
  ethAddrFromXOnlyPubkey k := ⟨k.bytes.take 20, by simp [k.length_eq]⟩
  computeTxid tx := polynomialHash (transactionNumbers tx)
  taprootOutputKey tree := polynomialHash (treeNumbers tree)
  controlBlock _ := 0xc0 :: List.replicate 32 0
  fvmDisplay := fvmText
  fvmFromStr _ := none
  ethDisplay := ethText
  decodeCreateSubnet := atPlace w.creates
  decodeJoinSubnet := atPlace w.joins
  encodeBatch := placeOf w.batches
  decodeBatch := atPlace w.batches
  weight tx := 4 * (10 + 41 * tx.input.length +
    (tx.output.map (fun o => 9 + o.scriptPubkey.length)).sum) +
    (tx.input.map (fun i => (i.witness.map List.length).sum)).sum
  feeWu rate weight := some (rate * weight / 1000)
  minimalNonDust _ := 330
  minimalNonDustCustom s _ := if s.head? = some opReturn then 0 else 330

theorem displayLaws_ideal (w : Ideal) : DisplayLaws (ideal w) where
  fvm_injective := fvmText_injective
  fvm_no_colon := fvmText_no_colon
  delegated_length t u := by
    simp only [ideal, SubnetId.fromTxid20, fvmText, List.length_cons, List.length_append,
      length_hexBytes, t.length_eq, u.length_eq]
  eth_injective a b h := by
    simp only [ideal, ethText, List.cons.injEq, true_and] at h
    exact FixedBytes.ext_bytes (hexBytes_injective h)
  eth_no_colon a := by
    simp only [ideal, ethText, List.mem_cons, not_or]
    exact ⟨by decide, by decide, hexBytes_no_colon _⟩

theorem transactionLaws_ideal (w : Ideal) : TransactionLaws (ideal w) where
  txid_stripped tx := by
    simp only [ideal, transactionNumbers, Transaction.stripped, List.length_map, List.flatMap_map]
  txid_ne_zero _ := polynomialHash_ne_zeros _
  controlBlock_leaf _ := ⟨0xc0, _, rfl, Or.inl rfl⟩
  nonDust_pos _ := (by decide : 0 < 330)

theorem weightLaws_ideal (w : Ideal) : WeightLaws (ideal w) where
  weight_outpoints tx f := by
    simp only [ideal, List.length_map, List.map_map, Function.comp_def]

theorem codecLaws_ideal (w : Ideal) : CodecLaws (ideal w) where
  decode_encode _ _ h := atPlace_of_placeOf h

theorem fieldLaws_ideal (w : Ideal) (h : ∀ m ∈ w.creates, m.minValidators < 2 ^ 16) :
    FieldLaws (ideal w) where
  minValidators_lt bytes m hdecode := by
    refine h m ?_
    have hplace : atPlace w.creates bytes = some m := hdecode
    unfold atPlace at hplace
    split at hplace
    · exact List.mem_of_getElem? hplace
    · cases hplace

namespace Solo

/-- A value of 32 equal bytes: a key, a hash or a transaction id. -/
def bytes32 (b : UInt8) : FixedBytes 32 := ⟨List.replicate 32 b, List.length_replicate⟩

def key : XOnlyPublicKey := bytes32 1
def backup : Address := .p2tr (bytes32 2)
def signature : Signature := ⟨List.replicate 64 3, List.length_replicate⟩

/-- A transaction with one input, which spends an output of the transaction `prev`. -/
def spending (prev : Txid) (vout : Nat) (witness : List (List UInt8)) (outs : List TxOut) :
    Transaction :=
  ⟨2, 0, [⟨⟨prev, vout⟩, [], 0xffffffff, witness⟩], outs⟩

/-- The witness of the message at a place. -/
def carryingAt (tag : String) (place : UInt8) : List (List UInt8) :=
  [makePushDataScript (tagBytes tag ++ [place])]

def carrying (tag : String) : List (List UInt8) := carryingAt tag 0

def tagged (tag : String) (data : List UInt8) (value : Amount) : TxOut :=
  ⟨value, makeOpReturnScript (tagBytes tag ++ data)⟩

/-- A subnet for one validator with a minimum stake. -/
def createMsg (minStake : Amount) : IpcCreateSubnetMsg := ⟨minStake, 1, 1, 1, 1, [key]⟩

def createTx : Transaction :=
  spending (bytes32 10) 0 (carrying ipcCreateSubnetTag) [⟨330, backup.scriptPubkey⟩]

def subnet : Txid20 := .fromTxid (polynomialHash (transactionNumbers createTx))

def joinMsg : IpcJoinSubnetMsg := ⟨.fromTxid20 subnet, 0, ⟨[], 0⟩, backup, key⟩

def joinTx (collateral : Amount) : Transaction :=
  spending (bytes32 11) 0 (carrying ipcJoinSubnetTag) [⟨collateral, backup.scriptPubkey⟩]

/-- The creation of another subnet, and a join to it with the message at a place. -/
def otherCreateTx (prev : UInt8) : Transaction :=
  spending (bytes32 prev) 0 (carrying ipcCreateSubnetTag) [⟨330, backup.scriptPubkey⟩]

def otherSubnet (prev : UInt8) : Txid20 :=
  .fromTxid (polynomialHash (transactionNumbers (otherCreateTx prev)))

def otherJoinMsg (prev : UInt8) : IpcJoinSubnetMsg :=
  { joinMsg with subnetId := .fromTxid20 (otherSubnet prev) }

def otherJoinTx (prev place : UInt8) : Transaction :=
  spending (bytes32 prev) 0 (carryingAt ipcJoinSubnetTag place) [⟨100000, backup.scriptPubkey⟩]

/-- Address of the validator with the given power, in a subnet. -/
def addressOf (t : Txid20) (power : Power) : Address :=
  .p2tr (polynomialHash (treeNumbers (.branch
    (.leaf (pushInt 0 ++ memberScript (key, power) ++ pushInt (power * 2 / 3 + 1) ++
      [opGreaterThanOrEqual]))
    (.leaf (createUnspendableSubnetIdScript t)))))

def address (power : Power) : Address := addressOf subnet power

/-- A transaction of a message that pays an address. -/
def payingTo (a : Address) (prev : UInt8) (tag : String) (data : List UInt8) (value : Amount) :
    Transaction :=
  spending (bytes32 prev) 0 [] [tagged tag data 0, ⟨value, a.scriptPubkey⟩]

/-- A transaction of a message that pays the address of the validator. -/
def payingTx (prev : UInt8) (tag : String) (data : List UInt8) (value : Amount)
    (power : Power) : Transaction :=
  payingTo (address power) prev tag data value

/-- A checkpoint without payments. -/
def checkpointMsg (next : Nat) : IpcCheckpointSubnetMsg :=
  ⟨.fromTxid20 subnet, bytes32 4, 1, next, [], [], [], [], [], [], none, false⟩

def checkpointTx (prev : UInt8) (next : Nat) : Transaction :=
  spending (bytes32 prev) 0 [] [⟨330, makeOpReturnScript ((checkpointMsg next).metadata subnet)⟩]

/-- Two other subnets, and a user of them. -/
def neighbour : Txid20 := ⟨List.replicate 20 8, List.length_replicate⟩
def stranger : Txid20 := ⟨List.replicate 20 10, List.length_replicate⟩
def user : EthAddress := ⟨List.replicate 20 9, List.length_replicate⟩

def validator (power : Power) : SubnetValidator :=
  ⟨key, ⟨key.bytes.take 20, by decide⟩, power, power * 10000, backup, ⟨[], 0⟩, bytes32 11⟩

def committee (power : Power) : SubnetCommittee :=
  ⟨0, power * 2 / 3 + 1, [validator power], address power⟩

/-- The state of the subnet with a validator of power ten. -/
def state : SubnetState := ⟨.fromTxid20 subnet, 1, committee 10, none, none, .notKilled, none⟩

/-- An output of the committee. -/
def coin : Utxo := ⟨bytes32 12, 0, 1000000, (address 10).scriptPubkey⟩

def listedOrders : MapOrders := ⟨.listed _, .listed _, .listed _⟩
def reversedOrders : MapOrders := ⟨.reversed _, .reversed _, .reversed _⟩

/-- A transfer of 5000 to the user on another subnet. -/
def transferTo (destination : Txid20) : IpcCrossSubnetTransfer :=
  ⟨5000, .fromTxid20 destination, some (.p2tr (bytes32 6)), user⟩

/-- The data of one such transfer to each destination. -/
def wireTo (destinations : List Txid20) : BatchTransferWireData :=
  ⟨destinations.map (fun d => (d, [(user, 5000)])), [], [], []⟩

/-- The library that can serialize the batches to the other subnets. -/
def transferLibrary : Library :=
  ideal { batches := [wireTo [neighbour], wireTo [neighbour, stranger],
          wireTo [stranger, neighbour]] }

/-- A checkpoint with one withdrawal, transfers and unstakes. -/
def payingCheckpoint (destinations : List Txid20) (unstakes : List IpcUnstake) :
    IpcCheckpointSubnetMsg :=
  { checkpointMsg 0 with
    withdrawals := [⟨3000, .p2tr (bytes32 7)⟩], transfers := destinations.map transferTo
    unstakes := unstakes }

def payingPsbt (σ : MapOrders) (destinations : List Txid20) (unstakes : List IpcUnstake) :
    Outcome IpcLibError Psbt :=
  (payingCheckpoint destinations unstakes).toCheckpointPsbt transferLibrary σ (committee 10)
    (committee 10) 1000 [coin]

def library (minStake : Amount) (signed : List (List UInt8 × Signature)) : Library :=
  ideal { creates := [createMsg minStake], joins := [joinMsg],
          signed := signed.map (fun e => (key, e)) }

/-- The library and the transactions that start two subnets. -/
def twinLibrary : Library :=
  ideal { creates := [createMsg 10000], joins := [joinMsg, otherJoinMsg 20] }

def twinTxs : List Transaction := [createTx, joinTx 100000, otherCreateTx 20, otherJoinTx 21 1]

/-- The first subnet is funded twice, the second one once. -/
def twinFunds : List Transaction :=
  [payingTx 12 ipcFundSubnetTag (subnet.bytes ++ user.bytes) 5000 10,
    payingTo (addressOf (otherSubnet 20) 10) 13 ipcFundSubnetTag
      ((otherSubnet 20).bytes ++ user.bytes) 6000,
    payingTx 14 ipcFundSubnetTag (subnet.bytes ++ user.bytes) 7000 10]

/-- The first subnet is staked to twice, the second one once. -/
def twinStakes : List Transaction :=
  [payingTx 15 ipcStakeTag key.bytes 25000 10,
    payingTo (addressOf (otherSubnet 20) 10) 16 ipcStakeTag key.bytes 30000,
    payingTx 17 ipcStakeTag key.bytes 35000 10]

def context : BlockContext := ⟨1, bytes32 5, .listed _, .listed _, .listed _⟩

/-- The run of the transactions on an empty database, without a reward tracker. -/
def run (X : Library) (txs : List Transaction) : Commits.Trace HeedDb MonitorError Unit :=
  processBlockData X ⟨none⟩ context txs HeedDb.empty

theorem reachable_run {X : Library} (txs : List Transaction) :
    Reachable X ((run X txs).store HeedDb.empty) := by
  obtain ⟨l, hl, -, hlast⟩ := exists_trail (X := X) ⟨none⟩ context txs HeedDb.empty
  exact ⟨l, hl, hlast⟩

end Solo

end Crates
