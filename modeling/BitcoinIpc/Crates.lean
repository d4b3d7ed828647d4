import BitcoinIpc.Messages

/-!
# Code outside the repository

The functions of other crates that the program calls: hashing and signatures,
transaction ids, taproot output keys, address printing, the postcard codec,
transaction weights and fees. The model is stated over any such functions. What
a result relies on is a property of these functions, named here and assumed
where it is used.
-/

namespace Crates

open Faults Bytes Chain Messages

abbrev FeeRate := Nat
abbrev Weight := Nat

/-- Script tree of a taproot output. -/
inductive TapTree where
  | leaf (script : Script)
  | branch (left right : TapTree)
deriving DecidableEq

structure Library where
  /-- Digest signed by a Schnorr signature. -/
  Digest : Type
  SecretKey : Type
  sha256 : List UInt8 → Digest
  xOnlyPublicKey : SecretKey → XOnlyPublicKey
  signSchnorr : SecretKey → Digest → Signature
  verifySchnorr : Signature → Digest → XOnlyPublicKey → Bool
  /-- Whether 32 bytes are the x-coordinate of a curve point. -/
  onCurve : FixedBytes 32 → Bool
  ethAddrFromXOnlyPubkey : XOnlyPublicKey → EthAddress
  computeTxid : Transaction → Txid
  /-- Output key of a script tree under the unspendable internal key. -/
  taprootOutputKey : TapTree → FixedBytes 32
  /-- Control block that reveals the only leaf of a tree. -/
  controlBlock : Script → List UInt8
  fvmDisplay : FvmAddress → List Char
  fvmFromStr : List Char → Option FvmAddress
  ethDisplay : EthAddress → List Char
  decodeCreateSubnet : List UInt8 → Option IpcCreateSubnetMsg
  decodeJoinSubnet : List UInt8 → Option IpcJoinSubnetMsg
  encodeBatch : BatchTransferWireData → Option (List UInt8)
  decodeBatch : List UInt8 → Option BatchTransferWireData
  weight : Transaction → Weight
  feeWu : FeeRate → Weight → Option Amount
  minimalNonDust : Script → Amount
  minimalNonDustCustom : Script → FeeRate → Amount

variable (X : Library)

/-- `Display` of a subnet id: the name of the parent chain and the address. -/
def subnetDisplay (s : SubnetId) : List Char := "/b4/".toList ++ X.fvmDisplay s.addr

/-- `FromStr` of a subnet id. -/
def subnetFromStr (s : List Char) : Option SubnetId :=
  match s with
  | '/' :: rest =>
    match rest.splitOn '/' with
    | [l1, addr] => if l1 = "b4".toList then (X.fvmFromStr addr).map SubnetId.mk else none
    | _ => none
  | _ => none

section Names

variable {X}

/-- The accepted names: the parent chain and an address that holds no slash. -/
theorem subnetFromStr_eq_some {s : List Char} {id : SubnetId} : subnetFromStr X s = some id ↔
    ∃ a, s = "/b4/".toList ++ a ∧ '/' ∉ a ∧ X.fvmFromStr a = some id.addr := by
  have hsplit : ∀ a, ("b4/".toList ++ a).splitOn '/' = "b4".toList :: a.splitOn '/' := by
    intro a
    have hname : '/' ∉ "b4".toList := by decide
    exact List.splitOn_append_cons_self_of_not_mem hname a
  constructor
  · intro h
    unfold subnetFromStr at h
    split at h
    case h_2 => cases h
    case h_1 rest =>
      split at h
      case h_2 => cases h
      case h_1 l1 a hparts =>
        split_ifs at h with hl1
        subst hl1
        obtain ⟨addr, haddr, hid⟩ := Option.map_eq_some_iff.mp h
        have hrest : rest = "b4/".toList ++ a := by
          have hjoin : ['/'].intercalate (rest.splitOn '/') = rest := List.intercalate_splitOn '/'
          rw [hparts] at hjoin
          simpa [List.intercalate] using hjoin.symm
        subst hrest
        rw [hsplit] at hparts
        refine ⟨a, rfl, ?_, by rw [haddr, ← hid]⟩
        intro hmem
        obtain ⟨x, y, hxy⟩ := List.append_of_mem hmem
        have hone := congrArg List.length (List.cons.inj hparts).2
        rw [hxy, List.splitOn_append_cons_self, List.length_append] at hone
        have hx := List.length_pos_iff.mpr (List.splitOn_ne_nil '/' x)
        have hy := List.length_pos_iff.mpr (List.splitOn_ne_nil '/' y)
        simp only [List.length_cons, List.length_nil] at hone
        omega
  · rintro ⟨a, rfl, hslash, haddr⟩
    have hread : subnetFromStr X ("/b4/".toList ++ a) =
        match ("b4/".toList ++ a).splitOn '/' with
        | [l1, addr] => if l1 = "b4".toList then (X.fvmFromStr addr).map SubnetId.mk else none
        | _ => none := rfl
    rw [hread, hsplit, List.splitOn_eq_singleton hslash]
    simp only [if_true, haddr, Option.map_some]

/-- An id is read back if the address in it is, and is printed without a slash. -/
theorem subnetFromStr_subnetDisplay {s : SubnetId} (hslash : '/' ∉ X.fvmDisplay s.addr)
    (hread : X.fvmFromStr (X.fvmDisplay s.addr) = some s.addr) :
    subnetFromStr X (subnetDisplay X s) = some s :=
  subnetFromStr_eq_some.mpr ⟨X.fvmDisplay s.addr, rfl, hslash, hread⟩

end Names

/-- Printed addresses are determined by what is printed, and hold no colon; the
addresses of subnets are all printed in the same length. -/
structure DisplayLaws : Prop where
  fvm_injective : Function.Injective X.fvmDisplay
  fvm_no_colon : ∀ a, ':' ∉ X.fvmDisplay a
  delegated_length : ∀ t u : Txid20, (X.fvmDisplay (SubnetId.fromTxid20 t).addr).length =
    (X.fvmDisplay (SubnetId.fromTxid20 u).addr).length
  eth_injective : Function.Injective X.ethDisplay
  eth_no_colon : ∀ a, ':' ∉ X.ethDisplay a

/-- What is serialized is read back. -/
structure CodecLaws : Prop where
  decode_encode : ∀ wire bytes, X.encodeBatch wire = some bytes → X.decodeBatch bytes = some wire

/-- The number of validators that a creation asks for is a field of 16 bits. -/
structure FieldLaws : Prop where
  minValidators_lt : ∀ bytes m, X.decodeCreateSubnet bytes = some m → m.minValidators < 2 ^ 16

/-- A transaction id covers all but the witnesses, and the null id is no transaction's;
a control block starts with the version of its leaf; a taproot output of no
value is dust. -/
structure TransactionLaws : Prop where
  txid_stripped : ∀ tx, X.computeTxid tx.stripped = X.computeTxid tx
  txid_ne_zero : ∀ tx, X.computeTxid tx ≠ FixedBytes.zeros 32
  controlBlock_leaf : ∀ s, ∃ b rest, X.controlBlock s = b :: rest ∧ (b = 0xc0 ∨ b = 0xc1)
  nonDust_pos : ∀ k, 0 < X.minimalNonDust (Address.p2trScript k)

/-- The weight of a transaction does not depend on which outputs it spends. -/
structure WeightLaws : Prop where
  weight_outpoints : ∀ (tx : Transaction) (f : OutPoint → OutPoint),
    X.weight { tx with input := tx.input.map (fun i =>
      { i with previousOutput := f i.previousOutput }) } = X.weight tx

theorem subnetDisplay_injective {X : Library} (h : DisplayLaws X) :
    Function.Injective (subnetDisplay X) := by
  rintro ⟨a⟩ ⟨b⟩ hab
  have : a = b := h.fvm_injective (List.append_cancel_left hab)
  rw [this]

theorem subnetDisplay_no_colon {X : Library} (h : DisplayLaws X) (s : SubnetId) :
    ':' ∉ subnetDisplay X s := by
  simp only [subnetDisplay, List.mem_append, not_or]
  exact ⟨by decide, h.fvm_no_colon s.addr⟩

end Crates
