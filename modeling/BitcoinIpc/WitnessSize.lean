import BitcoinIpc.MultisigSpend
import BitcoinIpc.IdealCrates
import Mathlib.Algebra.Group.Action.Defs

/-!
# The estimated size of a committee's witness

The fee of a spend is computed from an estimate of the witness of each input. The
estimate takes a variable-length integer where the script pushes a number, and
five bytes where a member has six beside its key. It reaches the witness in which
every member signs only for some powers.
-/

namespace MultisigSpend

open Faults Bytes Chain Messages Crates Multisig
open Tapscript (Item)

/-- Size of the push of an integer. -/
def pushIntSize (n : Nat) : Nat :=
  if n ≤ 16 then 1 else if n < 2 ^ 7 then 2 else if n < 2 ^ 15 then 3
  else if n < 2 ^ 23 then 4 else if n < 2 ^ 31 then 5 else 6

theorem length_scriptNumber_succ (fuel : Nat) {n : Nat} (h : n ≠ 0) :
    (scriptNumber (fuel + 1) n).length =
      if n < 0x80 then 1 else if n < 0x100 then 2
      else (scriptNumber fuel (n / 256)).length + 1 := by
  rw [scriptNumber, if_neg h]
  split_ifs <;> rfl

theorem length_scriptNumber_eq {n : Nat} (hpos : 16 < n) (h : n < 2 ^ 32) :
    (scriptNumber 9 n).length + 1 = pushIntSize n := by
  unfold pushIntSize
  rw [if_neg (by omega), length_scriptNumber_succ _ (by omega)]
  by_cases h1 : n < 0x100
  · split_ifs <;> omega
  rw [if_neg (by omega), if_neg h1, length_scriptNumber_succ _ (by omega)]
  by_cases h2 : n / 256 < 0x100
  · split_ifs <;> omega
  rw [if_neg (by omega), if_neg h2, length_scriptNumber_succ _ (by omega)]
  by_cases h3 : n / 256 / 256 < 0x100
  · split_ifs <;> omega
  rw [if_neg (by omega), if_neg h3, length_scriptNumber_succ _ (by omega)]
  split_ifs <;> omega

theorem length_pushInt {n : Nat} (h : n < 2 ^ 32) : (pushInt n).length = pushIntSize n := by
  by_cases hsmall : n ≤ 16
  · rw [pushIntSize, if_pos hsmall, pushInt]
    split_ifs <;> rfl
  · have hsize := length_scriptNumber_eq (not_le.mp hsmall) h
    have hbound : pushIntSize n ≤ 6 := by
      unfold pushIntSize
      split_ifs <;> omega
    rw [pushInt, if_neg (by omega), if_neg hsmall, pushSlice, if_pos (by omega),
      List.length_cons]
    exact hsize

theorem length_memberScript {k : WeightedKey} (h : k.2 < 2 ^ 32) :
    (memberScript k).length = 38 + pushIntSize k.2 := by
  have hkey : (pushSlice k.1.bytes).length = 33 := by
    rw [pushSlice, k.1.length_eq, if_pos (by omega), List.length_cons, k.1.length_eq]
  simp only [memberScript, List.length_append, hkey, length_pushInt h, List.length_cons,
    List.length_nil]
  omega

theorem length_script {keys : List WeightedKey} {threshold : Power} {script : Script}
    (h : createMultisigScript keys threshold = .ok script) :
    script.length = 1 + (keys.map (fun k => 38 + pushIntSize k.2)).sum + pushIntSize threshold +
      1 := by
  obtain ⟨hsum, hle, rfl⟩ := createMultisigScript_eq_ok.mp h
  have hperm := perm_sortCommitteeKeys keys
  have hpower : ∀ k ∈ keys, k.2 < 2 ^ 32 := by
    intro k hk
    exact lt_of_le_of_lt (List.single_le_sum (fun _ _ => Nat.zero_le _) _
      (List.mem_map_of_mem hk)) hsum
  have hmembers : ((sortCommitteeKeys keys).flatMap memberScript).length =
      (keys.map (fun k => 38 + pushIntSize k.2)).sum := by
    rw [List.length_flatMap, ← (hperm.map (fun k => 38 + pushIntSize k.2)).sum_eq]
    refine congrArg List.sum (List.map_congr_left (fun k hk => ?_))
    exact length_memberScript (hpower k (hperm.mem_iff.mp hk))
  have hthreshold : (pushInt threshold).length = pushIntSize threshold :=
    length_pushInt (lt_of_le_of_lt hle hsum)
  simp only [List.length_append, hmembers, hthreshold, List.length_singleton]
  rfl

/-- What the estimate takes for the size of the script. -/
def estimatedScriptSize (keys : List WeightedKey) (threshold : Power) : Nat :=
  1 + (keys.map (fun k => 32 + 5 + varIntSize k.2)).sum + varIntSize threshold + 1

/-- An item with its length. -/
def itemSize (n : Nat) : Nat := varIntSize n + n

theorem itemSize_strictMono : StrictMono itemSize := by
  refine strictMono_nat_of_lt_succ (fun n => ?_)
  unfold itemSize varIntSize
  split_ifs <;> omega

theorem multisigSpendMaxWitnessSize_eq (keys : List WeightedKey) (threshold : Power) :
    multisigSpendMaxWitnessSize keys threshold =
      varIntSize (keys.length + 2) + keys.length * itemSize 64 +
        (itemSize (estimatedScriptSize keys threshold) + itemSize 65) := by
  have h64 : varIntSize 64 = 1 := rfl
  have h65 : varIntSize (33 + 32) = 1 := rfl
  simp only [multisigSpendMaxWitnessSize, itemSize, estimatedScriptSize, h64, h65]
  omega

variable {H : Type} {S : SpendCrate H}

theorem witnessSize_inputWitness (ks : List WeightedKey) (script : Script)
    (controlBlock : List UInt8) (sigs : TapScriptSigs H) :
    witnessSize (inputWitness S ks script controlBlock sigs) =
      varIntSize (ks.length + 2) +
        ((ks.map (fun k => itemSize (memberItem (S.tapscriptLeafHash script) sigs k).length)).sum +
          (itemSize script.length + itemSize controlBlock.length)) := by
  have hitems : (inputWitness S ks script controlBlock sigs) =
      ks.reverse.map (memberItem (S.tapscriptLeafHash script) sigs) ++
        [script, controlBlock] := rfl
  have hperm := ((List.reverse_perm ks).map (fun k =>
    itemSize (memberItem (S.tapscriptLeafHash script) sigs k).length)).sum_eq
  rw [witnessSize, hitems, List.map_append, List.sum_append, List.map_map, ← hperm,
    List.length_append, List.length_map, List.length_reverse]
  rfl

theorem itemSize_memberItem (leaf : H) (sigs : TapScriptSigs H) (k : WeightedKey) :
    itemSize (memberItem leaf sigs k).length ≤ itemSize 64 := by
  rw [length_memberItem]
  split_ifs <;> decide

/-- A signature of every member makes the largest witness. -/
theorem witnessSize_le {ks : List WeightedKey} {script : Script} {controlBlock : List UInt8}
    {sigs : TapScriptSigs H} (hblock : controlBlock.length = 65) :
    witnessSize (inputWitness S ks script controlBlock sigs) ≤
      varIntSize (ks.length + 2) + ks.length * itemSize 64 +
        (itemSize script.length + itemSize 65) := by
  rw [witnessSize_inputWitness, hblock, ← Nat.add_assoc]
  refine Nat.add_le_add_right (Nat.add_le_add_left ?_ _) _
  have hsum := List.sum_le_card_nsmul
    (ks.map (fun k => itemSize (memberItem (S.tapscriptLeafHash script) sigs k).length))
    (itemSize 64) (by
      intro n hn
      obtain ⟨k, -, rfl⟩ := List.mem_map.mp hn
      exact itemSize_memberItem _ _ _)
  rwa [List.length_map, smul_eq_mul] at hsum

theorem witnessSize_all {ks : List WeightedKey} {script : Script} {controlBlock : List UInt8}
    (sig : Signature) (hblock : controlBlock.length = 65) :
    witnessSize (inputWitness S ks script controlBlock (fun _ => some sig)) =
      varIntSize (ks.length + 2) + ks.length * itemSize 64 +
        (itemSize script.length + itemSize 65) := by
  have hitem : ∀ k : WeightedKey, itemSize (memberItem (S.tapscriptLeafHash script)
      (fun _ => some sig) k).length = itemSize 64 :=
    fun k => congrArg itemSize sig.length_eq
  rw [witnessSize_inputWitness, hblock, ← Nat.add_assoc]
  simp only [hitem, List.map_const', List.sum_replicate, smul_eq_mul]

/-- What is documented of the bitcoin crate: the control block of a leaf beside another one holds
the leaf version, a key and one hash, and some transaction has a fee that passes the checks. -/
structure SpendCrateLaws (S : SpendCrate H) : Prop where
  controlBlock_some : ∀ a b, ∃ block, S.controlBlock (.branch (.leaf a) (.leaf b)) a = some block
  controlBlock_length : ∀ a b block,
    S.controlBlock (.branch (.leaf a) (.leaf b)) a = some block → block.length = 65
  extracts : ∃ (p : Psbt) (i : TxIn), p.unsignedTx.input = [i] ∧ ∀ ws, S.feeError p ws = none

/-- The variable-length integers of the powers and the threshold make up for the shorter
pushes and for one byte of each member. -/
def EstimateCovers (keys : List WeightedKey) (threshold : Power) : Prop :=
  (keys.map (fun k => 1 + pushIntSize k.2)).sum + pushIntSize threshold ≤
    (keys.map (fun k => varIntSize k.2)).sum + varIntSize threshold

theorem sum_map_const_add {α : Type} (l : List α) (c : Nat) (f : α → Nat) :
    (l.map (fun a => c + f a)).sum = l.length * c + (l.map f).sum := by
  rw [List.sum_map_add, List.map_const', List.sum_replicate, smul_eq_mul]

theorem length_script_le_iff {keys : List WeightedKey} {threshold : Power} {script : Script}
    (h : createMultisigScript keys threshold = .ok script) :
    script.length ≤ estimatedScriptSize keys threshold ↔ EstimateCovers keys threshold := by
  rw [length_script h, estimatedScriptSize, EstimateCovers, sum_map_const_add, sum_map_const_add,
    sum_map_const_add]
  omega

/-- The estimate bounds every witness exactly when it bounds the script. -/
theorem witnessSize_le_estimate_iff (laws : SpendCrateLaws S) {keys : List WeightedKey}
    {threshold : Power} {script : Script} (hscript : createMultisigScript keys threshold = .ok script)
    (t : Txid20) :
    (∀ p tx, finalizeSpendPsbt S (.fromTxid20 t) keys threshold p = .ok tx →
      ∀ input ∈ tx.input,
        witnessSize input.witness ≤ multisigSpendMaxWitnessSize keys threshold) ↔
      EstimateCovers keys threshold := by
  have hlen : (sortCommitteeKeys keys).length = keys.length :=
    (perm_sortCommitteeKeys keys).length_eq
  rw [← length_script_le_iff hscript, multisigSpendMaxWitnessSize_eq]
  constructor
  · intro h
    obtain ⟨psbt, i, hinput, hfee⟩ := laws.extracts
    obtain ⟨block, hblock⟩ := laws.controlBlock_some script (createUnspendableSubnetIdScript t)
    have hlength := laws.controlBlock_length _ _ _ hblock
    have hextract : ∀ w, extractTx S psbt [w] =
        .ok { psbt.unsignedTx with input := [{ i with witness := w }] } := by
      intro w
      rw [extractTx, hfee, hinput]
      rfl
    have hfinal := (finalizeSpendPsbt_eq_ok (p := ⟨psbt, [fun _ => some (FixedBytes.zeros 64)]⟩)
      hscript).mpr ⟨t, block, SubnetId.txid20_fromTxid20 t, hblock, hextract _⟩
    have hsize := h _ _ hfinal _ (List.mem_singleton_self _)
    rw [witnessSize_all _ hlength, hlen] at hsize
    by_contra hlt
    have hstrict := itemSize_strictMono (not_le.mp hlt)
    omega
  · intro h p tx htx input hmem
    obtain ⟨i, hi⟩ := List.mem_iff_getElem?.mp hmem
    obtain ⟨id, block, -, hblock, hextract⟩ := (finalizeSpendPsbt_eq_ok hscript).mp htx
    have hwitness := witness_of_extractTx hextract hi
    rw [List.getElem?_map, Option.map_eq_some_iff] at hwitness
    obtain ⟨sigs, -, hw⟩ := hwitness
    rw [← hw]
    refine le_trans (witnessSize_le (laws.controlBlock_length _ _ _ hblock)) ?_
    rw [hlen]
    have hmono := itemSize_strictMono.monotone h
    omega

/-- A crate whose control blocks have the length of the real ones. -/
def sizedCrate : SpendCrate Script where
  tapscriptLeafHash := id
  controlBlock _ _ := some (0xc0 :: List.replicate 64 0)
  feeError _ _ := none

theorem spendLaws_sized : SpendCrateLaws sizedCrate where
  controlBlock_some _ _ := ⟨_, rfl⟩
  controlBlock_length := by
    rintro a b block ⟨⟩
    rfl
  extracts := ⟨⟨⟨2, 0, [⟨⟨FixedBytes.zeros 32, 0⟩, [], 0, []⟩], []⟩, [], []⟩, _, rfl, fun _ => rfl⟩

open Solo

/-- One input, signed. -/
def signedPsbt : SigningPsbt Script :=
  ⟨⟨⟨2, 0, [⟨⟨bytes32 10, 0⟩, [], 0, []⟩], []⟩, [], []⟩, [fun _ => some signature]⟩

/-- A member with the power of ten bitcoin, and a threshold as large. -/
theorem estimate_bounds_large :
    ∃ tx, finalizeSpendPsbt sizedCrate (.fromTxid20 subnet) [(key, 100000)] 66667 signedPsbt =
        .ok tx ∧
      ∃ input ∈ tx.input,
        witnessSize input.witness ≤ multisigSpendMaxWitnessSize [(key, 100000)] 66667 := by
  have hscript : ∃ script, createMultisigScript [(key, 100000)] 66667 = .ok script := ⟨_, rfl⟩
  obtain ⟨script, hscript⟩ := hscript
  have hcovers : EstimateCovers [(key, 100000)] 66667 := by
    unfold EstimateCovers
    decide
  have hbound := (witnessSize_le_estimate_iff spendLaws_sized hscript subnet).mpr hcovers
  exact ⟨_, rfl, _, List.mem_singleton_self _,
    hbound signedPsbt _ rfl _ (List.mem_singleton_self _)⟩

/-- The power of a whitelisted key is one, and the estimate for it is one byte short. -/
theorem estimate_short_of_witness :
    ∃ tx, finalizeSpendPsbt sizedCrate (.fromTxid20 subnet) [(key, 1)] 1 signedPsbt = .ok tx ∧
      ∃ input ∈ tx.input,
        multisigSpendMaxWitnessSize [(key, 1)] 1 < witnessSize input.witness := by
  refine ⟨_, rfl, _, List.mem_singleton_self _, ?_⟩
  decide

end MultisigSpend
