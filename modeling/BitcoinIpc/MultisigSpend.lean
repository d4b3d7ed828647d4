import BitcoinIpc.Multisig
import BitcoinIpc.Lib.Tapscript
import Mathlib.Algebra.Order.BigOperators.Group.List
import Mathlib.Data.Finset.Basic

/-!
# Spending from a committee

The witnesses that finalize a spend of a committee's outputs, and what the
threshold script makes of them: the script adds up the power of the members
whose signature is on the stack, and compares the sum with the threshold.
-/

namespace MultisigSpend

open Faults Bytes Chain Messages Crates Multisig
open Tapscript (Item)

section Finalize

variable {H : Type} [DecidableEq H]

/-- The signatures of an input, by key and leaf. -/
abbrev TapScriptSigs (H : Type) := XOnlyPublicKey × H → Option Signature

/-- A transaction to sign, with the signatures of its inputs. -/
structure SigningPsbt (H : Type) where
  psbt : Psbt
  tapScriptSigs : List (TapScriptSigs H)

/-- What finalizing uses of the bitcoin crate: the hash of a leaf, the control block of a
leaf in its tree, and the checks on the fee of an extracted transaction. -/
structure SpendCrate (H : Type) where
  tapscriptLeafHash : Script → H
  controlBlock : TapTree → Script → Option (List UInt8)
  feeError : Psbt → List (List Item) → Option String

variable (S : SpendCrate H)

def extractTx (p : Psbt) (witnesses : List (List Item)) : Outcome MultisigError Transaction :=
  match S.feeError p witnesses with
  | some text => raise (.psbtError ("Failed to extract transaction: " ++ text))
  | none => return { p.unsignedTx with
      input := (p.unsignedTx.input.zip witnesses).map (fun (i, w) => { i with witness := w }) }

/-- The signatures of the members, the last key first, and what reveals the script. -/
def inputWitness (keys : List WeightedKey) (script : Script) (controlBlock : List UInt8)
    (sigs : TapScriptSigs H) : List Item :=
  keys.reverse.map (fun k =>
    match sigs (k.1, S.tapscriptLeafHash script) with
    | some sig => sig.bytes
    | none => []) ++ [script, controlBlock]

def createSubnetMultisigSpendInfo (subnetId : SubnetId) (keys : List WeightedKey)
    (threshold : Power) : Outcome MultisigError TapTree := do
  let script ← createMultisigScript keys threshold
  let id ← subnetId.txid20
  return .branch (.leaf script) (.leaf (createUnspendableSubnetIdScript id))

def finalizeSpendPsbt (subnetId : SubnetId) (keys : List WeightedKey) (threshold : Power)
    (p : SigningPsbt H) : Outcome MultisigError Transaction := do
  let keys := sortCommitteeKeys keys
  let script ← createMultisigScript keys threshold
  let spendInfo ← createSubnetMultisigSpendInfo subnetId keys threshold
  let controlBlock ← okOr (S.controlBlock spendInfo script) .taprootBuilderNotFinalizable
  extractTx S p.psbt (p.tapScriptSigs.map (inputWitness S keys script controlBlock))

/-- The signatures of one member go to the inputs in their order. -/
def insertSet (key : XOnlyPublicKey) (leaf : H) (signatures : List Signature)
    (inputs : List (TapScriptSigs H)) : List (TapScriptSigs H) :=
  signatures.zipIdx.foldl (fun inputs (sig, idx) =>
    inputs.modify idx (fun sigs => Function.update sigs (key, leaf) (some sig))) inputs

def insertSets (leaf : H) (pairs : List (WeightedKey × List Signature))
    (inputs : List (TapScriptSigs H)) : List (TapScriptSigs H) :=
  pairs.foldl (fun inputs p => insertSet p.1.1 leaf p.2 inputs) inputs

def sortPairs (pairs : List (WeightedKey × List Signature)) :
    List (WeightedKey × List Signature) :=
  pairs.insertionSort (fun a b => a.1.1.num ≤ b.1.1.num)

def finalizeSpendPsbtFromSigs (subnetId : SubnetId) (keys : List WeightedKey)
    (threshold : Power) (p : SigningPsbt H) (signatureSets : List (List Signature)) :
    Outcome MultisigError Transaction := do
  let pairs := sortPairs (keys.zip signatureSets)
  let script ← expectOk (createMultisigScript keys threshold)
  let signed := insertSets (S.tapscriptLeafHash script) pairs p.tapScriptSigs
  finalizeSpendPsbt S subnetId keys threshold { p with tapScriptSigs := signed }

end Finalize

def toTapscript : Chain.Instruction → Tapscript.Instruction
  | .pushBytes data => .push data
  | .op code => .op code

def parseScript (s : Script) : Option (List Tapscript.Instruction) :=
  (instructions s).mapM fun
    | .ok i => some (toTapscript i)
    | .error _ => none

/-- Size of a serialized witness. -/
def witnessSize (w : List Item) : Nat :=
  varIntSize w.length + (w.map (fun i => varIntSize i.length + i.length)).sum

/-- The stack that spending by the revealed script leaves. The last item of the witness is
the control block and the one before it the script; signature checks may use the weight of
the witness and that of one more check. -/
def evaluateWitness (verify : Item → Item → Bool) (mature : Item → Bool) (w : List Item) :
    Option (List Item) :=
  match w.reverse with
  | _ :: script :: stack => do
    let is ← parseScript script
    Tapscript.evaluate verify mature is stack (Tapscript.sigopCost + witnessSize w)
  | _ => none

/-- The witness reveals a leaf of the tree behind the output, and the script leaves one item that is
true. Which signatures verify depends on the script that is revealed. -/
def Opens {H : Type} (X : Library) (S : SpendCrate H) (verify : Script → Item → Item → Bool)
    (mature : Item → Bool) (out : TxOut) (w : List Item) : Prop :=
  ∃ tree stack script controlBlock item, w = stack ++ [script, controlBlock] ∧
    S.controlBlock tree script = some controlBlock ∧
    out.scriptPubkey = (Address.p2tr (X.taprootOutputKey tree)).scriptPubkey ∧
    evaluateWitness (verify script) mature w = some [item] ∧ Tapscript.castToBool item = true

/-- The bytes are read as the instructions, whatever follows them. -/
def Reads (s : Script) (is : List Chain.Instruction) : Prop :=
  is.length ≤ s.length ∧ ∀ fuel rest, readInstructions false (is.length + fuel) (s ++ rest) =
    is.map .ok ++ readInstructions false fuel rest

theorem Reads.append {s t : Script} {is js : List Chain.Instruction} (hs : Reads s is)
    (ht : Reads t js) : Reads (s ++ t) (is ++ js) := by
  refine ⟨?_, fun fuel rest => ?_⟩
  · rw [List.length_append, List.length_append]
    exact Nat.add_le_add hs.1 ht.1
  · rw [List.length_append, Nat.add_assoc, List.append_assoc, hs.2, ht.2, List.map_append,
      List.append_assoc]

theorem Reads.nil : Reads [] [] := ⟨le_rfl, fun fuel rest => by simp⟩

theorem Reads.flatMap {α : Type} {f : α → Script} {g : α → List Chain.Instruction}
    (l : List α) (h : ∀ a ∈ l, Reads (f a) (g a)) : Reads (l.flatMap f) (l.flatMap g) := by
  induction l with
  | nil => exact Reads.nil
  | cons a rest ih =>
    rw [List.flatMap_cons, List.flatMap_cons]
    exact (h a List.mem_cons_self).append (ih (fun b hb => h b (List.mem_cons_of_mem _ hb)))

theorem Reads.op (code : UInt8) (h : 0x4e < code.toNat) : Reads [code] [.op code] := by
  refine ⟨le_rfl, fun fuel rest => ?_⟩
  have hne : ∀ b : UInt8, b.toNat ≤ 0x4e → code ≠ b := by
    rintro b hb rfl
    omega
  have hdirect : ¬ code.toNat ≤ 0x4b := by omega
  rw [List.length_singleton, Nat.add_comm, List.singleton_append, readInstructions]
  simp only [if_neg hdirect, if_neg (hne 0x4c (by decide)), if_neg (hne 0x4d (by decide)),
    if_neg (hne 0x4e (by decide))]
  rfl

theorem Reads.pushSlice (data : List UInt8) (h : data.length < 0x10000) :
    Reads (pushSlice data) [.pushBytes data] := by
  refine ⟨length_pushSlice_pos data, fun fuel rest => ?_⟩
  rw [List.length_singleton, Nat.add_comm, readInstructions_pushSlice h]
  rfl

theorem parseScript_of_reads {s : Script} {is : List Chain.Instruction} (h : Reads s is) :
    parseScript s = some (is.map toTapscript) := by
  have hread : instructions s = is.map .ok := by
    have hrest := h.2 (s.length - is.length) []
    have hend : ∀ fuel, readInstructions false fuel [] = [] := by
      intro fuel
      cases fuel <;> rfl
    rw [Nat.add_sub_cancel' h.1, List.append_nil, hend, List.append_nil] at hrest
    exact hrest
  rw [parseScript, hread]
  clear hread h
  induction is with
  | nil => rfl
  | cons i rest ih =>
    rw [List.map_cons, List.mapM_cons, ih]
    rfl

/-- The instruction that pushes a number. -/
def pushIntInstruction (n : Nat) : Chain.Instruction :=
  if n = 0 then .pushBytes []
  else if n ≤ 16 then .op (UInt8.ofNat (0x50 + n))
  else .pushBytes (scriptNumber 9 n)

theorem scriptNumber_eq (fuel n : Nat) :
    scriptNumber fuel n = Tapscript.encodeMagnitude 0 fuel n := by
  induction fuel generalizing n with
  | zero => rfl
  | succ fuel ih => rw [scriptNumber, Tapscript.encodeMagnitude, ih]; rfl

theorem length_scriptNumber {n : Nat} (h : n < 2 ^ 31) : (scriptNumber 9 n).length ≤ 4 := by
  rw [scriptNumber_eq]
  exact Tapscript.length_encodeMagnitude 9 (k := 3) (by omega)

theorem Reads.pushInt {n : Nat} (h : n < 2 ^ 31) : Reads (pushInt n) [pushIntInstruction n] := by
  rw [Chain.pushInt, pushIntInstruction]
  split_ifs with h0 h16
  · exact Reads.pushSlice [] (by decide)
  · refine Reads.op _ ?_
    rw [UInt8.toNat_ofNat']
    omega
  · have hlen := length_scriptNumber h
    exact Reads.pushSlice _ (by omega)

def memberInstructions (k : WeightedKey) : List Chain.Instruction :=
  [.op opSwap, .pushBytes k.1.bytes, .op opChecksig, .op opIf, pushIntInstruction k.2,
    .op opAdd, .op opEndif]

theorem reads_memberScript {k : WeightedKey} (h : k.2 < 2 ^ 31) :
    Reads (memberScript k) (memberInstructions k) := by
  have hkey : k.1.bytes.length < 0x10000 := by
    rw [k.1.length_eq]
    omega
  have hswap : Reads [opSwap] [.op opSwap] := Reads.op opSwap (by decide)
  have hcheck : Reads [opChecksig, opIf] [.op opChecksig, .op opIf] :=
    (Reads.op opChecksig (by decide)).append (Reads.op opIf (by decide))
  have hend : Reads [opAdd, opEndif] [.op opAdd, .op opEndif] :=
    (Reads.op opAdd (by decide)).append (Reads.op opEndif (by decide))
  have hopen := (hswap.append (Reads.pushSlice _ hkey)).append hcheck
  exact (hopen.append (Reads.pushInt h)).append hend

section Run

variable {verify : Item → Item → Bool} {mature : Item → Bool} {cs : List Bool} {st : List Item}
  {budget : Nat}

/-- A number is pushed in its encoding. -/
theorem step_pushInt {n : Nat} (h : n < 2 ^ 31) (hc : cs.all id = true)
    (hsize : st.length + 1 ≤ Tapscript.maxStackSize) :
    Tapscript.step verify mature (toTapscript (pushIntInstruction n)) ⟨st, cs, budget⟩ =
      some ⟨Tapscript.encodeNum n :: st, cs, budget⟩ := by
  rw [Tapscript.encodeNum_natCast, pushIntInstruction]
  split_ifs with h0 h16
  · rw [h0]
    exact Tapscript.step_push hc (by decide) hsize
  · have hcode : ∀ m < 17, 0 < m → (0x51 : UInt8) ≤ UInt8.ofNat (0x50 + m) ∧
        UInt8.ofNat (0x50 + m) ≤ (0x60 : UInt8) ∧
        [UInt8.ofNat (0x50 + m) - 0x50] = Tapscript.encodeMagnitude 0 9 m := by
      decide
    obtain ⟨hlo, hhi, hitem⟩ := hcode n (Nat.lt_succ_of_le h16) (Nat.pos_of_ne_zero h0)
    rw [← hitem]
    exact Tapscript.step_number hc hlo hhi hsize
  · have hlen := length_scriptNumber h
    rw [← scriptNumber_eq]
    exact Tapscript.step_push hc (le_trans hlen (by decide)) hsize

/-- In a branch that is not executed the number is skipped. -/
theorem skip_pushInt {n : Nat} (h : n < 2 ^ 31) (hc : cs.all id = false)
    (hsize : st.length ≤ Tapscript.maxStackSize) :
    Tapscript.step verify mature (toTapscript (pushIntInstruction n)) ⟨st, cs, budget⟩ =
      some ⟨st, cs, budget⟩ := by
  refine Tapscript.step_skip hc hsize ?_
  rw [pushIntInstruction]
  split_ifs with h0 h16
  · exact Or.inl ⟨[], rfl, Nat.zero_le _⟩
  · have hcode : ∀ m < 17, UInt8.ofNat (0x50 + m) ≠ Tapscript.opIf ∧
        UInt8.ofNat (0x50 + m) ≠ Tapscript.opEndif := by
      decide
    exact Or.inr ⟨_, rfl, hcode n (Nat.lt_succ_of_le h16)⟩
  · have hlen := length_scriptNumber h
    exact Or.inl ⟨_, rfl, le_trans hlen (by decide)⟩

theorem bytes_ne_nil {n : Nat} (b : FixedBytes (n + 1)) : b.bytes ≠ [] := by
  intro hnil
  have hlen := b.length_eq
  rw [hnil] at hlen
  cases hlen

/-- The power that a stack item stands for. -/
def countedPower (item : Item) (power : Power) : Nat := if item = [] then 0 else power

theorem countedPower_le (item : Item) (power : Power) : countedPower item power ≤ power := by
  unfold countedPower
  split_ifs
  · exact Nat.zero_le _
  · exact le_rfl

def checkCost (item : Item) : Nat := if item = [] then 0 else Tapscript.sigopCost

/-- A member's script takes its item from the stack and adds its power to the sum. -/
theorem exec_member {k : WeightedKey} {item : Item} {acc : Nat} (st : List Item)
    (hitem : item ≠ [] → verify item k.1.bytes = true) (hpower : acc + k.2 < 2 ^ 31)
    (hbudget : checkCost item ≤ budget) (hsize : st.length + 3 ≤ Tapscript.maxStackSize) :
    Tapscript.exec verify mature ((memberInstructions k).map toTapscript)
        ⟨Tapscript.encodeNum acc :: item :: st, [], budget⟩ =
      some ⟨Tapscript.encodeNum ((acc + countedPower item k.2 : Nat) : Int) :: st, [],
        budget - checkCost item⟩ := by
  have hkey : k.1.bytes.length ≤ Tapscript.maxItemSize := by
    rw [k.1.length_eq]
    decide
  have hle : k.2 < 2 ^ 31 := lt_of_le_of_lt (Nat.le_add_left _ _) hpower
  have hacc : Tapscript.decodeNum (Tapscript.encodeNum acc) = some (acc : Int) :=
    Tapscript.decodeNum_encodeNum (lt_of_le_of_lt (Nat.le_add_right _ _) hpower)
  have hpow : Tapscript.decodeNum (Tapscript.encodeNum k.2) = some (k.2 : Int) :=
    Tapscript.decodeNum_encodeNum hle
  have h2 : st.length + 1 + 1 ≤ Tapscript.maxStackSize := by omega
  have h1 : st.length + 1 ≤ Tapscript.maxStackSize := by omega
  refine Eq.trans (Tapscript.exec_cons_of_step
      (Tapscript.step_swap rfl h2)) ?_
  refine Eq.trans (Tapscript.exec_cons_of_step
      (Tapscript.step_push rfl hkey hsize)) ?_
  by_cases hnil : item = []
  · subst hnil
    refine Eq.trans (Tapscript.exec_cons_of_step
      (Tapscript.step_checksig_empty rfl (bytes_ne_nil k.1) h2)) ?_
    refine Eq.trans (Tapscript.exec_cons_of_step
      (Tapscript.step_if (b := false) rfl h1)) ?_
    refine Eq.trans (Tapscript.exec_cons_of_step
      (skip_pushInt hle rfl h1)) ?_
    refine Eq.trans (Tapscript.exec_cons_of_step
      (Tapscript.step_skip rfl h1
      (Or.inr ⟨opAdd, rfl, by decide, by decide⟩))) ?_
    exact Tapscript.exec_cons_of_step (Tapscript.step_endif h1)
  · have hcost : checkCost item = Tapscript.sigopCost := if_neg hnil
    have hcount : countedPower item k.2 = k.2 := if_neg hnil
    rw [hcost] at hbudget ⊢
    rw [hcount, Int.natCast_add]
    refine Eq.trans (Tapscript.exec_cons_of_step
      (Tapscript.step_checksig_valid rfl (bytes_ne_nil k.1) hnil (hitem hnil) hbudget h2)) ?_
    refine Eq.trans (Tapscript.exec_cons_of_step
      (Tapscript.step_if (b := true) rfl h1)) ?_
    refine Eq.trans (Tapscript.exec_cons_of_step
      (step_pushInt hle rfl h2)) ?_
    refine Eq.trans (Tapscript.exec_cons_of_step
      (Tapscript.step_add rfl hacc hpow h1)) ?_
    exact Tapscript.exec_cons_of_step (Tapscript.step_endif h1)

/-- After the members' scripts the stack holds the power of those whose item is on it. -/
theorem exec_members {item : WeightedKey → Item} (ks : List WeightedKey) {acc : Nat}
    (hitem : ∀ k ∈ ks, item k ≠ [] → verify (item k) k.1.bytes = true)
    (hpower : acc + (ks.map Prod.snd).sum < 2 ^ 31)
    (hbudget : (ks.map (fun k => checkCost (item k))).sum ≤ budget)
    (hsize : ks.length + 2 ≤ Tapscript.maxStackSize) :
    Tapscript.exec verify mature ((ks.flatMap memberInstructions).map toTapscript)
        ⟨Tapscript.encodeNum acc :: ks.map item, [], budget⟩ =
      some ⟨[Tapscript.encodeNum
          ((acc + (ks.map (fun k => countedPower (item k) k.2)).sum : Nat) : Int)], [],
        budget - (ks.map (fun k => checkCost (item k))).sum⟩ := by
  induction ks generalizing acc budget with
  | nil => rfl
  | cons k rest ih =>
    simp only [List.map_cons, List.sum_cons] at hpower hbudget ⊢
    have hcounted := countedPower_le (item k) k.2
    have hroom : (rest.map item).length + 3 ≤ Tapscript.maxStackSize := by
      rw [List.length_map]
      exact hsize
    rw [List.flatMap_cons, List.map_append, Tapscript.exec_append,
      exec_member _ (hitem k List.mem_cons_self) (by omega) (by omega) hroom, Option.bind_some,
      ih (fun j hj => hitem j (List.mem_cons_of_mem _ hj)) (by omega) (by omega)
        (le_trans (by rw [List.length_cons]; omega) hsize), Nat.add_assoc, Nat.sub_sub]

def scriptInstructions (keys : List WeightedKey) (threshold : Power) : List Chain.Instruction :=
  pushIntInstruction 0 :: keys.flatMap memberInstructions ++
    [pushIntInstruction threshold, .op opGreaterThanOrEqual]

/-- The script compares the power of the items on the stack with the threshold. -/
theorem evaluate_script {item : WeightedKey → Item} {ks : List WeightedKey} {threshold : Power}
    (hitem : ∀ k ∈ ks, item k ≠ [] → verify (item k) k.1.bytes = true)
    (hlen : ∀ k ∈ ks, (item k).length ≤ Tapscript.maxItemSize)
    (hpower : (ks.map Prod.snd).sum < 2 ^ 31) (hthreshold : threshold < 2 ^ 31)
    (hbudget : (ks.map (fun k => checkCost (item k))).sum ≤ budget)
    (hsize : ks.length + 2 ≤ Tapscript.maxStackSize) :
    Tapscript.evaluate verify mature ((scriptInstructions ks threshold).map toTapscript)
        (ks.map item) budget =
      some [Tapscript.boolItem (decide
        (threshold ≤ (ks.map (fun k => countedPower (item k) k.2)).sum))] := by
  set counted := (ks.map (fun k => countedPower (item k) k.2)).sum with hcounted
  have hlt : counted < 2 ^ 31 :=
    lt_of_le_of_lt (List.sum_le_sum (fun k _ => countedPower_le (item k) k.2)) hpower
  have hstack : (ks.map item).length ≤ Tapscript.maxStackSize ∧
      ∀ i ∈ ks.map item, i.length ≤ Tapscript.maxItemSize := by
    refine ⟨by rw [List.length_map]; omega, fun i hi => ?_⟩
    obtain ⟨k, hk, rfl⟩ := List.mem_map.mp hi
    exact hlen k hk
  have hrun : Tapscript.exec verify mature ((scriptInstructions ks threshold).map toTapscript)
      ⟨ks.map item, [], budget⟩ = some ⟨[Tapscript.boolItem (decide (threshold ≤ counted))], [],
        budget - (ks.map (fun k => checkCost (item k))).sum⟩ := by
    rw [scriptInstructions, List.cons_append, List.map_cons]
    refine Eq.trans (Tapscript.exec_cons_of_step
      (step_pushInt (by decide) rfl (by rw [List.length_map]; omega))) ?_
    rw [List.map_append, Tapscript.exec_append,
      exec_members ks hitem (by rw [Nat.zero_add]; exact hpower) hbudget hsize,
      Option.bind_some, Nat.zero_add, ← hcounted]
    refine Eq.trans (Tapscript.exec_cons_of_step (step_pushInt hthreshold rfl
      (show 1 + 1 ≤ Tapscript.maxStackSize by decide))) ?_
    refine Eq.trans (Tapscript.exec_cons_of_step (Tapscript.step_greaterThanOrEqual rfl
      (Tapscript.decodeNum_encodeNum hlt) (Tapscript.decodeNum_encodeNum hthreshold)
      (by decide))) ?_
    simp only [Int.ofNat_le]
    rfl
  rw [Tapscript.evaluate, if_pos hstack, hrun]
  rfl

end Run

theorem createMultisigScript_eq_ok {keys : List WeightedKey} {threshold : Power}
    {script : Script} : createMultisigScript keys threshold = .ok script ↔
      (keys.map Prod.snd).sum < powerBound ∧ threshold ≤ (keys.map Prod.snd).sum ∧
      script = pushInt 0 ++ (sortCommitteeKeys keys).flatMap memberScript ++ pushInt threshold ++
        [opGreaterThanOrEqual] := by
  by_cases hsum : (keys.map Prod.snd).sum < powerBound
  · by_cases hle : threshold ≤ (keys.map Prod.snd).sum
    · simp [createMultisigScript, sumPower, hsum, hle, ensure, eq_comm]
    · simp [createMultisigScript, sumPower, hsum, hle, ensure]
  · simp [createMultisigScript, sumPower, hsum]

theorem perm_sortCommitteeKeys (keys : List WeightedKey) : (sortCommitteeKeys keys).Perm keys :=
  List.perm_insertionSort _ _

theorem sortCommitteeKeys_idem (keys : List WeightedKey) :
    sortCommitteeKeys (sortCommitteeKeys keys) = sortCommitteeKeys keys := by
  have htotal : Std.Total (fun a b : WeightedKey => a.1.num ≤ b.1.num) :=
    ⟨fun a b => Nat.le_total a.1.num b.1.num⟩
  have htrans : IsTrans WeightedKey (fun a b => a.1.num ≤ b.1.num) :=
    ⟨fun _ _ _ => Nat.le_trans⟩
  exact (List.pairwise_insertionSort _ _).insertionSort_eq

/-- The order of the keys does not matter to the script. -/
theorem createMultisigScript_sort {keys : List WeightedKey} {threshold : Power} {script : Script}
    (h : createMultisigScript keys threshold = .ok script) :
    createMultisigScript (sortCommitteeKeys keys) threshold = .ok script := by
  have hsum : ((sortCommitteeKeys keys).map Prod.snd).sum = (keys.map Prod.snd).sum :=
    ((perm_sortCommitteeKeys keys).map Prod.snd).sum_eq
  rw [createMultisigScript_eq_ok] at h ⊢
  rw [hsum, sortCommitteeKeys_idem]
  exact h

theorem reads_script {ks : List WeightedKey} {threshold : Power}
    (hpower : ∀ k ∈ ks, k.2 < 2 ^ 31) (hthreshold : threshold < 2 ^ 31) :
    Reads (pushInt 0 ++ ks.flatMap memberScript ++ pushInt threshold ++ [opGreaterThanOrEqual])
      (scriptInstructions ks threshold) := by
  have hstart : Reads (pushInt 0) [pushIntInstruction 0] := Reads.pushInt (by decide)
  have hmembers := Reads.flatMap ks (fun k hk => reads_memberScript (hpower k hk))
  have hend : Reads (pushInt threshold ++ [opGreaterThanOrEqual])
      [pushIntInstruction threshold, .op opGreaterThanOrEqual] :=
    (Reads.pushInt hthreshold).append (Reads.op opGreaterThanOrEqual (by decide))
  have h := (hstart.append hmembers).append hend
  rw [← List.append_assoc] at h
  exact h

/-- The script that is built for a committee, instruction by instruction. -/
theorem reads_of_script {keys : List WeightedKey} {threshold : Power} {script : Script}
    (hscript : createMultisigScript keys threshold = .ok script)
    (hpower : (keys.map Prod.snd).sum < 2 ^ 31) :
    Reads script (scriptInstructions (sortCommitteeKeys keys) threshold) := by
  obtain ⟨-, hle, rfl⟩ := createMultisigScript_eq_ok.mp hscript
  refine reads_script (fun k hk => ?_) (lt_of_le_of_lt hle hpower)
  have hmem : k.2 ∈ keys.map Prod.snd :=
    List.mem_map_of_mem ((perm_sortCommitteeKeys keys).mem_iff.mp hk)
  exact lt_of_le_of_lt (List.single_le_sum (fun _ _ => Nat.zero_le _) _ hmem) hpower

section Meaning

variable {H : Type} {S : SpendCrate H} {verify : Item → Item → Bool} {mature : Item → Bool}

/-- An input holds a valid signature of every member in `G`, and of no other member. -/
def SignedByMembers (verify : Item → Item → Bool) (leaf : H) (keys : List WeightedKey)
    (G : Finset XOnlyPublicKey) (sigs : TapScriptSigs H) : Prop :=
  ∀ k ∈ keys, (k.1 ∈ G → ∃ sig, sigs (k.1, leaf) = some sig ∧
    verify sig.bytes k.1.bytes = true) ∧ (k.1 ∉ G → sigs (k.1, leaf) = none)

/-- The total power of the members in `G`. -/
def signersPower (keys : List WeightedKey) (G : Finset XOnlyPublicKey) : Nat :=
  ((keys.filter (fun k => k.1 ∈ G)).map Prod.snd).sum

theorem signersPower_perm {keys ks : List WeightedKey} (h : ks.Perm keys)
    (G : Finset XOnlyPublicKey) : signersPower ks G = signersPower keys G :=
  ((h.filter _).map Prod.snd).sum_eq

/-- The item of a member in the witness. -/
def memberItem (leaf : H) (sigs : TapScriptSigs H) (k : WeightedKey) : Item :=
  match sigs (k.1, leaf) with
  | some sig => sig.bytes
  | none => []

theorem memberItem_eq_nil {leaf : H} {sigs : TapScriptSigs H} {k : WeightedKey} :
    memberItem leaf sigs k = [] ↔ sigs (k.1, leaf) = none := by
  unfold memberItem
  cases sigs (k.1, leaf) with
  | none => simp
  | some sig => simp [bytes_ne_nil]

theorem length_memberItem (leaf : H) (sigs : TapScriptSigs H) (k : WeightedKey) :
    (memberItem leaf sigs k).length = if memberItem leaf sigs k = [] then 0 else 64 := by
  by_cases hnil : memberItem leaf sigs k = []
  · rw [if_pos hnil, hnil]
    rfl
  · rw [if_neg hnil]
    unfold memberItem at hnil ⊢
    cases hsig : sigs (k.1, leaf) with
    | none =>
      rw [hsig] at hnil
      exact absurd rfl hnil
    | some sig => exact sig.length_eq

/-- The weight of the signatures pays for their checks. -/
theorem checkCost_le_size (leaf : H) (sigs : TapScriptSigs H) (ks : List WeightedKey) :
    (ks.map (fun k => checkCost (memberItem leaf sigs k))).sum ≤
      (ks.map (fun k => varIntSize (memberItem leaf sigs k).length +
        (memberItem leaf sigs k).length)).sum := by
  refine List.sum_le_sum (fun k _ => ?_)
  rw [checkCost, length_memberItem]
  split_ifs
  · exact Nat.zero_le _
  · decide

theorem countedPower_sum {leaf : H} {sigs : TapScriptSigs H} {G : Finset XOnlyPublicKey}
    (ks : List WeightedKey) (h : SignedByMembers verify leaf ks G sigs) :
    (ks.map (fun k => countedPower (memberItem leaf sigs k) k.2)).sum = signersPower ks G := by
  induction ks with
  | nil => rfl
  | cons k rest ih =>
    obtain ⟨hin, hout⟩ := h k List.mem_cons_self
    have hrest := ih (fun j hj => h j (List.mem_cons_of_mem _ hj))
    rw [signersPower] at hrest ⊢
    rw [List.map_cons, List.sum_cons, hrest]
    by_cases hk : k.1 ∈ G
    · obtain ⟨sig, hsig, -⟩ := hin hk
      have hitem : memberItem leaf sigs k ≠ [] := by
        rw [Ne, memberItem_eq_nil, hsig]
        simp
      rw [List.filter_cons_of_pos (by simpa using hk), List.map_cons, List.sum_cons,
        countedPower, if_neg hitem]
    · have hitem : memberItem leaf sigs k = [] := memberItem_eq_nil.mpr (hout hk)
      rw [List.filter_cons_of_neg (by simpa using hk), countedPower, if_pos hitem, Nat.zero_add]

/-- The witness of an input, split in its script and the stack below. -/
theorem evaluateWitness_inputWitness (ks : List WeightedKey) (script : Script)
    (controlBlock : List UInt8) (sigs : TapScriptSigs H) :
    evaluateWitness verify mature (inputWitness S ks script controlBlock sigs) =
      (parseScript script).bind (fun is => Tapscript.evaluate verify mature is
        (ks.map (memberItem (S.tapscriptLeafHash script) sigs))
        (Tapscript.sigopCost + witnessSize (inputWitness S ks script controlBlock sigs))) := by
  have hsplit : (inputWitness S ks script controlBlock sigs).reverse =
      controlBlock :: script :: ks.map (memberItem (S.tapscriptLeafHash script) sigs) := by
    rw [inputWitness, List.reverse_append, ← List.map_reverse, List.reverse_reverse]
    rfl
  rw [evaluateWitness, hsplit]
  rfl

/-- The sizes of the members' items are part of the size of the witness. -/
theorem itemSizes_le_witnessSize (ks : List WeightedKey) (script : Script)
    (controlBlock : List UInt8) (sigs : TapScriptSigs H) :
    (ks.map (fun k => varIntSize (memberItem (S.tapscriptLeafHash script) sigs k).length +
        (memberItem (S.tapscriptLeafHash script) sigs k).length)).sum ≤
      witnessSize (inputWitness S ks script controlBlock sigs) := by
  have hitems : (inputWitness S ks script controlBlock sigs) =
      ks.reverse.map (memberItem (S.tapscriptLeafHash script) sigs) ++
        [script, controlBlock] := rfl
  have hperm := ((List.reverse_perm ks).map (fun k =>
    varIntSize (memberItem (S.tapscriptLeafHash script) sigs k).length +
      (memberItem (S.tapscriptLeafHash script) sigs k).length)).sum_eq
  rw [witnessSize, hitems, List.map_append, List.sum_append, List.map_map, ← hperm]
  exact le_trans (Nat.le_add_right _ _) (Nat.le_add_left _ _)

/-- A committee is small enough when its items, the sum and a key fit on the stack. -/
def maxCommitteeSize : Nat := 998

theorem evaluate_inputWitness {keys : List WeightedKey} {threshold : Power} {script : Script}
    {controlBlock : List UInt8} {sigs : TapScriptSigs H} {G : Finset XOnlyPublicKey}
    (hscript : createMultisigScript keys threshold = .ok script)
    (hpower : (keys.map Prod.snd).sum < 2 ^ 31) (hsize : keys.length ≤ maxCommitteeSize)
    (hsigned : SignedByMembers verify (S.tapscriptLeafHash script) keys G sigs) :
    evaluateWitness verify mature
        (inputWitness S (sortCommitteeKeys keys) script controlBlock sigs) =
      some [Tapscript.boolItem (decide (threshold ≤ signersPower keys G))] := by
  obtain ⟨-, hle, -⟩ := createMultisigScript_eq_ok.mp hscript
  have hperm := perm_sortCommitteeKeys keys
  have hsorted : SignedByMembers verify (S.tapscriptLeafHash script) (sortCommitteeKeys keys) G
      sigs :=
    fun k hk => hsigned k (hperm.mem_iff.mp hk)
  have hsum : ((sortCommitteeKeys keys).map Prod.snd).sum = (keys.map Prod.snd).sum :=
    (hperm.map Prod.snd).sum_eq
  have hthreshold : threshold < 2 ^ 31 := lt_of_le_of_lt hle hpower
  rw [evaluateWitness_inputWitness, parseScript_of_reads (reads_of_script hscript hpower),
    Option.bind_some,
    evaluate_script ?_ ?_ (hsum ▸ hpower) hthreshold ?_ ?_, countedPower_sum _ hsorted,
    signersPower_perm hperm]
  · intro k hk hitem
    by_cases hG : k.1 ∈ G
    · obtain ⟨sig, hsig, hvalid⟩ := (hsorted k hk).1 hG
      rw [memberItem, hsig]
      exact hvalid
    · exact absurd (memberItem_eq_nil.mpr ((hsorted k hk).2 hG)) hitem
  · intro k _
    rw [length_memberItem]
    split_ifs <;> decide
  · exact le_trans (checkCost_le_size _ _ _)
      (le_trans (itemSizes_le_witnessSize _ _ _ _) (Nat.le_add_left _ _))
  · rw [hperm.length_eq]
    exact Nat.add_le_add_right hsize 2

/-- What finalizing returns is extracted with the witnesses built from the signatures. -/
theorem finalizeSpendPsbt_eq_ok {subnetId : SubnetId} {keys : List WeightedKey}
    {threshold : Power} {p : SigningPsbt H} {tx : Transaction} {script : Script}
    (hscript : createMultisigScript keys threshold = .ok script) :
    finalizeSpendPsbt S subnetId keys threshold p = .ok tx ↔
      ∃ id controlBlock, (subnetId.txid20 : Outcome MultisigError Txid20) = .ok id ∧
        S.controlBlock (.branch (.leaf script) (.leaf (createUnspendableSubnetIdScript id)))
          script = some controlBlock ∧
        extractTx S p.psbt (p.tapScriptSigs.map
          (inputWitness S (sortCommitteeKeys keys) script controlBlock)) = .ok tx := by
  simp only [finalizeSpendPsbt, createSubnetMultisigSpendInfo, createMultisigScript_sort hscript,
    ok_bind]
  cases (subnetId.txid20 : Outcome MultisigError Txid20) with
  | error e => simp
  | ok id =>
    cases hblock : S.controlBlock (.branch (.leaf script)
      (.leaf (createUnspendableSubnetIdScript id))) script with
    | none => simp [hblock, okOr]
    | some controlBlock => simp [hblock, okOr]

theorem witness_of_extractTx {p : Psbt} {witnesses : List (List Item)} {tx : Transaction}
    (h : extractTx S p witnesses = .ok tx) {i : Nat} {input : TxIn}
    (hinput : tx.input[i]? = some input) : witnesses[i]? = some input.witness := by
  rw [extractTx] at h
  cases hfee : S.feeError p witnesses with
  | some text =>
    rw [hfee] at h
    cases h
  | none =>
    rw [hfee] at h
    obtain rfl := Except.ok.inj h
    rw [List.getElem?_map, Option.map_eq_some_iff] at hinput
    obtain ⟨⟨input', w⟩, hzip, rfl⟩ := hinput
    exact (List.getElem?_zip_eq_some.mp hzip).2

/-- Every input of a finalized transaction leaves one item, and whether it is true. The timelocks
that have passed do not matter. -/
def Decides (verify : Nat → Item → Item → Bool) (out : Outcome MultisigError Transaction)
    (passes : Prop) : Prop :=
  ∀ tx, out = .ok tx → ∀ i input, tx.input[i]? = some input → ∀ mature, ∃ item,
    evaluateWitness (verify i) mature input.witness = some [item] ∧
    (Tapscript.castToBool item = true ↔ passes)

theorem decides_of_signedBy {verify : Nat → Item → Item → Bool} {subnetId : SubnetId}
    {keys : List WeightedKey} {threshold : Power} {script : Script} {p : SigningPsbt H}
    {G : Finset XOnlyPublicKey} (hscript : createMultisigScript keys threshold = .ok script)
    (hpower : (keys.map Prod.snd).sum < 2 ^ 31) (hsize : keys.length ≤ maxCommitteeSize)
    (hsigned : ∀ i sigs, p.tapScriptSigs[i]? = some sigs →
      SignedByMembers (verify i) (S.tapscriptLeafHash script) keys G sigs) :
    Decides verify (finalizeSpendPsbt S subnetId keys threshold p)
      (threshold ≤ signersPower keys G) := by
  intro tx htx i input hinput mature
  obtain ⟨id, controlBlock, -, -, hextract⟩ := (finalizeSpendPsbt_eq_ok hscript).mp htx
  have hwitness := witness_of_extractTx hextract hinput
  rw [List.getElem?_map, Option.map_eq_some_iff] at hwitness
  obtain ⟨sigs, hsigs, hw⟩ := hwitness
  refine ⟨_, hw ▸ evaluate_inputWitness hscript hpower hsize (hsigned i sigs hsigs), ?_⟩
  rw [Tapscript.castToBool_boolItem, decide_eq_true_iff]

/-- Without room for a key above the items and the sum, the script fails. -/
theorem evaluate_inputWitness_none {keys : List WeightedKey} {threshold : Power}
    {script : Script} {controlBlock : List UInt8} {sigs : TapScriptSigs H}
    (hscript : createMultisigScript keys threshold = .ok script)
    (hpower : (keys.map Prod.snd).sum < 2 ^ 31) (hsize : maxCommitteeSize < keys.length) :
    evaluateWitness verify mature
      (inputWitness S (sortCommitteeKeys keys) script controlBlock sigs) = none := by
  rw [evaluateWitness_inputWitness, parseScript_of_reads (reads_of_script hscript hpower),
    Option.bind_some, Tapscript.evaluate]
  refine ite_eq_right_iff.mpr (fun hstack => ?_)
  rw [List.length_map] at hstack
  have hlen : (sortCommitteeKeys keys).length = keys.length :=
    (perm_sortCommitteeKeys keys).length_eq
  obtain ⟨k, rest, hks⟩ := List.exists_cons_of_length_pos
    (show 0 < (sortCommitteeKeys keys).length by omega)
  have hbound : maxCommitteeSize + 2 = Tapscript.maxStackSize := rfl
  suffices hrun : ∀ budget, Tapscript.exec verify mature
      ((scriptInstructions (sortCommitteeKeys keys) threshold).map toTapscript)
        ⟨(sortCommitteeKeys keys).map (memberItem (S.tapscriptLeafHash script) sigs), [],
          budget⟩ = none by
    rw [hrun]
    rfl
  intro budget
  set item := memberItem (S.tapscriptLeafHash script) sigs
  rw [hks] at hlen ⊢
  rw [scriptInstructions, List.cons_append, List.map_cons, List.flatMap_cons]
  by_cases hfull : Tapscript.maxStackSize < keys.length + 1
  · rw [Tapscript.exec]
    rw [show toTapscript (pushIntInstruction 0) = .push [] from rfl,
      Tapscript.step_push_full rfl (by rw [List.length_map, hlen]; exact hfull)]
    rfl
  · have hpushed : ((k :: rest).map item).length + 1 ≤ Tapscript.maxStackSize := by
      rw [List.length_map, hlen]
      omega
    refine Eq.trans (Tapscript.exec_cons_of_step (step_pushInt (by decide) rfl hpushed)) ?_
    refine Eq.trans (Tapscript.exec_cons_of_step (Tapscript.step_swap rfl hpushed)) ?_
    refine congrArg (Option.bind · _) (Tapscript.step_push_full rfl ?_)
    rw [List.length_cons, List.length_cons, List.length_map, ← List.length_cons (a := k), hlen]
    omega

variable [DecidableEq H]

/-- An input gets the signature of its own index. -/
theorem getElem?_insertSet (key : XOnlyPublicKey) (leaf : H) (signatures : List Signature)
    (inputs : List (TapScriptSigs H)) (i : Nat) :
    (insertSet key leaf signatures inputs)[i]? = inputs[i]?.map (fun sigs =>
      match signatures[i]? with
      | some sig => Function.update sigs (key, leaf) (some sig)
      | none => sigs) := by
  -- the set is read from an index that grows with what was inserted
  have hfrom : ∀ (l : List Signature) (k : Nat) (inputs : List (TapScriptSigs H)),
      ((l.zipIdx k).foldl (fun inputs (x : Signature × Nat) =>
        inputs.modify x.2 (fun sigs => Function.update sigs (key, leaf) (some x.1))) inputs)[i]? =
      inputs[i]?.map (fun sigs =>
        match if k ≤ i then l[i - k]? else none with
        | some sig => Function.update sigs (key, leaf) (some sig)
        | none => sigs) := by
    intro l
    induction l with
    | nil =>
      intro k inputs
      simp
    | cons sig rest ih =>
      intro k inputs
      rw [List.zipIdx_cons, List.foldl_cons, ih, List.getElem?_modify]
      cases inputs[i]? with
      | none => rfl
      | some sigs =>
        rcases lt_trichotomy k i with hlt | heq | hgt
        · obtain ⟨d, hd⟩ : ∃ d, i - k = d + 1 := ⟨i - k - 1, by omega⟩
          have hd' : i - (k + 1) = d := by omega
          simp [Nat.ne_of_lt hlt, hlt.le, Nat.succ_le_of_lt hlt, hd, hd']
        · subst heq
          simp
        · have h1 : ¬ k ≤ i := by omega
          have h2 : ¬ k + 1 ≤ i := by omega
          simp [Nat.ne_of_gt hgt, h1, h2]
  have h := hfrom signatures 0 inputs
  rw [insertSet]
  simpa using h

/-- Where a key stands after the signature sets are inserted: as before when no set of that
key reaches the input, else with the signature of one of its sets. -/
theorem lookup_insertSets (leaf : H) (pairs : List (WeightedKey × List Signature))
    {inputs : List (TapScriptSigs H)} {i : Nat} {before : TapScriptSigs H}
    (hbefore : inputs[i]? = some before) : ∃ sigs,
      (insertSets leaf pairs inputs)[i]? = some sigs ∧ ∀ key,
        (sigs (key, leaf) = before (key, leaf) ∧ ∀ p ∈ pairs, p.1.1 = key → p.2[i]? = none) ∨
        ∃ p ∈ pairs, p.1.1 = key ∧ ∃ sig, p.2[i]? = some sig ∧ sigs (key, leaf) = some sig := by
  induction pairs generalizing inputs before with
  | nil => exact ⟨before, hbefore, fun key => Or.inl ⟨rfl, fun p hp => absurd hp (by simp)⟩⟩
  | cons p rest ih =>
    have hstep := getElem?_insertSet p.1.1 leaf p.2 inputs i
    rw [hbefore, Option.map_some] at hstep
    obtain ⟨sigs, hsigs, hkeys⟩ := ih hstep
    refine ⟨sigs, hsigs, fun key => ?_⟩
    rcases hkeys key with ⟨hsame, hnone⟩ | ⟨q, hq, hkey, sig, hsig, hlook⟩
    · cases hi : p.2[i]? with
      | none =>
        rw [hi] at hsame
        refine Or.inl ⟨hsame, fun q hq hkey => ?_⟩
        rcases List.mem_cons.mp hq with rfl | hq
        · exact hi
        · exact hnone q hq hkey
      | some sig =>
        rw [hi] at hsame
        by_cases hkey : p.1.1 = key
        · refine Or.inr ⟨p, List.mem_cons_self, hkey, sig, hi, ?_⟩
          rw [hsame, hkey]
          exact Function.update_self _ _ _
        · refine Or.inl ⟨?_, fun q hq hq' => ?_⟩
          · rw [hsame]
            refine Function.update_of_ne ?_ _ _
            intro heq
            exact hkey (Prod.mk.inj heq).1.symm
          · rcases List.mem_cons.mp hq with rfl | hq
            · exact absurd hq' hkey
            · exact hnone q hq hq'
    · exact Or.inr ⟨q, List.mem_cons_of_mem _ hq, hkey, sig, hsig, hlook⟩

theorem insertSets_none (leaf : H) (pairs : List (WeightedKey × List Signature))
    {inputs : List (TapScriptSigs H)} {i : Nat} (h : inputs[i]? = none) :
    (insertSets leaf pairs inputs)[i]? = none := by
  induction pairs generalizing inputs with
  | nil => exact h
  | cons p rest ih =>
    refine ih ?_
    rw [getElem?_insertSet, h]
    rfl

/-- The sets of the members in `G` hold a valid signature for each of `n` inputs, and those
of the others are empty. -/
def SetsOf (verify : Nat → Item → Item → Bool) (n : Nat) (keys : List WeightedKey)
    (G : Finset XOnlyPublicKey) (signatureSets : List (List Signature)) : Prop :=
  List.Forall₂ (fun k set =>
    (k.1 ∈ G → set.length = n ∧
      ∀ i sig, set[i]? = some sig → verify i sig.bytes k.1.bytes = true) ∧
    (k.1 ∉ G → set = [])) keys signatureSets

theorem signedBy_insertSets {verify : Nat → Item → Item → Bool} {keys : List WeightedKey}
    {G : Finset XOnlyPublicKey} {signatureSets : List (List Signature)} {leaf : H}
    {inputs : List (TapScriptSigs H)} (hsets : SetsOf verify inputs.length keys G signatureSets)
    (hunsigned : ∀ sigs ∈ inputs, ∀ x, sigs x = none) {i : Nat} {sigs : TapScriptSigs H}
    (hsigs : (insertSets leaf (sortPairs (keys.zip signatureSets)) inputs)[i]? = some sigs)
    {before : TapScriptSigs H} (hbefore : inputs[i]? = some before) :
    SignedByMembers (verify i) leaf keys G sigs := by
  obtain ⟨sigs', hsigs', hkeys⟩ := lookup_insertSets leaf (sortPairs (keys.zip signatureSets))
    hbefore
  obtain rfl : sigs = sigs' := Option.some.inj (hsigs.symm.trans hsigs')
  have hi : i < inputs.length := (List.getElem?_eq_some_iff.mp hbefore).1
  have hpair : ∀ p ∈ sortPairs (keys.zip signatureSets), p ∈ keys.zip signatureSets :=
    fun p hp => (List.perm_insertionSort _ _).mem_iff.mp hp
  have hof : ∀ p ∈ keys.zip signatureSets, _ := fun p hp => (List.forall₂_iff_zip.mp hsets).2 hp
  intro k hk
  refine ⟨fun hG => ?_, fun hG => ?_⟩
  · rcases hkeys k.1 with ⟨-, hnone⟩ | ⟨p, hp, hkey, sig, hsig, hlook⟩
    · obtain ⟨j, hj, rfl⟩ := List.getElem_of_mem hk
      have hlen := hsets.length_eq
      have hj' : j < signatureSets.length := hlen ▸ hj
      have hmem : (keys[j], signatureSets[j]) ∈ keys.zip signatureSets := by
        rw [← List.getElem_zip (h := by rw [List.length_zip]; omega)]
        exact List.getElem_mem _
      have hset := (hof _ hmem).1 hG
      have hgot := hnone _ ((List.perm_insertionSort _ _).mem_iff.mpr hmem) rfl
      rw [List.getElem?_eq_none_iff, hset.1] at hgot
      exact absurd hi (Nat.not_lt.mpr hgot)
    · have hset := (hof p (hpair p hp)).1 (hkey ▸ hG)
      exact ⟨sig, hlook, hkey ▸ hset.2 i sig hsig⟩
  · rcases hkeys k.1 with ⟨hsame, -⟩ | ⟨p, hp, hkey, sig, hsig, -⟩
    · rw [hsame]
      exact hunsigned before (List.mem_of_getElem? hbefore) _
    · have hset := (hof p (hpair p hp)).2 (hkey ▸ hG)
      rw [hset] at hsig
      cases hsig

/-- The script of a committee that fits on the stack asks for the threshold: from the
signatures of any members, in the transaction or in sets, evaluation ends with one item that
is true exactly when their power reaches the threshold. -/
theorem multisig_script_decides {verify : Nat → Item → Item → Bool} {subnetId : SubnetId}
    {keys : List WeightedKey} {threshold : Power} {script : Script} {p : SigningPsbt H}
    {G : Finset XOnlyPublicKey} (hscript : createMultisigScript keys threshold = .ok script)
    (hpower : (keys.map Prod.snd).sum < 2 ^ 31) (hsize : keys.length ≤ maxCommitteeSize) :
    ((∀ i sigs, p.tapScriptSigs[i]? = some sigs →
        SignedByMembers (verify i) (S.tapscriptLeafHash script) keys G sigs) →
      Decides verify (finalizeSpendPsbt S subnetId keys threshold p)
        (threshold ≤ signersPower keys G)) ∧
    ∀ signatureSets, SetsOf verify p.tapScriptSigs.length keys G signatureSets →
      (∀ sigs ∈ p.tapScriptSigs, ∀ x, sigs x = none) →
      Decides verify (finalizeSpendPsbtFromSigs S subnetId keys threshold p signatureSets)
        (threshold ≤ signersPower keys G) := by
  refine ⟨decides_of_signedBy hscript hpower hsize, fun signatureSets hsets hunsigned => ?_⟩
  have hfrom : finalizeSpendPsbtFromSigs S subnetId keys threshold p signatureSets =
      finalizeSpendPsbt S subnetId keys threshold ⟨p.psbt,
        insertSets (S.tapscriptLeafHash script) (sortPairs (keys.zip signatureSets))
          p.tapScriptSigs⟩ := by
    rw [finalizeSpendPsbtFromSigs, hscript]
    rfl
  rw [hfrom]
  refine decides_of_signedBy hscript hpower hsize (fun i sigs hsigs => ?_)
  cases hbefore : p.tapScriptSigs[i]? with
  | none =>
    rw [insertSets_none _ _ hbefore] at hsigs
    cases hsigs
  | some before => exact signedBy_insertSets hsets hunsigned hsigs hbefore

end Meaning

section Fixed

/-- Leaves are their own hashes. -/
def plainCrate : SpendCrate Script := ⟨id, fun _ _ => some [0xc0], fun _ _ => none⟩

def plainKey (i : Nat) : XOnlyPublicKey := ⟨toLe 32 i, length_toLe 32 i⟩

def plainSubnet : SubnetId := SubnetId.fromTxid20 (FixedBytes.zeros 20)

def plainTx (witness : List Item) : Transaction :=
  ⟨2, 0, [⟨⟨FixedBytes.zeros 32, 0⟩, [], 0xffffffff, witness⟩], []⟩

def plainPsbt (sigs : TapScriptSigs Script) : SigningPsbt Script := ⟨⟨plainTx [], [], []⟩, [sigs]⟩

theorem finalizeSpendPsbt_plain {keys : List WeightedKey} {threshold : Power} {script : Script}
    (sigs : TapScriptSigs Script) (hscript : createMultisigScript keys threshold = .ok script) :
    finalizeSpendPsbt plainCrate plainSubnet keys threshold (plainPsbt sigs) =
      .ok (plainTx (inputWitness plainCrate (sortCommitteeKeys keys) script [0xc0] sigs)) :=
  (finalizeSpendPsbt_eq_ok hscript).mpr ⟨_, _, SubnetId.txid20_fromTxid20 _, rfl, rfl⟩

def plainSignature (k : XOnlyPublicKey) : Signature :=
  ⟨k.bytes ++ k.bytes, by rw [List.length_append, k.length_eq]⟩

/-- A signature is valid when it repeats the key. -/
def plainVerify (_ : Nat) (sig key : Item) : Bool := sig = key ++ key

def twoKeys : List WeightedKey := [(plainKey 2, 5), (plainKey 1, 3)]

def twoScript : Script :=
  pushInt 0 ++ (sortCommitteeKeys twoKeys).flatMap memberScript ++ pushInt 4 ++
    [opGreaterThanOrEqual]

theorem createMultisigScript_twoKeys : createMultisigScript twoKeys 4 = .ok twoScript :=
  createMultisigScript_eq_ok.mpr ⟨by decide, by decide, rfl⟩

/-- The heavier of two members signs alone. -/
theorem multisig_script_decides_one_of_two :
    (∃ tx, finalizeSpendPsbt plainCrate plainSubnet twoKeys 4
        (plainPsbt (fun x => if x.1 = plainKey 2 then some (plainSignature x.1) else none)) =
      .ok tx ∧ tx.input.length = 1) ∧
    Decides plainVerify (finalizeSpendPsbt plainCrate plainSubnet twoKeys 4
      (plainPsbt (fun x => if x.1 = plainKey 2 then some (plainSignature x.1) else none)))
        (4 ≤ signersPower twoKeys {plainKey 2}) ∧
    Decides plainVerify (finalizeSpendPsbtFromSigs plainCrate plainSubnet twoKeys 4
      (plainPsbt (fun _ => none)) [[plainSignature (plainKey 2)], []])
        (4 ≤ signersPower twoKeys {plainKey 2}) := by
  have hpower : (twoKeys.map Prod.snd).sum < 2 ^ 31 := by decide
  have hsize : twoKeys.length ≤ maxCommitteeSize := by decide
  refine ⟨⟨_, finalizeSpendPsbt_plain _ createMultisigScript_twoKeys, rfl⟩,
    (multisig_script_decides createMultisigScript_twoKeys hpower hsize).1 ?_,
    (multisig_script_decides createMultisigScript_twoKeys hpower hsize).2 _ ?_ ?_⟩
  · intro i sigs hsigs k hk
    obtain rfl := List.mem_singleton.mp (List.mem_of_getElem? hsigs)
    rw [Finset.mem_singleton]
    refine ⟨fun h => ⟨plainSignature k.1, if_pos h, decide_eq_true rfl⟩, fun h => if_neg h⟩
  · refine .cons ⟨fun _ => ⟨rfl, fun i sig hsig => ?_⟩, fun h => ?_⟩ (.cons ⟨fun h => ?_, ?_⟩ .nil)
    · obtain rfl := List.mem_singleton.mp (List.mem_of_getElem? hsig)
      exact decide_eq_true rfl
    · exact absurd (Finset.mem_singleton_self _) h
    · exact absurd (Finset.mem_singleton.mp h) (by decide)
    · exact fun _ => rfl
  · intro sigs hsigs x
    rw [List.mem_singleton.mp hsigs]

/-- A committee that leaves no room on the stack. -/
def wideKeys : List WeightedKey := (List.range 999).map (fun i => (plainKey i, 1))

theorem nodup_wideKeys : (wideKeys.map Prod.fst).Nodup := by
  rw [wideKeys, List.map_map]
  refine List.Nodup.map_on (fun i hi j hj hij => ?_) List.nodup_range
  have hbytes : toLe 32 i = toLe 32 j := congrArg FixedBytes.bytes hij
  have hlt : ∀ n ∈ List.range 999, n < 256 ^ 32 :=
    fun n hn => lt_trans (List.mem_range.mp hn) (by decide)
  rw [← fromLe_toLe_of_lt (hlt i hi), ← fromLe_toLe_of_lt (hlt j hj), hbytes]

theorem sum_wideKeys : (wideKeys.map Prod.snd).sum = 999 := by
  have hones : wideKeys.map Prod.snd = List.replicate 999 1 := by
    rw [wideKeys, List.map_map]
    refine List.eq_replicate_iff.mpr ⟨by rw [List.length_map, List.length_range], ?_⟩
    intro b hb
    obtain ⟨i, -, rfl⟩ := List.mem_map.mp hb
    rfl
  rw [hones, List.sum_replicate]
  rfl

theorem wide_committee_fails : ∃ script tx input,
    (wideKeys.map Prod.fst).Nodup ∧ (wideKeys.map Prod.snd).sum < 2 ^ 31 ∧
    createMultisigScript wideKeys 0 = .ok script ∧
    SignedByMembers (plainVerify 0) (plainCrate.tapscriptLeafHash script) wideKeys ∅
      (fun _ => none) ∧
    finalizeSpendPsbt plainCrate plainSubnet wideKeys 0 (plainPsbt (fun _ => none)) = .ok tx ∧
    tx.input[0]? = some input ∧
    ∀ mature, evaluateWitness (plainVerify 0) mature input.witness = none := by
  have hpower : (wideKeys.map Prod.snd).sum < 2 ^ 31 := by
    rw [sum_wideKeys]
    decide
  have hbound : (wideKeys.map Prod.snd).sum < powerBound := by
    rw [sum_wideKeys]
    decide
  obtain ⟨script, hscript⟩ : ∃ script, createMultisigScript wideKeys 0 = .ok script :=
    ⟨_, createMultisigScript_eq_ok.mpr ⟨hbound, Nat.zero_le _, rfl⟩⟩
  have hsize : maxCommitteeSize < wideKeys.length := by
    rw [wideKeys, List.length_map, List.length_range]
    decide
  have hfails : ∀ mature, evaluateWitness (plainVerify 0) mature (inputWitness plainCrate
      (sortCommitteeKeys wideKeys) script [0xc0] (fun _ => none)) = none :=
    fun _ => evaluate_inputWitness_none hscript hpower hsize
  exact ⟨script, _, _, nodup_wideKeys, hpower, hscript,
    fun k _ => ⟨fun h => absurd h (Finset.notMem_empty _), fun _ => rfl⟩,
    finalizeSpendPsbt_plain _ hscript, rfl, hfails⟩

end Fixed

end MultisigSpend
