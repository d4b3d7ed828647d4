import BitcoinIpc.MultisigSpend
import BitcoinIpc.Requests
import BitcoinIpc.CoinSelection

/-!
# Collecting the signatures of a spend

The provider of every member signs all inputs of a spend with the member's key.
Whoever collects the answers hands them in by key, and a provider sorts them by
member, builds the witnesses and submits the transaction. It refuses keys of
others and it does not check the signatures: one signature that does not verify
spoils the input it is for, whatever the others are.
-/

namespace MultisigSpend

open Faults Bytes Chain Messages Crates Multisig
open Tapscript (Item)

/-- What signing uses besides: the digest of an input, for the transaction without its
witnesses, the outputs that are spent, the index of the input and the leaf that is revealed. -/
structure SigningCrate (X : Library) (H : Type) extends SpendCrate H where
  scriptSpendSighash : Transaction → List TxOut → Nat → H → X.Digest

section Sign

variable {X : Library} {H : Type} (C : SigningCrate X H)

/-- The digest that a member signs for an input. -/
def inputDigest (p : Psbt) (i : Nat) : X.Digest :=
  C.scriptSpendSighash p.unsignedTx p.witnessUtxos i (C.tapscriptLeafHash p.witnessScript)

def signSpendPsbt (p : Psbt) (sk : X.SecretKey) : Outcome String (List Signature) := do
  let signatures := (List.range p.unsignedTx.input.length).map
    (fun i => X.signSchnorr sk (inputDigest C p i))
  ensure (signatures ≠ []) "signing error: No inputs were signed"
  return signatures

/-- A transaction to sign, before anyone signed. -/
def unsigned (p : Psbt) : SigningPsbt H :=
  ⟨p, List.replicate p.unsignedTx.input.length (fun _ => none)⟩

/-- Whether an item is a signature of a digest that verifies for a key. -/
def verifyItem (X : Library) (d : X.Digest) (sig key : Item) : Bool :=
  match FixedBytes.ofList? 64 sig, FixedBytes.ofList? 32 key with
  | some s, some k => X.verifySchnorr s d k
  | _, _ => false

/-- The signatures that verify for an input where a script is revealed. -/
def inputVerify (tx : Transaction) (spent : List TxOut) (i : Nat) (script : Script) :
    Item → Item → Bool :=
  verifyItem X (C.scriptSpendSighash tx.stripped spent i (C.tapscriptLeafHash script))

/-- Every input of a transaction opens the output that it spends, with the timelocks that have
passed for it. -/
def Authorised (mature : Nat → Item → Bool) (spent : List TxOut) (tx : Transaction) : Prop :=
  ∀ i input, tx.input[i]? = some input → ∃ out, spent[i]? = some out ∧
    Opens X C.toSpendCrate (inputVerify C tx spent i) (mature i) out input.witness

theorem signSpendPsbt_eq_ok {p : Psbt} {sk : X.SecretKey} {signatures : List Signature} :
    signSpendPsbt C p sk = .ok signatures ↔ p.unsignedTx.input ≠ [] ∧
      signatures = (List.range p.unsignedTx.input.length).map
        (fun i => X.signSchnorr sk (inputDigest C p i)) := by
  constructor
  · intro h
    obtain ⟨_, hne, h⟩ := bind_eq_ok.mp h
    have hlen : (List.range p.unsignedTx.input.length).map
        (fun i => X.signSchnorr sk (inputDigest C p i)) ≠ [] := ensure_eq_ok.mp hne
    refine ⟨?_, (Except.ok.inj h).symm⟩
    rintro hnil
    simp [hnil] at hlen
  · rintro ⟨hne, rfl⟩
    refine bind_eq_ok.mpr ⟨(), ensure_pos ?_, rfl⟩
    simpa using hne

end Sign

section Meaning

variable {verify : Item → Item → Bool} {mature : Item → Bool} {H : Type} {S : SpendCrate H}

/-- A signature that does not verify fails its member's script. -/
theorem exec_member_invalid {k : WeightedKey} {item acc : Item} (st : List Item) {budget : Nat}
    (hitem : item ≠ []) (hverify : verify item k.1.bytes = false)
    (hsize : st.length + 3 ≤ Tapscript.maxStackSize) :
    Tapscript.exec verify mature ((memberInstructions k).map toTapscript)
        ⟨acc :: item :: st, [], budget⟩ = none := by
  have hkey : k.1.bytes.length ≤ Tapscript.maxItemSize := by
    rw [k.1.length_eq]
    decide
  have h2 : st.length + 1 + 1 ≤ Tapscript.maxStackSize := by omega
  refine Eq.trans (Tapscript.exec_cons_of_step (Tapscript.step_swap rfl h2)) ?_
  refine Eq.trans (Tapscript.exec_cons_of_step (Tapscript.step_push rfl hkey hsize)) ?_
  exact congrArg (Option.bind · _)
    (Tapscript.step_checksig_invalid rfl k.1.length_eq hitem hverify)

/-- So does one signature that does not verify fail the scripts of all members. -/
theorem exec_members_invalid {item : WeightedKey → Item} (ks : List WeightedKey) {acc : Nat}
    {budget : Nat} (hbad : ∃ k ∈ ks, item k ≠ [] ∧ verify (item k) k.1.bytes = false)
    (hpower : acc + (ks.map Prod.snd).sum < 2 ^ 31)
    (hbudget : (ks.map (fun k => checkCost (item k))).sum ≤ budget)
    (hsize : ks.length + 2 ≤ Tapscript.maxStackSize) :
    Tapscript.exec verify mature ((ks.flatMap memberInstructions).map toTapscript)
      ⟨Tapscript.encodeNum acc :: ks.map item, [], budget⟩ = none := by
  induction ks generalizing acc budget with
  | nil =>
    obtain ⟨k, hk, -⟩ := hbad
    cases hk
  | cons k rest ih =>
    simp only [List.map_cons, List.sum_cons, List.length_cons] at hpower hbudget hsize ⊢
    have hroom : (rest.map item).length + 3 ≤ Tapscript.maxStackSize := by
      rw [List.length_map]
      omega
    rw [List.flatMap_cons, List.map_append, Tapscript.exec_append]
    by_cases hhead : item k ≠ [] ∧ verify (item k) k.1.bytes = false
    · rw [exec_member_invalid _ hhead.1 hhead.2 hroom]
      rfl
    · have hvalid : item k ≠ [] → verify (item k) k.1.bytes = true := by
        intro hne
        by_contra hfalse
        exact hhead ⟨hne, Bool.eq_false_iff.mpr hfalse⟩
      have hcounted := countedPower_le (item k) k.2
      rw [exec_member _ hvalid (by omega) (by omega) hroom, Option.bind_some]
      refine ih ?_ (by omega) (by omega) (by omega)
      obtain ⟨j, hj, hbadj⟩ := hbad
      rcases List.mem_cons.mp hj with rfl | hj
      · exact absurd hbadj hhead
      · exact ⟨j, hj, hbadj⟩

/-- Every signature that an input holds of a member verifies. -/
def AllVerify (verify : Item → Item → Bool) (leaf : H) (keys : List WeightedKey)
    (sigs : TapScriptSigs H) : Prop :=
  ∀ k ∈ keys, ∀ sig, sigs (k.1, leaf) = some sig → verify sig.bytes k.1.bytes = true

/-- The power of the members whose signature an input holds. -/
def signedPower (leaf : H) (keys : List WeightedKey) (sigs : TapScriptSigs H) : Nat :=
  ((keys.filter (fun k => (sigs (k.1, leaf)).isSome)).map Prod.snd).sum

/-- The members whose signature an input holds. -/
def signersOf (leaf : H) (keys : List WeightedKey) (sigs : TapScriptSigs H) :
    Finset XOnlyPublicKey :=
  ((keys.map Prod.fst).filter (fun k => (sigs (k, leaf)).isSome)).toFinset

theorem signersPower_signersOf (leaf : H) (keys : List WeightedKey) (sigs : TapScriptSigs H) :
    signersPower keys (signersOf leaf keys sigs) = signedPower leaf keys sigs := by
  have hfilter : keys.filter (fun k => k.1 ∈ signersOf leaf keys sigs) =
      keys.filter (fun k => (sigs (k.1, leaf)).isSome) := by
    refine List.filter_congr (fun k hk => ?_)
    have hmem : k.1 ∈ keys.map Prod.fst := List.mem_map_of_mem hk
    simp only [signersOf, List.mem_toFinset, List.mem_filter, hmem, true_and, Bool.decide_eq_true]
  rw [signersPower, hfilter, signedPower]

theorem signedBy_signersOf {leaf : H} {keys : List WeightedKey} {sigs : TapScriptSigs H}
    (h : AllVerify verify leaf keys sigs) :
    SignedByMembers verify leaf keys (signersOf leaf keys sigs) sigs := by
  intro k hk
  have hmem : k.1 ∈ keys.map Prod.fst := List.mem_map_of_mem hk
  cases hsig : sigs (k.1, leaf) with
  | none =>
    refine ⟨fun hin => ?_, fun _ => rfl⟩
    simp [signersOf, hsig] at hin
  | some sig =>
    refine ⟨fun _ => ⟨sig, rfl, h k hk sig hsig⟩, fun hout => absurd ?_ hout⟩
    simp only [signersOf, List.mem_toFinset, List.mem_filter, hmem, hsig, Option.isSome_some,
      and_self]

/-- One signature that does not verify fails the script of a committee. -/
theorem evaluate_inputWitness_invalid {keys : List WeightedKey} {threshold : Power}
    {script : Script} {controlBlock : List UInt8} {sigs : TapScriptSigs H}
    (hscript : createMultisigScript keys threshold = .ok script)
    (hpower : (keys.map Prod.snd).sum < 2 ^ 31) (hsize : keys.length ≤ maxCommitteeSize)
    (hbad : ¬ AllVerify verify (S.tapscriptLeafHash script) keys sigs) :
    evaluateWitness verify mature
      (inputWitness S (sortCommitteeKeys keys) script controlBlock sigs) = none := by
  set leaf := S.tapscriptLeafHash script with hleaf
  have hperm := perm_sortCommitteeKeys keys
  have hsum : ((sortCommitteeKeys keys).map Prod.snd).sum = (keys.map Prod.snd).sum :=
    (hperm.map Prod.snd).sum_eq
  have hlen : (sortCommitteeKeys keys).length + 2 ≤ Tapscript.maxStackSize := by
    rw [hperm.length_eq]
    exact Nat.add_le_add_right hsize 2
  have hspoiled : ∃ k ∈ sortCommitteeKeys keys, memberItem leaf sigs k ≠ [] ∧
      verify (memberItem leaf sigs k) k.1.bytes = false := by
    rw [AllVerify] at hbad
    push Not at hbad
    obtain ⟨k, hk, sig, hsig, hverify⟩ := hbad
    refine ⟨k, hperm.mem_iff.mpr hk, ?_, ?_⟩
    · rw [Ne, memberItem_eq_nil, hsig]
      simp
    · rw [memberItem, hsig]
      exact Bool.eq_false_iff.mpr hverify
  rw [evaluateWitness_inputWitness, parseScript_of_reads (reads_of_script hscript hpower),
    Option.bind_some, Tapscript.evaluate]
  refine ite_eq_right_iff.mpr (fun _ => ?_)
  suffices hrun : Tapscript.exec verify mature ((scriptInstructions (sortCommitteeKeys keys)
      threshold).map toTapscript) ⟨(sortCommitteeKeys keys).map (memberItem leaf sigs), [],
        Tapscript.sigopCost + witnessSize (inputWitness S (sortCommitteeKeys keys) script
          controlBlock sigs)⟩ = none by
    rw [← hleaf, hrun]
    rfl
  rw [scriptInstructions, List.cons_append, List.map_cons]
  refine Eq.trans (Tapscript.exec_cons_of_step
    (step_pushInt (by decide) rfl (by rw [List.length_map]; omega))) ?_
  rw [List.map_append, Tapscript.exec_append, exec_members_invalid _ hspoiled ?_ ?_ hlen]
  · rfl
  · rw [hsum, Nat.zero_add]
    exact hpower
  · exact le_trans (checkCost_le_size _ _ _)
      (le_trans (itemSizes_le_witnessSize _ _ _ _) (Nat.le_add_left _ _))

/-- What the script of a committee makes of the signatures of an input, whatever they are. -/
theorem inputWitness_true_iff {keys : List WeightedKey} {threshold : Power} {script : Script}
    {controlBlock : List UInt8} {sigs : TapScriptSigs H}
    (hscript : createMultisigScript keys threshold = .ok script)
    (hpower : (keys.map Prod.snd).sum < 2 ^ 31) :
    (∃ item, evaluateWitness verify mature
        (inputWitness S (sortCommitteeKeys keys) script controlBlock sigs) = some [item] ∧
        Tapscript.castToBool item = true) ↔
      keys.length ≤ maxCommitteeSize ∧
        AllVerify verify (S.tapscriptLeafHash script) keys sigs ∧
        threshold ≤ signedPower (S.tapscriptLeafHash script) keys sigs := by
  by_cases hsize : keys.length ≤ maxCommitteeSize
  · by_cases hall : AllVerify verify (S.tapscriptLeafHash script) keys sigs
    · have heval : evaluateWitness verify mature
          (inputWitness S (sortCommitteeKeys keys) script controlBlock sigs) = _ :=
        evaluate_inputWitness hscript hpower hsize (signedBy_signersOf hall)
      simp only [heval, signersPower_signersOf, Option.some.injEq, List.cons.injEq, and_true,
        hsize, hall, true_and, exists_eq_left', Tapscript.castToBool_boolItem, decide_eq_true_eq]
    · rw [evaluate_inputWitness_invalid hscript hpower hsize hall]
      simp [hall]
  · rw [evaluate_inputWitness_none hscript hpower (not_le.mp hsize)]
    simp [hsize]

/-- The sets that are given by key reach the inputs by their index. -/
theorem lookup_keyedSets [DecidableEq H] (leaf : H) (keys : List WeightedKey)
    (f : XOnlyPublicKey → List Signature) {n i : Nat} (hi : i < n) : ∃ sigs,
      (insertSets leaf (sortPairs (keys.zip (keys.map (fun k => f k.1))))
        (List.replicate n (fun _ => none)))[i]? = some sigs ∧
      ∀ k ∈ keys, sigs (k.1, leaf) = (f k.1)[i]? := by
  have hbefore : (List.replicate n (fun _ => none : TapScriptSigs H))[i]? =
      some (fun _ => none) := by
    rw [List.getElem?_replicate, if_pos hi]
  obtain ⟨sigs, hsigs, hlook⟩ := lookup_insertSets leaf
    (sortPairs (keys.zip (keys.map (fun k => f k.1)))) hbefore
  have hmem : ∀ p, p ∈ sortPairs (keys.zip (keys.map (fun k => f k.1))) ↔
      ∃ k ∈ keys, p = (k, f k.1) := by
    intro p
    rw [sortPairs, (List.perm_insertionSort _ _).mem_iff, ← List.map_prod_left_eq_zip,
      List.mem_map]
    simp only [eq_comm]
  refine ⟨sigs, hsigs, fun k hk => ?_⟩
  rcases hlook k.1 with ⟨hnone, hall⟩ | ⟨p, hp, hkey, sig, hsig, hfound⟩
  · have hset := hall (k, f k.1) ((hmem _).mpr ⟨k, hk, rfl⟩) rfl
    rw [hnone, ← hset]
  · obtain ⟨j, -, rfl⟩ := (hmem p).mp hp
    have hkey : j.1 = k.1 := hkey
    rw [hfound, ← hkey, ← hsig]

theorem extractTx_eq_ok {p : Psbt} {witnesses : List (List Item)} {tx : Transaction} :
    extractTx S p witnesses = .ok tx ↔ S.feeError p witnesses = none ∧ tx = { p.unsignedTx with
      input := (p.unsignedTx.input.zip witnesses).map
        (fun (i, w) => { i with witness := w }) } := by
  cases hfee : S.feeError p witnesses with
  | some text => simp [extractTx, hfee]
  | none => simp [extractTx, hfee, eq_comm]

end Meaning

section Spend

variable {X : Library} {keys : List WeightedKey} {threshold : Power} {changeAddress : Address}
  {unspent : List Utxo} {exhaust : Bool} {txOuts : List TxOut} {feeRate : FeeRate} {limit : Nat}

/-- A transaction to sign spends some of the entries, without witnesses, by the script of the
members. -/
structure SpendOf (keys : List WeightedKey) (threshold : Power) (unspent : List Utxo) (p : Psbt) :
    Prop where
  script : createMultisigScript keys threshold = .ok p.witnessScript
  nonempty : p.unsignedTx.input ≠ []
  bare : ∀ i ∈ p.unsignedTx.input, i.witness = []
  spent : List.Forall₂ (fun i out => ∃ u ∈ unspent,
    i.previousOutput = ⟨u.txid, u.vout⟩ ∧ out = ⟨u.amount, u.scriptPubkey⟩)
      p.unsignedTx.input p.witnessUtxos

theorem spendOf_constructSpendPsbt {id : SubnetId} {p : Psbt}
    (h : constructSpendPsbt X id keys threshold changeAddress unspent exhaust txOuts feeRate
      limit = .ok p) : SpendOf keys threshold unspent p := by
  obtain ⟨tx, htx, h⟩ := bind_eq_ok.mp h
  obtain ⟨script, hscript, h⟩ := bind_eq_ok.mp h
  obtain ⟨_, -, h⟩ := bind_eq_ok.mp h
  obtain ⟨utxos, hutxos, h⟩ := bind_eq_ok.mp h
  cases h
  obtain ⟨selected, hne, -, hinput⟩ := input_of_constructSpendUnsignedTransaction htx
  refine ⟨hscript, ?_, ?_, ?_⟩
  · simpa [hinput] using hne
  · intro i hi
    rw [hinput] at hi
    obtain ⟨u, -, rfl⟩ := List.mem_map.mp hi
    rfl
  · refine (traverse_eq_ok.mp hutxos).imp (fun i out hout => ?_)
    obtain ⟨u, hu, hout⟩ := bind_eq_ok.mp hout
    cases hout
    have hfound := okOr_eq_ok.mp hu
    have hmatch := List.find?_some hfound
    simp only [decide_eq_true_eq] at hmatch
    refine ⟨u, List.mem_of_find?_eq_some hfound, ?_, rfl⟩
    rw [hmatch.1, hmatch.2]

end Spend

end MultisigSpend

namespace Provider

open Faults Bytes Chain Messages Crates Multisig MultisigSpend Db
open Tapscript (Item)

section Finalize

variable {X : Library} {H : Type} [DecidableEq H] (C : SigningCrate X H)

/-- The set that is kept for a key: of two sets for one key, the later one. -/
def signaturesOf (signatures : List (XOnlyPublicKey × List Signature)) (key : XOnlyPublicKey) :
    List Signature :=
  (signatures.reverse.lookup key).getD []

/-- Finalizes a spend with the sets that are handed in, in the order of the members. -/
def finalizeWithSignatures (id : SubnetId) (keys : List WeightedKey) (threshold : Power)
    (p : Psbt) (signatures : List (XOnlyPublicKey × List Signature)) :
    Outcome RpcError Transaction := do
  ensure (∀ a ∈ signatures, keys.any (fun k => k.1 = a.1) = true)
    (.invalidParams "Unrecognized public key in signatures: \x7b\x7d")
  let signatureSets := keys.map (fun k => signaturesOf signatures k.1)
  orInternal (finalizeSpendPsbtFromSigs C.toSpendCrate id keys threshold (unsigned p)
    signatureSets)

/-- The transactions that are submitted. The reveal of the batch comes from the request too. -/
def finalizeCheckpointPsbt (db : HeedDb) (id : SubnetId) (p : Psbt)
    (signatures : List (XOnlyPublicKey × List Signature)) (batchTransferTx : Option Transaction) :
    Outcome RpcError (List Transaction) := do
  let s ← readState X db id
  let tx ← finalizeWithSignatures C id s.committee.validatorWeightedKeys s.committee.threshold p
    signatures
  return tx :: batchTransferTx.toList

/-- The checkpoint with the signatures of the configured validator. -/
def genSignedCheckpointPsbt (σ τ : MapOrders) (db : HeedDb) (validator : Option X.SecretKey)
    (r : CheckpointRequest) (unspent : List Utxo) (feeRate : FeeRate) :
    Outcome RpcError (GenCheckpointPsbt × List Signature) := do
  let sk ← configured X validator
  let g ← genCheckpointPsbt X σ τ db (X.xOnlyPublicKey sk) r unspent feeRate
  let signatures ← orInternal (signSpendPsbt C g.unsignedPsbt sk)
  return (g, signatures)

/-- The crate finds the control block of a leaf, which starts with the version of the leaf. -/
structure SpendLaws : Prop where
  controlBlock_leaf : ∀ script other, ∃ block,
    C.controlBlock (.branch (.leaf script) other) script = some block
  controlBlock_version : ∀ tree script block, C.controlBlock tree script = some block →
    ∃ b rest, block = b :: rest ∧ (b = 0xc0 ∨ b = 0xc1)

/-- The tree of a committee of a subnet, from its script. -/
def committeeTree (t : Txid20) (script : Script) : TapTree :=
  .branch (.leaf script) (.leaf (createUnspendableSubnetIdScript t))

/-- The signatures of the inputs after the sets are handed in. -/
def handedIn (keys : List WeightedKey) (p : Psbt)
    (signatures : List (XOnlyPublicKey × List Signature)) : List (TapScriptSigs H) :=
  insertSets (C.tapscriptLeafHash p.witnessScript)
    (sortPairs (keys.zip (keys.map (fun k => signaturesOf signatures k.1))))
    (List.replicate p.unsignedTx.input.length (fun _ => none))

/-- Every set is a member's. -/
def Recognized (keys : List WeightedKey) (signatures : List (XOnlyPublicKey × List Signature)) :
    Prop :=
  ∀ a ∈ signatures, a.1 ∈ keys.map Prod.fst

variable {C} {keys : List WeightedKey} {threshold : Power} {unspent : List Utxo} {p : Psbt}
  {signatures : List (XOnlyPublicKey × List Signature)} {t : Txid20} {tx : Transaction}

theorem finalizeWithSignatures_eq_ok (hp : SpendOf keys threshold unspent p) :
    finalizeWithSignatures C (.fromTxid20 t) keys threshold p signatures = .ok tx ↔
      Recognized keys signatures ∧ ∃ block,
        C.controlBlock (committeeTree t p.witnessScript) p.witnessScript = some block ∧
        extractTx C.toSpendCrate p ((handedIn C keys p signatures).map (inputWitness
          C.toSpendCrate (sortCommitteeKeys keys) p.witnessScript block)) = .ok tx := by
  have hknown : (∀ a ∈ signatures, keys.any (fun k => k.1 = a.1) = true) ↔
      Recognized keys signatures := by
    simp [Recognized]
  have hfrom : finalizeSpendPsbtFromSigs C.toSpendCrate (.fromTxid20 t) keys threshold
      (unsigned p) (keys.map (fun k => signaturesOf signatures k.1)) =
        finalizeSpendPsbt C.toSpendCrate (.fromTxid20 t) keys threshold
          ⟨p, handedIn C keys p signatures⟩ := by
    rw [finalizeSpendPsbtFromSigs, hp.script]
    rfl
  constructor
  · intro h
    obtain ⟨_, hall, h⟩ := bind_eq_ok.mp h
    have h := mapErr_eq_ok.mp h
    rw [hfrom] at h
    obtain ⟨id, block, hid, hblock, htx⟩ := (finalizeSpendPsbt_eq_ok hp.script).mp h
    rw [SubnetId.txid20_fromTxid20] at hid
    cases hid
    exact ⟨hknown.mp (ensure_eq_ok.mp hall), block, hblock, htx⟩
  · rintro ⟨hall, block, hblock, htx⟩
    refine bind_eq_ok.mpr ⟨(), ensure_pos (hknown.mpr hall), mapErr_eq_ok.mpr ?_⟩
    rw [hfrom]
    exact (finalizeSpendPsbt_eq_ok hp.script).mpr
      ⟨t, block, SubnetId.txid20_fromTxid20 t, hblock, htx⟩

/-- What an input holds after the sets are handed in. -/
theorem lookup_handedIn {i : Nat} (hi : i < p.unsignedTx.input.length) : ∃ sigs,
    (handedIn C keys p signatures)[i]? = some sigs ∧ ∀ k ∈ keys,
      sigs (k.1, C.tapscriptLeafHash p.witnessScript) = (signaturesOf signatures k.1)[i]? :=
  lookup_keyedSets _ keys (signaturesOf signatures) hi

theorem length_handedIn :
    (handedIn C keys p signatures).length = p.unsignedTx.input.length := by
  refine Nat.le_antisymm ?_ ?_
  · refine List.getElem?_eq_none_iff.mp (insertSets_none _ _ ?_)
    rw [List.getElem?_replicate, if_neg (lt_irrefl _)]
  · by_contra hlt
    obtain ⟨sigs, hsigs, -⟩ : ∃ sigs, (handedIn C keys p signatures)[_]? = some sigs ∧ _ :=
      lookup_handedIn (not_le.mp hlt)
    exact absurd (List.getElem?_eq_some_iff.mp hsigs).1 (lt_irrefl _)

/-- A finalized spend is the transaction that was signed, with the witnesses of its inputs. -/
structure FinalizedFrom (C : SigningCrate X H) (t : Txid20) (keys : List WeightedKey) (p : Psbt)
    (signatures : List (XOnlyPublicKey × List Signature)) (block : List UInt8)
    (tx : Transaction) : Prop where
  stripped : tx.stripped = p.unsignedTx
  revealed : C.controlBlock (committeeTree t p.witnessScript) p.witnessScript = some block
  input : ∀ i input, tx.input[i]? = some input → i < p.unsignedTx.input.length ∧
    ∃ sigs, (handedIn C keys p signatures)[i]? = some sigs ∧
      input.witness = inputWitness C.toSpendCrate (sortCommitteeKeys keys) p.witnessScript block
        sigs

theorem finalizedFrom_of_eq_ok (hp : SpendOf keys threshold unspent p)
    (h : finalizeWithSignatures C (.fromTxid20 t) keys threshold p signatures = .ok tx) :
    ∃ block, FinalizedFrom C t keys p signatures block tx := by
  obtain ⟨-, block, hblock, hextract⟩ := (finalizeWithSignatures_eq_ok hp).mp h
  obtain ⟨-, rfl⟩ := extractTx_eq_ok.mp hextract
  refine ⟨block, ?_, hblock, ?_⟩
  · have hinput : ((p.unsignedTx.input.zip ((handedIn C keys p signatures).map (inputWitness
        C.toSpendCrate (sortCommitteeKeys keys) p.witnessScript block))).map
          (fun x => { x.1 with witness := x.2 })).map (fun i => { i with witness := [] }) =
        p.unsignedTx.input := by
      rw [List.map_map]
      refine Eq.trans (List.map_congr_left (g := Prod.fst) ?_) (List.map_fst_zip ?_)
      · rintro ⟨i, w⟩ hiw
        have hbare := hp.bare i (List.of_mem_zip hiw).1
        rw [Function.comp_apply, ← hbare]
      · rw [List.length_map, length_handedIn]
    rw [Transaction.stripped]
    exact congrArg (fun inputs => { p.unsignedTx with input := inputs }) hinput
  · intro i input hinput
    rw [List.getElem?_map, Option.map_eq_some_iff] at hinput
    obtain ⟨⟨bare, w⟩, hzip, rfl⟩ := hinput
    obtain ⟨hbare, hw⟩ := List.getElem?_zip_eq_some.mp hzip
    rw [List.getElem?_map, Option.map_eq_some_iff] at hw
    obtain ⟨sigs, hsigs, rfl⟩ := hw
    exact ⟨(List.getElem?_eq_some_iff.mp hbare).1, sigs, hsigs, rfl⟩

/-- The members' power whose signature for an input is handed in. -/
def powerFor (keys : List WeightedKey) (signatures : List (XOnlyPublicKey × List Signature))
    (i : Nat) : Nat :=
  ((keys.filter (fun k => ((signaturesOf signatures k.1)[i]?).isSome)).map Prod.snd).sum

/-- The members fit on the stack, every signature that is handed in for an input verifies, and
for every input the power of those who sign it reaches the threshold. -/
structure Carried (C : SigningCrate X H) (keys : List WeightedKey) (threshold : Power) (p : Psbt)
    (signatures : List (XOnlyPublicKey × List Signature)) : Prop where
  small : keys.length ≤ maxCommitteeSize
  verify : ∀ i < p.unsignedTx.input.length, ∀ k ∈ keys, ∀ sig,
    (signaturesOf signatures k.1)[i]? = some sig →
      X.verifySchnorr sig (inputDigest C p i) k.1 = true
  power : ∀ i < p.unsignedTx.input.length, threshold ≤ powerFor keys signatures i

@[simp] theorem verifyItem_bytes (d : X.Digest) (sig : Signature) (k : XOnlyPublicKey) :
    verifyItem X d sig.bytes k.bytes = X.verifySchnorr sig d k := by
  simp [verifyItem]

/-- What the script makes of what an input holds. -/
theorem true_iff_of_handedIn {mature : Item → Bool} {i : Nat} {sigs : TapScriptSigs H}
    {block : List UInt8}
    (hp : SpendOf keys threshold unspent p) (hsum : (keys.map Prod.snd).sum < 2 ^ 31)
    (hi : i < p.unsignedTx.input.length)
    (hsigs : (handedIn C keys p signatures)[i]? = some sigs) :
    (∃ item, evaluateWitness (verifyItem X (inputDigest C p i)) mature (inputWitness C.toSpendCrate
        (sortCommitteeKeys keys) p.witnessScript block sigs) = some [item] ∧
        Tapscript.castToBool item = true) ↔
      keys.length ≤ maxCommitteeSize ∧ (∀ k ∈ keys, ∀ sig,
        (signaturesOf signatures k.1)[i]? = some sig →
          X.verifySchnorr sig (inputDigest C p i) k.1 = true) ∧
        threshold ≤ powerFor keys signatures i := by
  obtain ⟨sigs', hsigs', hlook⟩ : ∃ sigs', (handedIn C keys p signatures)[i]? = some sigs' ∧ _ :=
    lookup_handedIn hi
  obtain rfl : sigs = sigs' := Option.some.inj (hsigs.symm.trans hsigs')
  have hall : AllVerify (verifyItem X (inputDigest C p i))
      (C.tapscriptLeafHash p.witnessScript) keys sigs ↔ ∀ k ∈ keys, ∀ sig,
        (signaturesOf signatures k.1)[i]? = some sig →
          X.verifySchnorr sig (inputDigest C p i) k.1 = true := by
    refine forall₂_congr (fun k hk => ?_)
    simp only [hlook k hk, verifyItem_bytes]
  have hpower : signedPower (C.tapscriptLeafHash p.witnessScript) keys sigs =
      powerFor keys signatures i := by
    have hfilter : keys.filter (fun k =>
        (sigs (k.1, C.tapscriptLeafHash p.witnessScript)).isSome) =
          keys.filter (fun k => ((signaturesOf signatures k.1)[i]?).isSome) :=
      List.filter_congr (fun k hk => by rw [hlook k hk])
    rw [signedPower, hfilter, powerFor]
  rw [inputWitness_true_iff hp.script hsum, hall, hpower]

/-- The network accepts a finalized spend of the members' outputs exactly when the signatures
that were handed in carry it. -/
theorem authorised_iff_carried {mature : Nat → Item → Bool} {block : List UInt8}
    (hp : SpendOf keys threshold unspent p)
    (hfin : FinalizedFrom C t keys p signatures block tx)
    (hsum : (keys.map Prod.snd).sum < 2 ^ 31)
    (haddr : ∀ u ∈ unspent, u.scriptPubkey =
      (Address.p2tr (X.taprootOutputKey (committeeTree t p.witnessScript))).scriptPubkey) :
    Authorised C mature p.witnessUtxos tx ↔ Carried C keys threshold p signatures := by
  have hlen : tx.input.length = p.unsignedTx.input.length := by
    rw [← hfin.stripped]
    simp [Transaction.stripped]
  constructor
  · intro h
    have hinput : ∀ i < p.unsignedTx.input.length, keys.length ≤ maxCommitteeSize ∧
        (∀ k ∈ keys, ∀ sig, (signaturesOf signatures k.1)[i]? = some sig →
          X.verifySchnorr sig (inputDigest C p i) k.1 = true) ∧
        threshold ≤ powerFor keys signatures i := by
      intro i hi
      have hget : tx.input[i]? = some tx.input[i] := List.getElem?_eq_getElem (hlen ▸ hi)
      obtain ⟨-, -, tree, stack, script, block', item, hw, -, -, heval, htrue⟩ := h i _ hget
      obtain ⟨-, sigs, hsigs, hwitness⟩ := hfin.input i _ hget
      have hscript : script = p.witnessScript := by
        rw [hwitness, inputWitness] at hw
        have htail := (List.append_inj' hw rfl).2
        exact (List.cons.inj htail).1.symm
      rw [hscript, inputVerify, hfin.stripped, hwitness] at heval
      exact (true_iff_of_handedIn hp hsum hi hsigs).mp ⟨item, heval, htrue⟩
    have hpos : 0 < p.unsignedTx.input.length := List.length_pos_iff.mpr hp.nonempty
    exact ⟨(hinput 0 hpos).1, fun i hi => (hinput i hi).2.1, fun i hi => (hinput i hi).2.2⟩
  · intro h i input hget
    obtain ⟨hi, sigs, hsigs, hwitness⟩ := hfin.input i input hget
    obtain ⟨item, heval, htrue⟩ : ∃ item, evaluateWitness (verifyItem X (inputDigest C p i))
        (mature i) input.witness = some [item] ∧ Tapscript.castToBool item = true := by
      rw [hwitness]
      exact (true_iff_of_handedIn hp hsum hi hsigs).mpr ⟨h.small, h.verify i hi, h.power i hi⟩
    have hi' : i < p.witnessUtxos.length := hp.spent.length_eq ▸ hi
    obtain ⟨u, hu, -, hout⟩ := hp.spent.get hi hi'
    refine ⟨p.witnessUtxos[i], List.getElem?_eq_getElem hi', committeeTree t p.witnessScript, _,
      p.witnessScript, block, item, hwitness, hfin.revealed, ?_, ?_, htrue⟩
    · simp only [List.get_eq_getElem] at hout
      rw [hout]
      exact haddr u hu
    · rw [inputVerify, hfin.stripped]
      exact heval

end Finalize

end Provider
