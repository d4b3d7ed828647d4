import BitcoinIpc.CheckpointLayout
import BitcoinIpc.IdealCrates

/-!
# The reveal of a batch

The builder puts the commit output right after the withdrawals. The reveal
computes its place from the lengths of the lists, and counts the unstakes
before it. The two places are the same exactly when there are no unstakes.
-/

namespace Messages

open Faults Bytes Chain Crates Multisig Db Grouping

namespace IpcCheckpointSubnetMsg

variable {X : Library} {m : IpcCheckpointSubnetMsg} {σ : MapOrders}

/-- What the reveal `r` of a checkpoint transaction must do: spend the commit output,
whose value covers the output of the reveal and its fee. -/
def SpendsCoveringCommit (X : Library) (m : IpcCheckpointSubnetMsg) (σ : MapOrders)
    (feeRate : FeeRate) (returnAddress : Address) (tx r : Transaction) : Prop :=
  ∃ commit witness out, m.makeBatchedTransfer X σ feeRate returnAddress =
      .ok (commit, witness, out) ∧
    (∃ i, r.input[0]? = some i ∧ tx.output[i.previousOutput.vout]? = some commit) ∧
    ∃ fee, X.feeWu feeRate (X.weight r) = some fee ∧
      (r.output.map (·.value)).sum + fee ≤ commit.value

/-- No unstake and no transfer is paid to the script of the commit output. -/
def CommitUnpaid (X : Library) (m : IpcCheckpointSubnetMsg) (σ : MapOrders) : Prop :=
  ∀ data, m.makeBatchedTransferData X σ = .ok data →
    (∀ u ∈ m.unstakes, u.address.scriptPubkey ≠ commitScriptOf X data) ∧
    ∀ t ∈ m.transfers, ∀ a ∈ t.subnetMultisigAddress, a.scriptPubkey ≠ commitScriptOf X data

theorem weight_revealTransaction (hX : WeightLaws X) (p q : OutPoint)
    (witness : List (List UInt8)) (out : TxOut) :
    X.weight (revealTransaction p witness out) = X.weight (revealTransaction q witness out) :=
  hX.weight_outpoints (revealTransaction q witness out) (fun _ => p)

theorem commit_covers (hX : WeightLaws X) {feeRate : FeeRate} {a : Address} {commit out : TxOut}
    {witness : List (List UInt8)}
    (h : m.makeBatchedTransfer X σ feeRate a = .ok (commit, witness, out)) (p : OutPoint) :
    ∃ fee, X.feeWu feeRate (X.weight (revealTransaction p witness out)) = some fee ∧
      out.value + fee ≤ commit.value := by
  obtain ⟨data, -, h⟩ := bind_eq_ok.mp h
  obtain ⟨fee, hfee, h⟩ := bind_eq_ok.mp h
  obtain ⟨cost, hcost, h⟩ := bind_eq_ok.mp h
  obtain ⟨-, rfl⟩ := addAmount_eq_ok.mp hcost
  cases h
  refine ⟨fee, ?_, le_max_right _ _⟩
  rw [weight_revealTransaction hX p ⟨FixedBytes.zeros 32, 0⟩]
  exact okOr_eq_ok.mp hfee

/-- The reveal spends the output the source computes, with the witness and the output
made for the batch. -/
theorem makeRevealBatchTransferTx_eq_ok {txid : Txid} {feeRate : FeeRate} {a : Address}
    {r : Transaction} (h : m.makeRevealBatchTransferTx X σ txid feeRate a = .ok (some r)) :
    m.hasBatch = true ∧ ∃ commit witness out,
      m.makeBatchedTransfer X σ feeRate a = .ok (commit, witness, out) ∧
      r = revealTransaction ⟨txid, 1 + m.withdrawals.length + m.unstakes.length⟩ witness out := by
  unfold makeRevealBatchTransferTx batchTransferCommitOutpoint at h
  by_cases hb : m.hasBatch = true
  · rw [if_pos hb, if_pos hb] at h
    obtain ⟨p, hp, h⟩ := bind_eq_ok.mp h
    obtain ⟨⟨commit, witness, out⟩, hmade, h⟩ := bind_eq_ok.mp h
    cases hp
    cases h
    exact ⟨hb, commit, witness, out, hmade, rfl⟩
  · rw [if_neg hb] at h
    cases h

/-- A destination is paid at the address of one of its transfers. -/
theorem scriptPubkey_of_destinationOutput {l : List IpcCrossSubnetTransfer}
    {entries : List (Txid20 × Amount × Address)} {dests : List TxOut} {o : TxOut}
    (hentries : transferEntries [] l = .ok entries)
    (hdests : traverseList destinationOutput (grouped σ.outputs entries) =
      (.ok dests : Outcome IpcLibError (List TxOut)))
    (ho : o ∈ dests) : ∃ t ∈ l, ∃ a, t.subnetMultisigAddress = some a ∧
      o.scriptPubkey = a.scriptPubkey := by
  obtain ⟨e, he, hpay⟩ := exists_of_forall₂ (traverse_eq_ok.mp hdests) ho
  obtain ⟨first, hfirst, hpay⟩ := bind_eq_ok.mp hpay
  obtain ⟨-, rfl⟩ := payment_eq_ok.mp hpay
  obtain ⟨k, -, rfl⟩ := List.mem_map.mp he
  obtain ⟨x, hx, rfl⟩ := List.mem_map.mp (List.mem_of_getElem? (index_eq_ok.mp hfirst))
  obtain ⟨new, hnew, hrel⟩ := transferEntries_eq_ok hentries
  rw [List.nil_append] at hnew
  subst hnew
  obtain ⟨t, ht, -, -, ha⟩ := exists_of_forall₂ hrel (List.mem_of_mem_filter hx)
  exact ⟨t, ht, x.2.2, ha, rfl⟩

/-- The batch starts with the commit output; the destinations after it are paid at the
addresses of the transfers. -/
theorem batchOutputs_of_hasBatch {committee : SubnetCommittee} {feeRate : FeeRate}
    {batch : List TxOut} (hb : m.hasBatch = true)
    (h : m.batchOutputs X σ committee feeRate = .ok batch) :
    ∃ commit witness out dests,
      m.makeBatchedTransfer X σ feeRate committee.multisigAddress = .ok (commit, witness, out) ∧
      batch = commit :: dests ∧ ∀ o ∈ dests, ∃ t ∈ m.transfers, ∃ a,
        t.subnetMultisigAddress = some a ∧ o.scriptPubkey = a.scriptPubkey := by
  unfold batchOutputs at h
  rw [if_pos hb] at h
  obtain ⟨a, ha, h⟩ := bind_eq_ok.mp h
  obtain ⟨⟨commit, witness, out⟩, hmade, h⟩ := bind_eq_ok.mp h
  obtain ⟨entries, hentries, h⟩ := bind_eq_ok.mp h
  obtain ⟨dests, hdests, h⟩ := bind_eq_ok.mp h
  cases h
  obtain ⟨-, rfl⟩ := Address.requireNetwork_eq_ok.mp ha
  exact ⟨commit, witness, out, dests, hmade, rfl,
    fun o ho => scriptPubkey_of_destinationOutput hentries hdests ho⟩

/-- The outputs after the metadata and the withdrawals. -/
theorem getElem?_after_withdrawals {first : TxOut} {ws rest : List TxOut} {w u : Nat}
    (hw : ws.length = w) : (first :: (ws ++ rest))[1 + w + u]? = rest[u]? := by
  subst hw
  rw [show 1 + ws.length + u = (ws.length + u) + 1 by omega, List.getElem?_cons_succ,
    List.getElem?_append_right (by omega), Nat.add_sub_cancel_left]

/-- With unstakes the reveal finds a destination or an unstake, not the commit output. -/
theorem commit_not_after {feeRate : FeeRate} {a : Address} {commit out : TxOut}
    {witness : List (List UInt8)} {dests us : List TxOut} {change : Option TxOut}
    (hun : CommitUnpaid X m σ)
    (hmade : m.makeBatchedTransfer X σ feeRate a = .ok (commit, witness, out))
    (hdests : ∀ o ∈ dests, ∃ t ∈ m.transfers, ∃ a, t.subnetMultisigAddress = some a ∧
      o.scriptPubkey = a.scriptPubkey)
    (hraised : Raised (m.unstakes.map unstakeOut) us) (hne : m.unstakes ≠ []) :
    (commit :: (dests ++ us) ++ change.toList)[m.unstakes.length]? ≠ some commit := by
  intro hat
  have hlen : us.length = m.unstakes.length := by
    rw [← hraised.length_eq, List.length_map]
  have hpos : 0 < m.unstakes.length := List.length_pos_iff.mpr hne
  obtain ⟨data, hdata, hscript, -⟩ := makeBatchedTransfer_eq_ok hmade
  obtain ⟨hunstakes, htransfers⟩ := hun data hdata
  have hmem : commit ∈ dests ++ us := by
    obtain ⟨k, hk⟩ : ∃ k, m.unstakes.length = k + 1 := ⟨m.unstakes.length - 1, by omega⟩
    rw [hk, List.cons_append, List.getElem?_cons_succ,
      List.getElem?_append_left (by rw [List.length_append]; omega)] at hat
    exact List.mem_of_getElem? hat
  rcases List.mem_append.mp hmem with hd | hu
  · obtain ⟨t, ht, b, hb, hpay⟩ := hdests commit hd
    exact htransfers t ht b hb (hpay.symm.trans hscript)
  · obtain ⟨o, ho, hpay, -⟩ := exists_of_forall₂ hraised hu
    obtain ⟨u, hu, rfl⟩ := List.mem_map.mp ho
    exact hunstakes u hu (hpay.symm.trans hscript)

section Reveal

variable {committee next : SubnetCommittee} {feeRate : FeeRate} {unspent : List Utxo}
  {psbt : Psbt} {r : Transaction}

/-- The reveal of a checkpoint spends its commit output exactly when the checkpoint has
no unstakes. -/
theorem reveal_spends_commit_iff (hX : WeightLaws X) (hun : CommitUnpaid X m σ)
    (hpsbt : m.toCheckpointPsbt X σ committee next feeRate unspent = .ok psbt)
    (hr : m.makeRevealBatchTransferTx X σ (X.computeTxid psbt.unsignedTx) feeRate
      committee.multisigAddress = .ok (some r)) :
    SpendsCoveringCommit X m σ feeRate committee.multisigAddress psbt.unsignedTx r ↔
      m.unstakes = [] := by
  obtain ⟨hb, commit, witness, out, hmade, rfl⟩ := makeRevealBatchTransferTx_eq_ok hr
  obtain ⟨id, batch, us, change, -, hbatch, hraised, -, -, -, -, hout⟩ :=
    layout_of_toCheckpointPsbt hpsbt
  obtain ⟨commit', witness', out', dests, hmade', rfl, hdests⟩ := batchOutputs_of_hasBatch hb hbatch
  obtain ⟨rfl, rfl, rfl⟩ : commit' = commit ∧ witness' = witness ∧ out' = out := by
    rw [hmade] at hmade'
    cases hmade'
    exact ⟨rfl, rfl, rfl⟩
  have hat : psbt.unsignedTx.output[1 + m.withdrawals.length + m.unstakes.length]? =
      (commit' :: (dests ++ us) ++ change.toList)[m.unstakes.length]? := by
    rw [hout, getElem?_after_withdrawals (List.length_map _)]
    rfl
  constructor
  · rintro ⟨c, w, o, hc, ⟨i, hi, hvout⟩, -⟩
    rw [hmade] at hc
    cases hc
    cases hi
    have hcommit := hat.symm.trans hvout
    by_contra hne
    exact commit_not_after hun hmade hdests hraised hne hcommit
  · intro hnil
    refine ⟨commit', witness', out', hmade, ⟨_, rfl, ?_⟩, ?_⟩
    · refine Eq.trans hat ?_
      rw [hnil]
      rfl
    · obtain ⟨fee, hfee, hle⟩ := commit_covers hX hmade
        ⟨X.computeTxid psbt.unsignedTx, 1 + m.withdrawals.length + m.unstakes.length⟩
      exact ⟨fee, hfee, hle⟩

end Reveal

open Solo

/-- The reveal of a checkpoint with one withdrawal and one transfer. -/
def payingReveal (unstakes : List IpcUnstake) : Outcome IpcLibError (Option Transaction) := do
  let psbt ← payingPsbt listedOrders [neighbour] unstakes
  (payingCheckpoint [neighbour] unstakes).makeRevealBatchTransferTx transferLibrary listedOrders
    (transferLibrary.computeTxid psbt.unsignedTx) 1000 (Solo.committee 10).multisigAddress

theorem transfer_commitUnpaid :
    CommitUnpaid transferLibrary (payingCheckpoint [neighbour] []) listedOrders := by
  intro data hdata
  have hall : ((payingCheckpoint [neighbour] []).makeBatchedTransferData transferLibrary
      listedOrders).toOption.all (fun data => (payingCheckpoint [neighbour] []).transfers.all
        (fun t => t.subnetMultisigAddress.all (fun a =>
          a.scriptPubkey ≠ commitScriptOf transferLibrary data))) = true := by
    decide +kernel
  rw [toOption_eq_some.mpr hdata, Option.all_some] at hall
  constructor
  · intro u hu
    cases hu
  · intro t ht a ha
    have hone := List.all_eq_true.mp hall t ht
    rw [ha, Option.all_some] at hone
    exact of_decide_eq_true hone

theorem exists_payingReveal {unstakes : List IpcUnstake}
    (h : (payingReveal unstakes).toOption.join.isSome = true) :
    ∃ r, payingReveal unstakes = .ok (some r) := by
  obtain ⟨r, hr⟩ := Option.isSome_iff_exists.mp h
  exact ⟨r, toOption_eq_some.mp (Option.join_eq_some_iff.mp hr)⟩

/-- Without unstakes the reveal spends the commit output. -/
theorem transfer_reveal_spends_commit : ∃ psbt r,
    payingPsbt listedOrders [neighbour] [] = .ok psbt ∧ payingReveal [] = .ok (some r) ∧
    SpendsCoveringCommit transferLibrary (payingCheckpoint [neighbour] []) listedOrders 1000
      (Solo.committee 10).multisigAddress psbt.unsignedTx r := by
  obtain ⟨psbt, hpsbt⟩ := exists_ok_of_isSome
    (by decide +kernel : (payingPsbt listedOrders [neighbour] []).toOption.isSome = true)
  obtain ⟨r, hr⟩ := exists_payingReveal
    (by decide +kernel : (payingReveal []).toOption.join.isSome = true)
  refine ⟨psbt, r, hpsbt, hr, (reveal_spends_commit_iff (weightLaws_ideal _)
    transfer_commitUnpaid hpsbt ?_).mpr rfl⟩
  rw [payingReveal, hpsbt, ok_bind] at hr
  exact hr

/-- An unstake of the validator. -/
def validatorUnstake : IpcUnstake := ⟨20000, backup, key⟩

/-- With an unstake the reveal spends the output of the destination. -/
theorem unstake_moves_reveal :
    ¬ ∀ (X : Library) (m : IpcCheckpointSubnetMsg) (σ : MapOrders)
      (committee next : SubnetCommittee) (feeRate : FeeRate) (unspent : List Utxo) (psbt : Psbt)
      (r : Transaction), WeightLaws X → m.hasBatch = true →
      m.toCheckpointPsbt X σ committee next feeRate unspent = .ok psbt →
      m.makeRevealBatchTransferTx X σ (X.computeTxid psbt.unsignedTx) feeRate
        committee.multisigAddress = .ok (some r) →
      SpendsCoveringCommit X m σ feeRate committee.multisigAddress psbt.unsignedTx r := by
  intro hall
  obtain ⟨psbt, hpsbt⟩ := exists_ok_of_isSome (by decide +kernel :
    (payingPsbt listedOrders [neighbour] [validatorUnstake]).toOption.isSome = true)
  obtain ⟨r, hr⟩ := exists_payingReveal
    (by decide +kernel : (payingReveal [validatorUnstake]).toOption.join.isSome = true)
  have hr' := hr
  rw [payingReveal, hpsbt, ok_bind] at hr'
  obtain ⟨commit, witness, out, hmade, ⟨i, hi, hat⟩, -⟩ := hall transferLibrary
    (payingCheckpoint [neighbour] [validatorUnstake]) listedOrders (Solo.committee 10)
    (Solo.committee 10) 1000 [coin] psbt r (weightLaws_ideal _) rfl hpsbt hr'
  have hcheck : (payingPsbt listedOrders [neighbour] [validatorUnstake]).toOption.all (fun p =>
      (payingReveal [validatorUnstake]).toOption.join.all (fun r => r.input[0]?.all (fun i =>
        ((payingCheckpoint [neighbour] [validatorUnstake]).makeBatchedTransfer transferLibrary
          listedOrders 1000 (Solo.committee 10).multisigAddress).toOption.all (fun made =>
            p.unsignedTx.output[i.previousOutput.vout]? ≠ some made.1)))) = true := by
    decide +kernel
  rw [toOption_eq_some.mpr hpsbt, Option.all_some, toOption_eq_some.mpr hr, Option.join_some,
    Option.all_some, hi, Option.all_some, toOption_eq_some.mpr hmade, Option.all_some,
    decide_eq_true_iff] at hcheck
  exact hcheck hat

end IpcCheckpointSubnetMsg

end Messages
