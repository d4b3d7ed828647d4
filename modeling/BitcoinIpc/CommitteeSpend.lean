import BitcoinIpc.Handover

/-!
# Spends of the committee without a message

A member may ask its provider for a spend that pays any recipient from the
outputs of the committee. The answers of the members are finalized like those
for a checkpoint, but nothing in the transaction tells the monitor about it:
the outputs of the committee are spent, and no state of the subnet changes.
-/

namespace Provider

open Faults Bytes Chain Messages Crates Multisig MultisigSpend Db Monitor Commits Greedy

section Handlers

variable {X : Library} {H : Type} (C : SigningCrate X H)

/-- No entry is added to consolidate the outputs. -/
def genMultisigSpendPsbt (db : HeedDb) (validator : Option X.SecretKey) (id : SubnetId)
    (recipient : Address) (amount : Amount) (listed : List Utxo) (feeRate : FeeRate) :
    Outcome RpcError (Psbt × List Signature) := do
  let sk ← configured X validator
  let s ← readState X db id
  ensure (recipient.isValidForNetwork = true)
    (.invalidParams "Invalid address network, required \x7b\x7d")
  let committeeAddress ← s.committee.multisigAddress.requireNetwork
  let psbt ← orInternal (constructSpendPsbt X id s.committee.validatorWeightedKeys
    s.committee.threshold committeeAddress (getUnspentForAddress listed) false
    [⟨amount, recipient.scriptPubkey⟩] feeRate 0)
  let signatures ← orInternal (signSpendPsbt C psbt sk)
  return (psbt, signatures)

end Handlers

section Paid

variable {X : Library} {H : Type} [DecidableEq H] {C : SigningCrate X H}
  {db db' : HeedDb} {validator : Option X.SecretKey} {id : SubnetId} {recipient : Address}
  {amount : Amount} {listed : List Utxo} {feeRate : FeeRate} {p : Psbt}
  {signatures₀ : List Signature} {s s' : SubnetState} {keys : List WeightedKey}
  {threshold : Power} {a : Address} {out : TxOut}

omit [DecidableEq H] in
theorem genMultisigSpendPsbt_inv (hs : db.getSubnetState X id = some s)
    (h : genMultisigSpendPsbt C db validator id recipient amount listed feeRate =
      .ok (p, signatures₀)) :
    recipient.isValidForNetwork = true ∧
      constructSpendPsbt X id s.committee.validatorWeightedKeys s.committee.threshold
        s.committee.multisigAddress (getUnspentForAddress listed) false
        [⟨amount, recipient.scriptPubkey⟩] feeRate 0 = .ok p ∧
      ∃ sk, validator = some sk ∧ signSpendPsbt C p sk = .ok signatures₀ := by
  obtain ⟨sk, hsk, h⟩ := bind_eq_ok.mp h
  obtain ⟨s₁, hs₁, h⟩ := bind_eq_ok.mp h
  obtain rfl : s = s₁ := Option.some.inj (hs.symm.trans (okOr_eq_ok.mp hs₁))
  obtain ⟨_, hnetwork, h⟩ := bind_eq_ok.mp h
  obtain ⟨c, hc, h⟩ := bind_eq_ok.mp h
  obtain ⟨psbt, hpsbt, h⟩ := bind_eq_ok.mp h
  obtain ⟨sigs, hsigs, h⟩ := bind_eq_ok.mp h
  cases h
  obtain ⟨-, rfl⟩ := Address.requireNetwork_eq_ok.mp hc
  exact ⟨ensure_eq_ok.mp hnetwork, mapErr_eq_ok.mp hpsbt, sk, okOr_eq_ok.mp hsk,
    mapErr_eq_ok.mp hsigs⟩

/-- Some of the entries are spent, each once. They pay the output and the fee, and the rest goes
back to the address. -/
structure PaysOut (X : Library) (keys : List WeightedKey) (threshold : Power) (feeRate : FeeRate)
    (listed : List Utxo) (a : Address) (out : TxOut) (tx : Transaction) : Prop where
  once : (tx.input.map TxIn.previousOutput).Nodup
  pays : ∃ selected fee, selected.Subperm listed ∧
    SpendsTo X keys threshold feeRate false a [out] selected tx fee

theorem paysOut_of_constructSpendPsbt (hdistinct : (listed.map outpoint).Nodup)
    (h : constructSpendPsbt X id keys threshold a (getUnspentForAddress listed) false [out]
      feeRate 0 = .ok p) : PaysOut X keys threshold feeRate listed a out p.unsignedTx := by
  have hperm : (getUnspentForAddress listed).Perm listed := sortUtxos_perm listed
  have hnodup : ((getUnspentForAddress listed).map outpoint).Nodup :=
    (hperm.map outpoint).nodup_iff.mpr hdistinct
  obtain ⟨selected, fee, hsub, -, hspends⟩ :=
    exists_spendsTo (IpcCheckpointSubnetMsg.constructSpendPsbt_tx h)
  exact ⟨hspends.nodup hnodup hsub, selected, fee, hsub.trans hperm.subperm, hspends⟩

/-- Any provider of the committee submits the spend with the signatures of members, and with these
only. It pays the recipient from outputs of the committee and returns what is left, the network
accepts it exactly when the signatures carry it, and no run of the monitor notices it, unless the
recipient is a witness program as long as the data of a stake. -/
theorem committee_spend_unnoticed (laws : DisplayLaws X) (hC : SpendLaws C)
    (hreach : Reachable X db)
    (hgen : genMultisigSpendPsbt C db validator id recipient amount listed feeRate =
      .ok (p, signatures₀))
    (hs : db.getSubnetState X id = some s) (hs' : db'.getSubnetState X id = some s')
    (hsame : s'.committee = s.committee)
    (hlisted : ∀ u ∈ listed, u.scriptPubkey = s.committee.multisigAddress.scriptPubkey)
    (hdistinct : (listed.map outpoint).Nodup)
    (signatures : List (XOnlyPublicKey × List Signature)) :
    ((∃ txs, finalizeCheckpointPsbt C db' id p signatures none = .ok txs) ↔
      Recognized s.committee.validatorWeightedKeys signatures ∧ ∃ t, id = .fromTxid20 t ∧
        FeeAccepted C t s.committee.validatorWeightedKeys p signatures) ∧
    ∀ txs, finalizeCheckpointPsbt C db' id p signatures none = .ok txs → ∃ tx, txs = [tx] ∧
      PaysOut X s.committee.validatorWeightedKeys s.committee.threshold feeRate listed
        s.committee.multisigAddress ⟨amount, recipient.scriptPubkey⟩ tx ∧
      (∀ mature, Authorised C mature p.witnessUtxos tx ↔
        Carried C s.committee.validatorWeightedKeys s.committee.threshold p signatures) ∧
      (recipient.scriptPubkey.length ≠ 40 →
        (∀ a ∈ signatures, ∀ sig ∈ a.2, NoMessage sig.bytes) → ∀ cfg ctx db,
          processTransaction X cfg ctx tx db = (pure () : MonitorProc Unit) db) := by
  obtain ⟨-, hpsbt, -⟩ := genMultisigSpendPsbt_inv hs hgen
  have hpays := paysOut_of_constructSpendPsbt hdistinct hpsbt
  obtain ⟨hexists, hall⟩ := finalized_spend_iff laws hC hreach hs hs' hsame
    (spendOf_constructSpendPsbt hpsbt)
    (fun u hu => hlisted u ((sortUtxos_perm listed).mem_iff.mp hu)) signatures none
  refine ⟨hexists, fun txs htxs => ?_⟩
  obtain ⟨tx, htx, hstripped, hspends, hplain⟩ := hall txs htxs
  obtain ⟨hinputs, hout⟩ := same_of_stripped hstripped
  obtain ⟨selected, fee, hsub, hpaid⟩ := hpays.pays
  have houtput := hout.trans hpaid.outputs
  refine ⟨tx, htx, ⟨hinputs ▸ hpays.once, selected, fee, hsub, hinputs.trans hpaid.inputs,
    hpaid.fee_eq, hpaid.covered, houtput⟩, hspends, fun hlength hsigs cfg ctx db => ?_⟩
  exact processTransaction_of_noData cfg ctx (hplain hsigs) (noData_of_pays houtput hlength) db

end Paid

section Single

open Solo

def soloSpend : Outcome RpcError (Psbt × List Signature) :=
  genMultisigSpendPsbt stampCrate joinedDb (some key) (.fromTxid20 subnet) backup 5000 [memberCoin]
    1000

/-- The only member pays from the outputs of its subnet, and the monitor does not notice it. -/
theorem solo_spend_unnoticed : ∃ (p : Psbt) (sigs : List Signature) (s : SubnetState)
    (tx : Transaction), soloSpend = .ok (p, sigs) ∧
    joinedDb.getSubnetState stampLibrary (.fromTxid20 subnet) = some s ∧
    finalizeCheckpointPsbt stampCrate joinedDb (.fromTxid20 subnet) p [(key, sigs)] none =
      .ok [tx] ∧
    PaysOut stampLibrary s.committee.validatorWeightedKeys s.committee.threshold 1000 [memberCoin]
      s.committee.multisigAddress ⟨5000, backup.scriptPubkey⟩ tx ∧
    (∀ mature, Authorised stampCrate mature p.witnessUtxos tx) ∧
    processTransaction stampLibrary ⟨none⟩ context tx joinedDb =
      (pure () : MonitorProc Unit) joinedDb := by
  have hplain : soloSpend.toOption.any (fun a => decide (∀ sig ∈ a.2, NoMessage sig.bytes)) =
      true := by
    decide +kernel
  obtain ⟨⟨p, sigs⟩, hgen, hplain⟩ := (Option.any_eq_true _ _).mp hplain
  have hgen := toOption_eq_some.mp hgen
  obtain ⟨s, hs⟩ := Option.isSome_iff_exists.mp (by decide +kernel :
    (joinedDb.getSubnetState stampLibrary (.fromTxid20 subnet)).isSome = true)
  have hmember : (joinedDb.getSubnetState stampLibrary (.fromTxid20 subnet)).all (fun s =>
      decide (s.committee.validatorWeightedKeys.map Prod.fst = [key] ∧
        s.committee.validatorWeightedKeys.length ≤ maxCommitteeSize ∧ s.committee.threshold ≤
          signersPower s.committee.validatorWeightedKeys {key})) = true := by
    decide +kernel
  rw [hs, Option.all_some, decide_eq_true_iff] at hmember
  obtain ⟨hkeys, hpower⟩ := hmember
  have hcoin : ∀ u ∈ [memberCoin],
      u.scriptPubkey = s.committee.multisigAddress.scriptPubkey := by
    intro u hu
    rw [List.mem_singleton.mp hu, memberCoin, hs]
    rfl
  obtain ⟨hfinal, hspends⟩ := committee_spend_unnoticed displayLaws_stamp spendLaws_stamp
    (reachable_run _) hgen hs hs rfl hcoin (List.nodup_singleton _) [(key, sigs)]
  have hknown : Recognized s.committee.validatorWeightedKeys [(key, sigs)] := by
    intro a ha
    rw [List.mem_singleton.mp ha, hkeys]
    exact List.mem_singleton_self key
  obtain ⟨txs, htxs⟩ := hfinal.mpr ⟨hknown, subnet, rfl, fun _ _ => rfl⟩
  obtain ⟨tx, rfl, hpays, haccepted, hunnoticed⟩ := hspends txs htxs
  obtain ⟨-, hpsbt, sk, hsk, hsigned⟩ := genMultisigSpendPsbt_inv hs hgen
  cases hsk
  have hset : ∀ a ∈ [(key, sigs)], SignedSet stampCrate p a := by
    intro a ha
    rw [List.mem_singleton.mp ha]
    exact ⟨key, rfl, hsigned⟩
  have hnone : ∀ a ∈ [(key, sigs)], ∀ sig ∈ a.2, NoMessage sig.bytes := by
    intro a ha
    rw [List.mem_singleton.mp ha]
    exact of_decide_eq_true hplain
  have hcarried := (carried_of_signed schnorrLaws_stamp (spendOf_constructSpendPsbt hpsbt)
    hset).mpr hpower
  exact ⟨p, sigs, s, tx, hgen, hs, htxs, hpays, fun mature => (haccepted mature).mpr hcarried,
    hunnoticed (by decide) hnone ⟨none⟩ context joinedDb⟩

end Single

end Provider
