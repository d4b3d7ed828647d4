import BitcoinIpc.CheckpointLayout
import BitcoinIpc.CoinSelection

/-!
# The payout of a kill checkpoint

A kill checkpoint spends every output of the committee. The change of a first
construction is shared among the unstakes, and the transaction is built again.
The change is looked up as the first output that pays the address of the next
committee. The whole change is paid out exactly when that output is the change,
or is worth as much.
-/

namespace Multisig

open Faults Bytes Chain Messages Crates Greedy

/-- The weight of a transaction does not depend on the values of its outputs. -/
structure OutputWeightLaws (X : Library) : Prop where
  weight_values : ∀ inputs outs outs', outs.map TxOut.scriptPubkey = outs'.map TxOut.scriptPubkey →
    X.weight (spendTransaction inputs outs) = X.weight (spendTransaction inputs outs')

theorem valueOf_append (l l' : List TxOut) : valueOf (l ++ l') = valueOf l + valueOf l' := by
  rw [valueOf, List.map_append, List.sum_append]
  rfl

theorem valueOf_cons (o : TxOut) (l : List TxOut) : valueOf (o :: l) = o.value + valueOf l := rfl

section Sweep

variable {X : Library} {size : Nat} {changeAddress : Address} {unspent : List Utxo}
  {txOuts txOuts' : List TxOut} {feeRate : FeeRate} {tx : Transaction}

/-- The fee depends on the scripts that are paid alone. -/
theorem sweepFee_congr (hweight : OutputWeightLaws X)
    (h : txOuts.map TxOut.scriptPubkey = txOuts'.map TxOut.scriptPubkey) :
    sweepFee X size changeAddress unspent txOuts feeRate =
      sweepFee X size changeAddress unspent txOuts' feeRate := by
  rw [sweepFee, sweepFee, hweight.weight_values _ (txOuts ++ _) (txOuts' ++ _)]
  rw [List.map_append, List.map_append, h]

theorem changeOf_zero : changeOf X changeAddress 0 = none := if_neg (Nat.not_lt_zero _)

theorem changeOf_eq {rest : Amount} {c : TxOut} (h : changeOf X changeAddress rest = some c) :
    0 < rest ∧ c = ⟨rest, changeAddress.scriptPubkey⟩ := by
  unfold changeOf at h
  split_ifs at h with hdust
  cases h
  exact ⟨lt_of_le_of_lt (Nat.zero_le _) hdust, rfl⟩

end Sweep

end Multisig

namespace Messages

open Faults Bytes Chain Crates Multisig Db Greedy

namespace IpcCheckpointSubnetMsg

variable {X : Library} {m : IpcCheckpointSubnetMsg}

section Shares

variable {change total : Amount}

/-- The outputs pay the same scripts and, together, the part of the change that was left. -/
theorem shareChange_eq_ok {us : List IpcUnstake} {os os' : List TxOut} {distributed : Amount}
    (hlen : us.length = os.length) (hne : us ≠ [])
    (h : shareChange change total distributed us os = .ok os') :
    os'.map TxOut.scriptPubkey = os.map TxOut.scriptPubkey ∧
      valueOf os' + distributed = valueOf os + change := by
  induction us generalizing distributed os os' with
  | nil => exact absurd rfl hne
  | cons u us ih =>
    obtain ⟨o, rest, rfl⟩ := List.exists_cons_of_length_eq_add_one hlen.symm
    cases us with
    | nil =>
      obtain ⟨a, ha, h₁⟩ := bind_eq_ok.mp h
      obtain ⟨v, hv, h₂⟩ := bind_eq_ok.mp h₁
      obtain ⟨-, hv⟩ := addAmount_eq_ok.mp hv
      obtain ⟨hle, ha⟩ := subAmount_eq_ok.mp ha
      obtain rfl : rest = [] := List.length_eq_zero_iff.mp (by simpa using hlen.symm)
      rw [← Except.ok.inj h₂]
      refine ⟨rfl, ?_⟩
      rw [valueOf_cons, valueOf_cons, ← hv, ← ha]
      calc o.value + (change - distributed) + valueOf [] + distributed
          = o.value + valueOf [] + (change - distributed + distributed) := by ac_rfl
        _ = o.value + valueOf [] + change := by rw [Nat.sub_add_cancel hle]
    | cons u' us =>
      obtain ⟨v, hv, h₁⟩ := bind_eq_ok.mp h
      obtain ⟨d, hd, h₂⟩ := bind_eq_ok.mp h₁
      obtain ⟨os, hos, h₃⟩ := bind_eq_ok.mp h₂
      obtain ⟨-, hv⟩ := addAmount_eq_ok.mp hv
      obtain ⟨-, hd⟩ := addAmount_eq_ok.mp hd
      obtain ⟨hscripts, hvalue⟩ := ih (by simpa using hlen) (List.cons_ne_nil _ _) hos
      rw [← Except.ok.inj h₃]
      refine ⟨by rw [List.map_cons, List.map_cons, hscripts], ?_⟩
      rw [← hd] at hvalue
      rw [valueOf_cons, valueOf_cons, ← hv]
      dsimp only
      omega

/-- The shares that a split gives to all unstakes but the last. -/
def sharesBeforeLast (change total : Amount) (us : List IpcUnstake) : Nat :=
  (us.dropLast.map (fun u => killShare change u.amount total)).sum

/-- The roundings of the shares never give away more than there is: the last unstake gets what is
left of any change of at most `2 ^ 51`, which is more than there are satoshis. -/
theorem sharesBeforeLast_le_change {us : List IpcUnstake} (hchange : 4 * change ≤ 2 ^ 53)
    (htotal : (us.map IpcUnstake.amount).sum < 2 ^ 53) :
    sharesBeforeLast change (us.map IpcUnstake.amount).sum us ≤ change := by
  have hshares : (us.dropLast.map IpcUnstake.amount).sum ≤ (us.map IpcUnstake.amount).sum :=
    ((List.dropLast_sublist us).map _).sum_le_sum (fun _ _ => Nat.zero_le _)
  have hsum : ((us.dropLast.map IpcUnstake.amount).map (fun share => Doubles.proportional 53
      amountBound change share (us.map IpcUnstake.amount).sum)).sum ≤ change :=
    Doubles.sum_proportional_le hchange htotal hshares
  rw [List.map_map] at hsum
  exact hsum

/-- Shares whose sums stay below the change are paid. -/
theorem exists_shareChange {us : List IpcUnstake} {os : List TxOut} {distributed : Amount}
    (hlen : us.length = os.length) (hne : us ≠ [])
    (hsplit : distributed + sharesBeforeLast change total us ≤ change)
    (hbound : valueOf os + change < amountBound) :
    ∃ os', shareChange change total distributed us os = .ok os' := by
  induction us generalizing distributed os with
  | nil => exact absurd rfl hne
  | cons u us ih =>
    obtain ⟨o, rest, rfl⟩ := List.exists_cons_of_length_eq_add_one hlen.symm
    rw [valueOf_cons] at hbound
    cases us with
    | nil =>
      have hle : distributed ≤ change := le_trans (Nat.le_add_right _ _) hsplit
      have hadd : o.value + (change - distributed) < amountBound :=
        lt_of_le_of_lt (Nat.add_le_add (Nat.le_add_right _ _) (Nat.sub_le _ _)) hbound
      exact ⟨_, bind_eq_ok.mpr ⟨_, subAmount_eq_ok.mpr ⟨hle, rfl⟩,
        bind_eq_ok.mpr ⟨_, addAmount_eq_ok.mpr ⟨hadd, rfl⟩, rfl⟩⟩⟩
    | cons u' us =>
      have hshares : sharesBeforeLast change total (u :: u' :: us) =
          killShare change u.amount total + sharesBeforeLast change total (u' :: us) := rfl
      rw [hshares] at hsplit
      have hsplit' : (distributed + killShare change u.amount total : Nat) +
          sharesBeforeLast change total (u' :: us) ≤ change := by
        rw [Nat.add_assoc]
        exact hsplit
      have hshare : killShare change u.amount total ≤ change :=
        le_trans (Nat.le_add_left _ _) (le_trans (Nat.le_add_right _ _) hsplit')
      have hadd : o.value + killShare change u.amount total < amountBound :=
        lt_of_le_of_lt (Nat.add_le_add (Nat.le_add_right _ _) hshare) hbound
      have hadd' : distributed + killShare change u.amount total < amountBound :=
        lt_of_le_of_lt (le_trans (Nat.le_add_right _ _) hsplit')
          (lt_of_le_of_lt (Nat.le_add_left _ _) hbound)
      have hrest : valueOf rest + change < amountBound :=
        lt_of_le_of_lt (Nat.add_le_add_right (Nat.le_add_left _ _) _) hbound
      obtain ⟨os', hos'⟩ := ih (by simpa using hlen) (List.cons_ne_nil _ _) hsplit' hrest
      exact ⟨_, bind_eq_ok.mpr ⟨_, addAmount_eq_ok.mpr ⟨hadd, rfl⟩,
        bind_eq_ok.mpr ⟨_, addAmount_eq_ok.mpr ⟨hadd', rfl⟩, bind_eq_ok.mpr ⟨os', hos', rfl⟩⟩⟩⟩

variable {front us outs : List TxOut}

theorem redistribute_start (hlen : us.length = m.unstakes.length) :
    (front ++ us).length - m.unstakes.length = front.length := by
  rw [List.length_append]
  omega

theorem redistribute_values (hlen : us.length = m.unstakes.length) (hne : m.unstakes ≠ [])
    (hpos : 0 < (m.unstakes.map IpcUnstake.amount).sum)
    (h : m.redistribute change (front ++ us) = .ok outs) :
    ∃ us', outs = front ++ us' ∧ us'.map TxOut.scriptPubkey = us.map TxOut.scriptPubkey ∧
      valueOf us' = valueOf us + change := by
  obtain ⟨total, htotal, h₁⟩ := bind_eq_ok.mp h
  obtain ⟨-, rfl⟩ := sumAmounts_eq_ok.mp htotal
  dsimp only at h₁
  rw [if_pos hpos] at h₁
  obtain ⟨shared, hshared, h₂⟩ := bind_eq_ok.mp h₁
  rw [redistribute_start hlen, List.drop_left] at hshared
  rw [redistribute_start hlen, List.take_left] at h₂
  obtain ⟨hscripts, hvalue⟩ := shareChange_eq_ok hlen.symm hne hshared
  exact ⟨shared, (Except.ok.inj h₂).symm, hscripts, hvalue⟩

theorem exists_redistributed (hlen : us.length = m.unstakes.length) (hne : m.unstakes ≠ [])
    (hsum : (m.unstakes.map IpcUnstake.amount).sum < amountBound)
    (hsplit : sharesBeforeLast change (m.unstakes.map IpcUnstake.amount).sum m.unstakes ≤ change)
    (hbound : valueOf us + change < amountBound) :
    ∃ outs, m.redistribute change (front ++ us) = .ok outs := by
  unfold redistribute
  rw [sumAmounts_eq_ok.mpr ⟨hsum, rfl⟩, ok_bind]
  dsimp only
  split_ifs
  · have hsplit' : 0 + sharesBeforeLast change (m.unstakes.map IpcUnstake.amount).sum
        m.unstakes ≤ change := by
      rw [Nat.zero_add]
      exact hsplit
    obtain ⟨os', hos'⟩ := exists_shareChange hlen.symm hne hsplit' hbound
    rw [redistribute_start hlen, List.drop_left, hos']
    exact ⟨_, rfl⟩
  · exact ⟨_, rfl⟩

end Shares

theorem traverse_findUtxo {unspent l : List Utxo} (h : ∀ u ∈ l, u ∈ unspent) :
    ∃ outs, traverseList (findUtxo unspent) (l.map spendInput) = .ok outs := by
  refine exists_traverseList (fun i hi => ?_)
  obtain ⟨u, hu, rfl⟩ := List.mem_map.mp hi
  obtain ⟨v, hv⟩ := Option.isSome_iff_exists.mp (List.find?_isSome.mpr
    ⟨u, h u hu, decide_eq_true ⟨rfl, rfl⟩⟩ :
      (unspent.find? (fun v => v.txid = u.txid ∧ v.vout = u.vout)).isSome = true)
  exact ⟨⟨v.amount, v.scriptPubkey⟩, bind_eq_ok.mpr ⟨v, okOr_eq_ok.mpr hv, rfl⟩⟩

section Spends

variable {keys : List WeightedKey} {threshold : Power} {changeAddress : Address}
  {unspent : List Utxo} {exhaust : Bool} {outs : List TxOut} {feeRate : FeeRate} {limit : Nat}
  {id : SubnetId} {tx : Transaction}

/-- A spend has a psbt as soon as the committee has a script. -/
theorem exists_spendPsbt {t : Txid20} {script : Script}
    (hspend : constructSpendUnsignedTransaction X keys threshold changeAddress unspent exhaust outs
      feeRate limit = .ok tx)
    (hscript : createMultisigScript keys threshold = .ok script)
    (hid : (id.txid20 : Outcome MultisigError Txid20) = .ok t) :
    ∃ psbt, constructSpendPsbt X id keys threshold changeAddress unspent exhaust outs feeRate
      limit = .ok psbt ∧ psbt.unsignedTx = tx := by
  obtain ⟨selected, -, hselected, htx⟩ := input_of_constructSpendUnsignedTransaction hspend
  obtain ⟨utxos, hutxos⟩ := traverse_findUtxo hselected
  rw [← htx] at hutxos
  have haddress : ∃ a, createSubnetMultisigAddress X id keys threshold = .ok a :=
    ⟨_, bind_eq_ok.mpr ⟨script, hscript, bind_eq_ok.mpr ⟨t, hid, rfl⟩⟩⟩
  obtain ⟨a, ha⟩ := haddress
  exact ⟨⟨tx, script, utxos⟩, bind_eq_ok.mpr ⟨tx, hspend, bind_eq_ok.mpr ⟨script, hscript,
    bind_eq_ok.mpr ⟨a, ha, bind_eq_ok.mpr ⟨utxos, hutxos, rfl⟩⟩⟩⟩, rfl⟩

end Spends

section Payout

variable {σ : MapOrders} {committee next : SubnetCommittee} {feeRate : FeeRate}
  {unspent : List Utxo} {outs final : List TxOut} {tx : Transaction}

/-- What a transaction pays beyond the outputs it was asked for. -/
def changeValue (outs : List TxOut) (tx : Transaction) : Amount :=
  valueOf (tx.output.drop outs.length)

/-- The first of some outputs that pays the address of the committee. -/
def ownOutput (next : SubnetCommittee) (outs : List TxOut) : Option TxOut :=
  outs.find? (fun o => o.scriptPubkey = next.multisigAddress.scriptPubkey)

/-- The change as it is looked up in a transaction. -/
def foundChange (next : SubnetCommittee) (tx : Transaction) : Amount :=
  ((ownOutput next tx.output).map TxOut.value).getD 0

theorem spendFor_kill (hkill : m.isKillCheckpoint = true) :
    spendFor X m committee next feeRate unspent outs = .ok tx ↔
      sweepTransaction X (multisigSpendMaxWitnessSize committee.validatorWeightedKeys
        committee.threshold) next.multisigAddress unspent outs feeRate = .ok tx := by
  rw [spendFor, mapErr_eq_ok, hkill, Bool.or_true]
  rfl

/-- The change is found unless an output of the message pays the address. -/
theorem foundChange_eq {changes : Option TxOut} (hout : tx.output = outs ++ changes.toList)
    (hscript : ∀ c ∈ changes, c.scriptPubkey = next.multisigAddress.scriptPubkey) :
    foundChange next tx = ((ownOutput next outs).map TxOut.value).getD (changeValue outs tx) := by
  rw [foundChange, changeValue, hout, List.drop_left, ownOutput, List.find?_append]
  cases hown : ownOutput next outs with
  | some o =>
    rw [ownOutput] at hown
    rw [hown]
    rfl
  | none =>
    rw [ownOutput] at hown
    rw [hown]
    cases changes with
    | none => rfl
    | some c =>
      simp [hscript c rfl, valueOf]

theorem finalOutputs_kill (hkill : m.isKillCheckpoint = true) (hne : m.unstakes ≠ [])
    (houts : m.checkpointOutputs X σ committee feeRate = .ok outs)
    (hfirst : spendFor X m committee next feeRate unspent outs = .ok tx) :
    m.finalOutputs X σ committee next feeRate unspent =
      if 0 < foundChange next tx then m.redistribute (foundChange next tx) outs
      else .ok outs := by
  rw [finalOutputs, houts, ok_bind, hfirst, ok_bind]
  dsimp only
  by_cases hpos : 0 < foundChange next tx
  · rw [if_pos hpos]
    exact if_pos ⟨hkill, hpos, hne⟩
  · rw [if_neg hpos]
    exact if_neg (fun h => hpos h.2.1)

theorem valueOf_unstakeOut (us : List IpcUnstake) :
    valueOf (us.map unstakeOut) = (us.map IpcUnstake.amount).sum := by
  rw [valueOf, List.map_map]
  rfl

/-- The final outputs differ from the first ones in the values of the unstakes, by what was
found. -/
theorem finalOutputs_values (hkill : m.isKillCheckpoint = true) (hne : m.unstakes ≠ [])
    (hpos : 0 < (m.unstakes.map IpcUnstake.amount).sum) {front : List TxOut}
    (hsplit : outs = front ++ m.unstakes.map unstakeOut)
    (houts : m.checkpointOutputs X σ committee feeRate = .ok outs)
    (hfirst : spendFor X m committee next feeRate unspent outs = .ok tx)
    (hfinal : m.finalOutputs X σ committee next feeRate unspent = .ok final) :
    ∃ us, final = front ++ us ∧
      us.map TxOut.scriptPubkey = (m.unstakes.map unstakeOut).map TxOut.scriptPubkey ∧
      valueOf us = (m.unstakes.map IpcUnstake.amount).sum + foundChange next tx := by
  rw [finalOutputs_kill hkill hne houts hfirst] at hfinal
  split_ifs at hfinal with hfound
  · rw [hsplit] at hfinal
    rw [← valueOf_unstakeOut]
    exact redistribute_values (List.length_map _) hne hpos hfinal
  · have hzero : foundChange next tx = 0 := Nat.le_zero.mp (not_lt.mp hfound)
    rw [hzero, ← valueOf_unstakeOut, ← Except.ok.inj hfinal]
    exact ⟨_, hsplit, rfl, rfl⟩

theorem valueOf_changeOf_le {changeAddress : Address} (rest : Amount) :
    valueOf (Multisig.changeOf X changeAddress rest).toList ≤ rest := by
  cases hc : Multisig.changeOf X changeAddress rest with
  | none => exact Nat.zero_le _
  | some c =>
    obtain ⟨-, rfl⟩ := changeOf_eq hc
    exact le_refl rest

theorem changeValue_bound (hkill : m.isKillCheckpoint = true)
    (hfirst : spendFor X m committee next feeRate unspent outs = .ok tx) :
    valueOf outs + changeValue outs tx < amountBound := by
  obtain ⟨-, hbound, fee, -, hcover, htx⟩ :=
    sweepTransaction_eq_ok.mp ((spendFor_kill hkill).mp hfirst)
  have hle : changeValue outs tx ≤ worth unspent - valueOf outs - fee := by
    rw [changeValue, htx, spendTransaction, List.drop_left]
    exact valueOf_changeOf_le _
  refine lt_of_le_of_lt (le_trans (Nat.add_le_add_left hle _) ?_) hbound
  omega

/-- With the change in its outputs the transaction is built without change. -/
theorem spendFor_final (hweight : OutputWeightLaws X) (hkill : m.isKillCheckpoint = true)
    (hfirst : spendFor X m committee next feeRate unspent outs = .ok tx)
    (hscripts : final.map TxOut.scriptPubkey = outs.map TxOut.scriptPubkey)
    (hvalue : valueOf final = valueOf outs + changeValue outs tx) :
    spendFor X m committee next feeRate unspent final =
      .ok (spendTransaction ((sortUtxos unspent).map spendInput) final) := by
  rw [spendFor_kill hkill] at hfirst ⊢
  obtain ⟨hne, hbound, fee, hfee, hcover, htx⟩ := sweepTransaction_eq_ok.mp hfirst
  have hchange : changeValue outs tx = valueOf
      (Multisig.changeOf X next.multisigAddress (worth unspent - valueOf outs - fee)).toList := by
    rw [changeValue, htx, spendTransaction, List.drop_left]
  have hnone : valueOf final + fee ≤ worth unspent ∧
      Multisig.changeOf X next.multisigAddress (worth unspent - valueOf final - fee) = none := by
    cases hc : Multisig.changeOf X next.multisigAddress (worth unspent - valueOf outs - fee) with
    | none =>
      rw [hc] at hchange
      rw [hvalue, hchange]
      exact ⟨hcover, hc⟩
    | some c =>
      obtain ⟨-, rfl⟩ := changeOf_eq hc
      rw [hc] at hchange
      have hrest : changeValue outs tx = worth unspent - valueOf outs - fee := hchange
      rw [hvalue, hrest]
      have hall : valueOf outs + (worth unspent - valueOf outs - fee) + fee = worth unspent := by
        omega
      refine ⟨le_of_eq hall, ?_⟩
      rw [Nat.sub_sub, hall, Nat.sub_self]
      exact changeOf_zero
  refine sweepTransaction_eq_ok.mpr ⟨hne, hbound, fee, ?_, hnone.1, ?_⟩
  · rw [sweepFee_congr hweight hscripts]
    exact hfee
  · rw [hnone.2, Option.toList_none, List.append_nil]

/-- When the change is found the final outputs exist. -/
theorem exists_finalOutputs (hkill : m.isKillCheckpoint = true) (hne : m.unstakes ≠ [])
    {front : List TxOut} (hlayout : outs = front ++ m.unstakes.map unstakeOut)
    (houts : m.checkpointOutputs X σ committee feeRate = .ok outs)
    (hfirst : spendFor X m committee next feeRate unspent outs = .ok tx)
    (hsplit : sharesBeforeLast (changeValue outs tx)
      (m.unstakes.map IpcUnstake.amount).sum m.unstakes ≤ changeValue outs tx)
    (hfound : foundChange next tx = changeValue outs tx) :
    ∃ final, m.finalOutputs X σ committee next feeRate unspent = .ok final := by
  have hbound := changeValue_bound hkill hfirst
  rw [finalOutputs_kill hkill hne houts hfirst, hfound]
  split_ifs
  · have hvalue : valueOf outs = valueOf front + (m.unstakes.map IpcUnstake.amount).sum := by
      rw [hlayout, valueOf_append, valueOf_unstakeOut]
    rw [hvalue, Nat.add_assoc] at hbound
    have hbound' := lt_of_le_of_lt (Nat.le_add_left _ _) hbound
    obtain ⟨final, hfinal⟩ : ∃ final, m.redistribute (changeValue outs tx)
        (front ++ m.unstakes.map unstakeOut) = .ok final := by
      refine exists_redistributed (List.length_map _) hne ?_ hsplit ?_
      · exact lt_of_le_of_lt (Nat.le_add_right _ _) hbound'
      · rw [valueOf_unstakeOut]
        exact hbound'
    rw [← hlayout] at hfinal
    exact ⟨final, hfinal⟩
  · exact ⟨outs, rfl⟩

/-- A psbt is built for final outputs that can be paid. -/
theorem exists_psbt_of_final {id : Txid20} {script : Script} {tx' : Transaction}
    (hnext : next.multisigAddress.isValidForNetwork = true)
    (hid : (m.subnetId.txid20 : Outcome MultisigError Txid20) = .ok id)
    (hscript : createMultisigScript committee.validatorWeightedKeys committee.threshold =
      .ok script)
    (hfinal : m.finalOutputs X σ committee next feeRate unspent = .ok final)
    (hspend : spendFor X m committee next feeRate unspent final = .ok tx') :
    ∃ psbt, m.toCheckpointPsbt X σ committee next feeRate unspent = .ok psbt ∧
      psbt.unsignedTx = tx' := by
  obtain ⟨psbt, hpsbt, htx⟩ := exists_spendPsbt (mapErr_eq_ok.mp hspend) hscript hid
  exact ⟨psbt, toCheckpointPsbt_eq_ok_iff.mpr ⟨hnext, final, hfinal, hpsbt⟩, htx⟩

/-- What a kill checkpoint pays out: every entry of the wallet is spent, no output is added to
those of the message, and the unstakes are worth what was requested and the change. -/
structure PaidOut (m : IpcCheckpointSubnetMsg) (unspent : List Utxo) (outs : List TxOut)
    (change : Amount) (tx : Transaction) : Prop where
  spends : (tx.input.map TxIn.previousOutput).Perm (unspent.map outpoint)
  scripts : tx.output.map TxOut.scriptPubkey = outs.map TxOut.scriptPubkey
  others : tx.output.take (outs.length - m.unstakes.length) =
    outs.take (outs.length - m.unstakes.length)
  unstakes : valueOf (tx.output.drop (outs.length - m.unstakes.length)) =
    (m.unstakes.map IpcUnstake.amount).sum + change

theorem spends_spendTransaction (unspent : List Utxo) (outs : List TxOut) :
    ((spendTransaction ((sortUtxos unspent).map spendInput) outs).input.map
      TxIn.previousOutput).Perm (unspent.map outpoint) := by
  rw [spendTransaction, List.map_map]
  exact (sortUtxos_perm unspent).map outpoint

/-- The unstakes come after the announcement, the withdrawals and the batch. -/
theorem exists_front (houts : m.checkpointOutputs X σ committee feeRate = .ok outs) :
    ∃ id front, (m.subnetId.txid20 : Outcome MultisigError Txid20) = .ok id ∧
      outs = front ++ m.unstakes.map unstakeOut ∧
      outs.length - m.unstakes.length = front.length := by
  obtain ⟨id, batch, hid, -, -, hlayout⟩ := checkpointOutputs_eq_ok houts
  refine ⟨id, _, SubnetId.txid20_eq_ok.mpr (SubnetId.txid20_eq_ok.mp hid), hlayout, ?_⟩
  rw [hlayout]
  exact redistribute_start (List.length_map _)

/-- What a psbt pays out is the amount that was found. -/
theorem found_of_paidOut {psbt : Psbt} (hkill : m.isKillCheckpoint = true)
    (hne : m.unstakes ≠ []) (hpos : 0 < (m.unstakes.map IpcUnstake.amount).sum)
    (houts : m.checkpointOutputs X σ committee feeRate = .ok outs)
    (hfirst : spendFor X m committee next feeRate unspent outs = .ok tx)
    (hpsbt : m.toCheckpointPsbt X σ committee next feeRate unspent = .ok psbt)
    (hpaid : PaidOut m unspent outs (changeValue outs tx) psbt.unsignedTx) :
    (∃ script, createMultisigScript committee.validatorWeightedKeys committee.threshold =
      .ok script) ∧ foundChange next tx = changeValue outs tx := by
  obtain ⟨id, front, -, hlayout, hstart⟩ := exists_front houts
  obtain ⟨-, final, hfinal, hbuilt⟩ := toCheckpointPsbt_eq_ok_iff.mp hpsbt
  obtain ⟨us, rfl, hscripts, hus⟩ := finalOutputs_values hkill hne hpos hlayout houts hfirst hfinal
  obtain ⟨changes, hout, -⟩ :=
    constructSpendUnsignedTransaction_outputs (constructSpendPsbt_tx hbuilt)
  refine ⟨?_, ?_⟩
  · obtain ⟨_, -, h⟩ := bind_eq_ok.mp hbuilt
    obtain ⟨script, hscript, -⟩ := bind_eq_ok.mp h
    exact ⟨script, hscript⟩
  · have hlen : us.length = m.unstakes.length := by
      have := congrArg List.length hscripts
      simpa using this
    have hnone : changes.toList = [] := by
      have := congrArg List.length hpaid.scripts
      rw [hout, hlayout] at this
      simp only [List.length_map, List.length_append, hlen] at this
      exact List.length_eq_zero_iff.mp (by omega)
    have hvalue := hpaid.unstakes
    rw [hout, hnone, List.append_nil, hstart, List.drop_left, hus] at hvalue
    exact Nat.add_left_cancel hvalue

/-- When the change is found, the psbt that is built pays it out. -/
theorem exists_paidOut (hweight : OutputWeightLaws X) (hkill : m.isKillCheckpoint = true)
    (hne : m.unstakes ≠ []) (hpos : 0 < (m.unstakes.map IpcUnstake.amount).sum)
    (hnext : next.multisigAddress.isValidForNetwork = true)
    (houts : m.checkpointOutputs X σ committee feeRate = .ok outs)
    (hfirst : spendFor X m committee next feeRate unspent outs = .ok tx)
    (hsplit : sharesBeforeLast (changeValue outs tx)
      (m.unstakes.map IpcUnstake.amount).sum m.unstakes ≤ changeValue outs tx) {script : Script}
    (hscript : createMultisigScript committee.validatorWeightedKeys committee.threshold =
      .ok script) (hfound : foundChange next tx = changeValue outs tx) :
    ∃ psbt, m.toCheckpointPsbt X σ committee next feeRate unspent = .ok psbt ∧
      PaidOut m unspent outs (changeValue outs tx) psbt.unsignedTx := by
  obtain ⟨id, front, hid, hlayout, hstart⟩ := exists_front houts
  obtain ⟨final, hfinal⟩ := exists_finalOutputs hkill hne hlayout houts hfirst hsplit hfound
  obtain ⟨us, rfl, hscripts, hus⟩ := finalOutputs_values hkill hne hpos hlayout houts hfirst hfinal
  rw [hfound] at hus
  have hsame : (front ++ us).map TxOut.scriptPubkey = outs.map TxOut.scriptPubkey := by
    rw [hlayout, List.map_append, List.map_append, hscripts]
  have hvalue : valueOf (front ++ us) = valueOf outs + changeValue outs tx := by
    have houtsValue : valueOf outs = valueOf front + (m.unstakes.map IpcUnstake.amount).sum := by
      rw [hlayout, valueOf_append, valueOf_unstakeOut]
    rw [valueOf_append, hus, houtsValue, Nat.add_assoc]
  have hspend := spendFor_final hweight hkill hfirst hsame hvalue
  obtain ⟨psbt, hpsbt, htx⟩ :=
    exists_psbt_of_final hnext hid hscript hfinal hspend
  refine ⟨psbt, hpsbt, ?_⟩
  rw [htx]
  refine ⟨spends_spendTransaction unspent _, hsame, ?_, ?_⟩
  · rw [hstart, hlayout, List.take_left]
    exact List.take_left
  · rw [hstart]
    exact (congrArg valueOf List.drop_left).trans hus

/-- A psbt is paid out when the amount that was found is the change, and then only. -/
theorem paidOut_iff_found (hweight : OutputWeightLaws X) (hkill : m.isKillCheckpoint = true)
    (hne : m.unstakes ≠ []) (hpos : 0 < (m.unstakes.map IpcUnstake.amount).sum)
    (hnext : next.multisigAddress.isValidForNetwork = true)
    (houts : m.checkpointOutputs X σ committee feeRate = .ok outs)
    (hfirst : spendFor X m committee next feeRate unspent outs = .ok tx)
    (hsplit : sharesBeforeLast (changeValue outs tx)
      (m.unstakes.map IpcUnstake.amount).sum m.unstakes ≤ changeValue outs tx) :
    (∃ psbt, m.toCheckpointPsbt X σ committee next feeRate unspent = .ok psbt ∧
        PaidOut m unspent outs (changeValue outs tx) psbt.unsignedTx) ↔
      (∃ script, createMultisigScript committee.validatorWeightedKeys committee.threshold =
        .ok script) ∧ foundChange next tx = changeValue outs tx := by
  constructor
  · rintro ⟨psbt, hpsbt, hpaid⟩
    exact found_of_paidOut hkill hne hpos houts hfirst hpsbt hpaid
  · rintro ⟨⟨script, hscript⟩, hfound⟩
    exact exists_paidOut hweight hkill hne hpos hnext houts hfirst hsplit hscript hfound

/-- What the outputs and the fee leave of the wallet, when it is worth an output. -/
def leftover (X : Library) (committee next : SubnetCommittee) (feeRate : FeeRate)
    (unspent : List Utxo) (outs : List TxOut) : Amount :=
  match sweepFee X (multisigSpendMaxWitnessSize committee.validatorWeightedKeys
    committee.threshold) next.multisigAddress unspent outs feeRate with
  | some fee => valueOf (Multisig.changeOf X next.multisigAddress
      (worth unspent - valueOf outs - fee)).toList
  | none => 0

theorem changeValue_eq_leftover (hkill : m.isKillCheckpoint = true)
    (hfirst : spendFor X m committee next feeRate unspent outs = .ok tx) :
    changeValue outs tx = leftover X committee next feeRate unspent outs := by
  obtain ⟨-, -, fee, hfee, -, htx⟩ :=
    sweepTransaction_eq_ok.mp ((spendFor_kill hkill).mp hfirst)
  rw [changeValue, leftover, hfee, htx, spendTransaction, List.drop_left]

/-- The change is found when no output of the message is taken for it, or one of the same
value. -/
theorem foundChange_eq_changeValue_iff (hkill : m.isKillCheckpoint = true)
    (hfirst : spendFor X m committee next feeRate unspent outs = .ok tx) :
    foundChange next tx = changeValue outs tx ↔
      ∀ o ∈ ownOutput next outs, o.value = leftover X committee next feeRate unspent outs := by
  obtain ⟨changes, hout, hchanges⟩ :=
    constructSpendUnsignedTransaction_outputs (mapErr_eq_ok.mp hfirst)
  rw [foundChange_eq hout (fun c hc => (hchanges c hc).1), changeValue_eq_leftover hkill hfirst]
  cases ownOutput next outs with
  | none => exact iff_of_true rfl (fun o ho => by cases ho)
  | some own =>
    constructor
    · intro h o ho
      cases ho
      exact h
    · intro h
      exact h own rfl

/-- A kill checkpoint leaves nothing behind exactly if the committee has a script and the first
output of the message to the address of the committee, if there is one, is worth what is left. -/
theorem kill_pays_out_iff (hweight : OutputWeightLaws X) (hkill : m.isKillCheckpoint = true)
    (hne : m.unstakes ≠ []) (hpos : 0 < (m.unstakes.map IpcUnstake.amount).sum)
    (hnext : next.multisigAddress.isValidForNetwork = true)
    (houts : m.checkpointOutputs X σ committee feeRate = .ok outs)
    (hfirst : spendFor X m committee next feeRate unspent outs = .ok tx)
    (hsplit : sharesBeforeLast (changeValue outs tx)
      (m.unstakes.map IpcUnstake.amount).sum m.unstakes ≤ changeValue outs tx) :
    (∃ psbt, m.toCheckpointPsbt X σ committee next feeRate unspent = .ok psbt ∧
        PaidOut m unspent outs (changeValue outs tx) psbt.unsignedTx) ↔
      (∃ script, createMultisigScript committee.validatorWeightedKeys committee.threshold =
        .ok script) ∧
      ∀ o ∈ ownOutput next outs, o.value = leftover X committee next feeRate unspent outs := by
  rw [paidOut_iff_found hweight hkill hne hpos hnext houts hfirst hsplit,
    foundChange_eq_changeValue_iff hkill hfirst]

end Payout

end IpcCheckpointSubnetMsg

end Messages

namespace Crates

open Faults Bytes Chain Messages Multisig IpcCheckpointSubnetMsg Greedy

theorem outputWeightLaws_ideal (w : Ideal) : OutputWeightLaws (ideal w) where
  weight_values inputs outs outs' h := by
    have hsizes : ∀ l : List TxOut, l.map (fun o => 9 + o.scriptPubkey.length) =
        (l.map TxOut.scriptPubkey).map (fun s => 9 + s.length) := by
      intro l
      rw [List.map_map]
      rfl
    simp only [ideal, spendTransaction, hsizes, h]

namespace Solo

/-- A kill checkpoint with a withdrawal to the address. -/
def closing (a : Address) : IpcCheckpointSubnetMsg :=
  { payingCheckpoint [neighbour] [⟨100000, backup, key⟩, ⟨50000, backup, key⟩] with
    withdrawals := [⟨3000, a⟩], isKillCheckpoint := true }

def closingOutputs (a : Address) : List TxOut :=
  ((closing a).checkpointOutputs transferLibrary listedOrders (committee 10) 1000).toOption.getD []

/-- The transaction of the first construction. -/
def closingTx (a : Address) : Transaction :=
  (spendFor transferLibrary (closing a) (committee 10) (committee 10) 1000 [coin]
    (closingOutputs a)).toOption.getD createTx

/-- The first construction succeeds and its change can be split. -/
def Closes (a : Address) : Prop :=
  (closing a).checkpointOutputs transferLibrary listedOrders (committee 10) 1000 =
    .ok (closingOutputs a) ∧
  spendFor transferLibrary (closing a) (committee 10) (committee 10) 1000 [coin]
    (closingOutputs a) = .ok (closingTx a) ∧
  sharesBeforeLast (changeValue (closingOutputs a) (closingTx a))
    ((closing a).unstakes.map IpcUnstake.amount).sum (closing a).unstakes ≤
      changeValue (closingOutputs a) (closingTx a)

instance (a : Address) : Decidable (Closes a) := by
  unfold Closes
  infer_instance

theorem kill_pays_out_to_stranger : Closes (.p2tr (bytes32 7)) ∧
    ∃ psbt, (closing (.p2tr (bytes32 7))).toCheckpointPsbt transferLibrary listedOrders
        (committee 10) (committee 10) 1000 [coin] = .ok psbt ∧
      PaidOut (closing (.p2tr (bytes32 7))) [coin] (closingOutputs (.p2tr (bytes32 7)))
        (changeValue (closingOutputs (.p2tr (bytes32 7))) (closingTx (.p2tr (bytes32 7))))
        psbt.unsignedTx := by
  have hcloses : Closes (.p2tr (bytes32 7)) := of_decide_eq_true (by decide +kernel)
  have hscript : ∃ script, createMultisigScript (committee 10).validatorWeightedKeys
      (committee 10).threshold = .ok script := ⟨_, rfl⟩
  have hown : ownOutput (committee 10) (closingOutputs (.p2tr (bytes32 7))) = none :=
    of_decide_eq_true (by decide +kernel)
  refine ⟨hcloses, (kill_pays_out_iff (outputWeightLaws_ideal _) rfl (List.cons_ne_nil _ _)
    (by decide) rfl hcloses.1 hcloses.2.1 hcloses.2.2).mpr ⟨hscript, ?_⟩⟩
  rw [hown]
  intro o ho
  cases ho

/-- A withdrawal to the committee's own address is taken for the change, and the change stays
with the committee. -/
theorem kill_leaves_change_behind : Closes (address 10) ∧
    (closing (address 10)).isKillCheckpoint = true ∧
    0 < ((closing (address 10)).unstakes.map IpcUnstake.amount).sum ∧
    ¬ ∃ psbt, (closing (address 10)).toCheckpointPsbt transferLibrary listedOrders
        (committee 10) (committee 10) 1000 [coin] = .ok psbt ∧
      PaidOut (closing (address 10)) [coin] (closingOutputs (address 10))
        (changeValue (closingOutputs (address 10)) (closingTx (address 10))) psbt.unsignedTx := by
  have hcloses : Closes (address 10) := of_decide_eq_true (by decide +kernel)
  have hfound : foundChange (committee 10) (closingTx (address 10)) ≠
      changeValue (closingOutputs (address 10)) (closingTx (address 10)) :=
    of_decide_eq_true (by decide +kernel)
  refine ⟨hcloses, rfl, by decide, ?_⟩
  intro h
  exact hfound ((paidOut_iff_found (outputWeightLaws_ideal _) rfl (List.cons_ne_nil _ _)
    (by decide) rfl hcloses.1 hcloses.2.1 hcloses.2.2).mp h).2

end Solo

end Crates
