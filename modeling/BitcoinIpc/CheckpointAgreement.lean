import BitcoinIpc.CheckpointLayout
import BitcoinIpc.CoinOrder
import BitcoinIpc.IdealCrates

/-!
# Agreement of the validators on a checkpoint

Each validator builds the checkpoint by itself, with the iteration orders of its
own hash maps and the unspent outputs in the order of its own wallet. The order
of the outputs never matters. The order of the maps matters as soon as one of
them has two keys: it decides the order of the entries in the committed data and
of the outputs of the destinations.
-/

namespace Messages

open Faults Bytes Chain Crates Multisig Db Grouping

namespace IpcCheckpointSubnetMsg

/-- The ids of the destinations of the token transfers. -/
def ercDestinationIds (m : IpcCheckpointSubnetMsg) : List Txid20 :=
  (m.tokenTransfers.filterMap (fun e =>
    (e.destinationSubnetId.txid20 : Outcome IpcLibError Txid20).toOption)).dedup

/-- The commit output of the checkpoint commits to the script that the reveal shows. -/
def RevealsCommitted (X : Library) (m : IpcCheckpointSubnetMsg) (tx reveal : Transaction) : Prop :=
  ∃ o i script, tx.output[1 + m.withdrawals.length]? = some o ∧ reveal.input.head? = some i ∧
    i.witness.head? = some script ∧
    o.scriptPubkey = Address.p2trScript (X.taprootOutputKey (.leaf script))

/-- Any two evaluations produce the same unsigned transaction and the same batch data,
and the reveal of either shows what the other committed to. -/
def Agrees (X : Library) (m : IpcCheckpointSubnetMsg) (committee next : SubnetCommittee)
    (feeRate : FeeRate) (unspent : List Utxo) : Prop :=
  ∀ (σ τ : MapOrders) (unspent' : List Utxo), unspent.Perm unspent' →
    (m.toCheckpointPsbt X σ committee next feeRate unspent).map Psbt.unsignedTx =
      (m.toCheckpointPsbt X τ committee next feeRate unspent').map Psbt.unsignedTx ∧
    m.makeBatchedTransferData X σ = m.makeBatchedTransferData X τ ∧
    ∀ psbt txid returnAddress reveal,
      m.toCheckpointPsbt X σ committee next feeRate unspent = .ok psbt →
      m.makeRevealBatchTransferTx X τ txid feeRate returnAddress = .ok (some reveal) →
      RevealsCommitted X m psbt.unsignedTx reveal

variable {X : Library} {m : IpcCheckpointSubnetMsg} {committee next : SubnetCommittee}
  {feeRate : FeeRate} {unspent : List Utxo}

theorem keysOf_native {native : List (Txid20 × EthAddress × Amount)}
    (h : traverseList (nativeEntry (ε := IpcLibError)) m.transfers = .ok native) :
    keysOf native = m.destinationIds := by
  rw [keysOf, destinationIds, ← map_fst_eq_filterMap _ (traverse_eq_ok.mp h)]
  intro t e hte
  obtain ⟨id, hid, hte⟩ := bind_eq_ok.mp hte
  cases hte
  exact hid

theorem keysOf_erc {erc : List (Txid20 × IpcCrossSubnetErcTransferWire)}
    (h : traverseList (ercEntry (ε := IpcLibError)) m.tokenTransfers = .ok erc) :
    keysOf erc = m.ercDestinationIds := by
  rw [keysOf, ercDestinationIds, ← map_fst_eq_filterMap _ (traverse_eq_ok.mp h)]
  intro t e hte
  obtain ⟨id, hid, hte⟩ := bind_eq_ok.mp hte
  cases hte
  exact hid

/-- The entries the two maps of the batch data are filled from. -/
theorem wireData_eq_ok {σ : MapOrders} {wire : BatchTransferWireData}
    (h : (m.wireData σ : Outcome IpcLibError _) = .ok wire) :
    ∃ native erc, traverseList (nativeEntry (ε := IpcLibError)) m.transfers = .ok native ∧
      traverseList (ercEntry (ε := IpcLibError)) m.tokenTransfers = .ok erc ∧
      wire = ⟨grouped σ.native native, m.tokenRegistrations, m.tokenSupplyAdjustments,
        grouped σ.erc erc⟩ := by
  obtain ⟨native, hn, h⟩ := bind_eq_ok.mp h
  obtain ⟨erc, he, h⟩ := bind_eq_ok.mp h
  exact ⟨native, erc, hn, he, (Except.ok.inj h).symm⟩

section AtMostOne

variable (hnative : m.destinationIds.length ≤ 1) (herc : m.ercDestinationIds.length ≤ 1)
  (σ τ : MapOrders)
include hnative

include herc in
theorem wireData_eq_of_le_one :
    (m.wireData σ : Outcome IpcLibError _) = m.wireData τ := by
  unfold wireData
  cases hn : traverseList (nativeEntry (ε := IpcLibError)) m.transfers with
  | error e => rfl
  | ok native =>
    cases he : traverseList (ercEntry (ε := IpcLibError)) m.tokenTransfers with
    | error e => rfl
    | ok erc =>
      simp only [ok_bind]
      rw [grouped_eq_of_length_le_one σ.native τ.native (by rw [keysOf_native hn]; exact hnative),
        grouped_eq_of_length_le_one σ.erc τ.erc (by rw [keysOf_erc he]; exact herc)]

include herc in
theorem makeBatchedTransferData_eq_of_le_one :
    m.makeBatchedTransferData X σ = m.makeBatchedTransferData X τ := by
  rw [makeBatchedTransferData, makeBatchedTransferData, wireData_eq_of_le_one hnative herc σ τ]

include herc in
theorem checkpointOutputs_eq_of_le_one :
    m.checkpointOutputs X σ committee feeRate = m.checkpointOutputs X τ committee feeRate := by
  have hbatch : m.batchOutputs X σ committee feeRate = m.batchOutputs X τ committee feeRate := by
    unfold batchOutputs
    have hmade : ∀ a, m.makeBatchedTransfer X σ feeRate a = m.makeBatchedTransfer X τ feeRate a := by
      intro a
      rw [makeBatchedTransfer, makeBatchedTransfer,
        makeBatchedTransferData_eq_of_le_one hnative herc σ τ]
    simp only [hmade]
    cases he : transferEntries [] m.transfers with
    | error e => rfl
    | ok entries =>
      obtain ⟨new, hnew, hrel⟩ := transferEntries_eq_ok he
      rw [List.nil_append] at hnew
      subst hnew
      have hkeys : (keysOf entries).length ≤ 1 := by
        rw [keysOf, map_fst_eq_filterMap (fun _ _ hte => hte.1) hrel]
        exact hnative
      simp only [ok_bind, grouped_eq_of_length_le_one σ.outputs τ.outputs hkeys]
  rw [checkpointOutputs, checkpointOutputs, hbatch]

include herc in
/-- With at most one destination of each kind every evaluation is the same, up to the
order of the unspent outputs. -/
theorem toCheckpointPsbt_eq_of_le_one {unspent' : List Utxo} (hperm : unspent.Perm unspent') :
    (m.toCheckpointPsbt X σ committee next feeRate unspent).map Psbt.unsignedTx =
      (m.toCheckpointPsbt X τ committee next feeRate unspent').map Psbt.unsignedTx := by
  unfold toCheckpointPsbt
  rw [checkpointOutputs_eq_of_le_one hnative herc σ τ]
  simp only [constructSpendUnsignedTransaction_of_perm X feeRate hperm]
  have hspend : ∀ a exhaust outs,
      (mapErr IpcLibError.multisigError (constructSpendPsbt X m.subnetId
        committee.validatorWeightedKeys committee.threshold a unspent exhaust outs feeRate
        checkpointConsolidationLimit)).map Psbt.unsignedTx =
      (mapErr IpcLibError.multisigError (constructSpendPsbt X m.subnetId
        committee.validatorWeightedKeys committee.threshold a unspent' exhaust outs feeRate
        checkpointConsolidationLimit)).map Psbt.unsignedTx := by
    intro a exhaust outs
    rw [map_mapErr, map_mapErr, constructSpendPsbt_of_perm X feeRate hperm]
  cases next.multisigAddress.requireNetwork (ε := IpcLibError) with
  | error e => rfl
  | ok a =>
    cases m.checkpointOutputs X τ committee feeRate with
    | error e => rfl
    | ok outs =>
      simp only [ok_bind]
      cases mapErr IpcLibError.multisigError (constructSpendUnsignedTransaction X
        committee.validatorWeightedKeys committee.threshold a unspent'
        (!committee.sameAs next || m.isKillCheckpoint) outs feeRate
        checkpointConsolidationLimit) with
      | error e => rfl
      | ok tx =>
        simp only [ok_bind]
        split_ifs
        · cases m.redistribute _ outs with
          | error e => rfl
          | ok shared =>
            simp only [ok_bind]
            cases mapErr IpcLibError.multisigError (constructSpendUnsignedTransaction X
              committee.validatorWeightedKeys committee.threshold a unspent'
              (!committee.sameAs next || m.isKillCheckpoint) shared feeRate
              checkpointConsolidationLimit) with
            | error e => rfl
            | ok tx' => exact hspend _ _ _
        · exact hspend _ _ _

end AtMostOne

/-- Equal batch data is committed to and revealed in the same script. -/
theorem revealsCommitted_of_data {σ τ : MapOrders} {psbt : Psbt} {txid : Txid}
    {returnAddress : Address} {reveal : Transaction}
    (hdata : m.makeBatchedTransferData X σ = m.makeBatchedTransferData X τ)
    (hpsbt : m.toCheckpointPsbt X σ committee next feeRate unspent = .ok psbt)
    (hreveal : m.makeRevealBatchTransferTx X τ txid feeRate returnAddress = .ok (some reveal)) :
    RevealsCommitted X m psbt.unsignedTx reveal := by
  unfold makeRevealBatchTransferTx at hreveal
  split_ifs at hreveal with hb
  · obtain ⟨outpoint, -, h⟩ := bind_eq_ok.mp hreveal
    obtain ⟨made, hmade, h⟩ := bind_eq_ok.mp h
    obtain ⟨data, hτ, -, hwitness, -⟩ := makeBatchedTransfer_eq_ok hmade
    obtain ⟨id, batch, us, change, -, hbatch, -, -, -, -, -, hout⟩ :=
      layout_of_toCheckpointPsbt hpsbt
    cases batchLayout_of_batchOutputs hbatch with
    | none hno =>
      rw [hb] at hno
      cases hno
    | @some data' commit dests _ hσ hscript _ _ _ =>
      rw [hdata, hτ] at hσ
      cases hσ
      cases h
      refine ⟨commit, _, makePushDataScript data, ?_, rfl, by rw [hwitness]; rfl, hscript⟩
      rw [hout, Nat.add_comm, List.getElem?_cons_succ]
      simp
  · cases hreveal

theorem destinationIds_of_no_batch (h : m.hasBatch = false) :
    m.destinationIds = [] ∧ m.ercDestinationIds = [] := by
  simp only [hasBatch, Bool.or_eq_false_iff, Bool.not_eq_false', List.isEmpty_iff] at h
  obtain ⟨⟨⟨ht, -⟩, -⟩, he⟩ := h
  simp [destinationIds, ercDestinationIds, ht, he]

/-- A batch that is built has serialized data. -/
theorem data_of_toCheckpointPsbt {σ : MapOrders} {psbt : Psbt} (hb : m.hasBatch = true)
    (hpsbt : m.toCheckpointPsbt X σ committee next feeRate unspent = .ok psbt) :
    ∃ data, m.makeBatchedTransferData X σ = .ok data := by
  obtain ⟨id, batch, us, change, -, hbatch, -⟩ := layout_of_toCheckpointPsbt hpsbt
  cases batchLayout_of_batchOutputs hbatch with
  | none hno =>
    rw [hb] at hno
    cases hno
  | some _ hdata => exact ⟨_, hdata⟩

/-- The data determines what was serialized. -/
theorem wireData_eq_of_data (codec : CodecLaws X) {σ τ : MapOrders} {data : List UInt8}
    (hσ : m.makeBatchedTransferData X σ = .ok data)
    (hτ : m.makeBatchedTransferData X τ = .ok data) :
    ∃ wire, (m.wireData σ : Outcome IpcLibError _) = .ok wire ∧
      (m.wireData τ : Outcome IpcLibError _) = .ok wire := by
  obtain ⟨wσ, hwσ, hσ⟩ := bind_eq_ok.mp hσ
  obtain ⟨bσ, hbσ, hσ⟩ := bind_eq_ok.mp hσ
  obtain ⟨wτ, hwτ, hτ⟩ := bind_eq_ok.mp hτ
  obtain ⟨bτ, hbτ, hτ⟩ := bind_eq_ok.mp hτ
  have hbytes : bσ = bτ :=
    List.append_cancel_left ((Except.ok.inj hσ).trans (Except.ok.inj hτ).symm)
  have hdσ := codec.decode_encode _ _ (okOr_eq_ok.mp hbσ)
  have hdτ := codec.decode_encode _ _ (okOr_eq_ok.mp hbτ)
  rw [hbytes, hdτ] at hdσ
  cases hdσ
  exact ⟨wσ, hwσ, hwτ⟩

/-- The validators agree on a checkpoint that can be built exactly when its native
transfers have at most one destination and so have its token transfers. -/
theorem checkpoint_agrees_iff (codec : CodecLaws X) {σ : MapOrders} {psbt : Psbt}
    (hpsbt : m.toCheckpointPsbt X σ committee next feeRate unspent = .ok psbt) :
    Agrees X m committee next feeRate unspent ↔
      m.destinationIds.length ≤ 1 ∧ m.ercDestinationIds.length ≤ 1 := by
  constructor
  · intro hagree
    by_cases hb : m.hasBatch = true
    · obtain ⟨data, hdata⟩ := data_of_toCheckpointPsbt hb hpsbt
      -- the same evaluation with the maps of the data iterated the other way round
      have hother := (hagree σ ⟨σ.native.opposite, σ.erc.opposite, σ.outputs⟩ unspent
        (List.Perm.refl _)).2.1
      obtain ⟨wire, hw, hw'⟩ := wireData_eq_of_data codec hdata (hother ▸ hdata)
      obtain ⟨native, erc, hn, he, rfl⟩ := wireData_eq_ok hw
      obtain ⟨native', erc', hn', he', heq⟩ := wireData_eq_ok hw'
      rw [hn] at hn'
      rw [he] at he'
      cases hn'
      cases he'
      simp only [BatchTransferWireData.mk.injEq] at heq
      rw [← keysOf_native hn, ← keysOf_erc he]
      exact ⟨length_keysOf_le_one_of_opposite _ heq.1,
        length_keysOf_le_one_of_opposite _ heq.2.2.2⟩
    · obtain ⟨hn, he⟩ := destinationIds_of_no_batch (by simpa using hb)
      rw [hn, he]
      exact ⟨Nat.zero_le _, Nat.zero_le _⟩
  · rintro ⟨hnative, herc⟩ σ τ unspent' hperm
    have hdata := makeBatchedTransferData_eq_of_le_one (X := X) hnative herc σ τ
    exact ⟨toCheckpointPsbt_eq_of_le_one hnative herc σ τ hperm, hdata,
      fun psbt txid returnAddress reveal hp hr => revealsCommitted_of_data hdata hp hr⟩

open Solo

/-- With one destination the validators agree. -/
theorem agrees_on_one_destination :
    Agrees transferLibrary (payingCheckpoint [neighbour] []) (Solo.committee 10)
      (Solo.committee 10) 1000 [coin] := by
  obtain ⟨psbt, hpsbt⟩ := exists_ok_of_isSome
    (by decide +kernel : (payingPsbt listedOrders [neighbour] []).toOption.isSome = true)
  exact (checkpoint_agrees_iff (codecLaws_ideal _) hpsbt).mpr (by decide +kernel)

/-- With two destinations two iteration orders give two transactions. -/
theorem two_destinations_disagree :
    ¬ ∀ (X : Library) (m : IpcCheckpointSubnetMsg) (committee next : SubnetCommittee)
      (feeRate : FeeRate) (unspent : List Utxo), DisplayLaws X → CodecLaws X →
      m.validate = .ok () → Agrees X m committee next feeRate unspent := by
  intro hall
  have hagree := hall transferLibrary (payingCheckpoint [neighbour, stranger] [])
    (Solo.committee 10) (Solo.committee 10) 1000 [coin] (displayLaws_ideal _)
    (codecLaws_ideal _) (by decide +kernel)
  have htx := congrArg Except.toOption
    (hagree listedOrders reversedOrders [coin] (List.Perm.refl _)).1
  have hne : ((payingPsbt listedOrders [neighbour, stranger] []).map Psbt.unsignedTx).toOption ≠
      ((payingPsbt reversedOrders [neighbour, stranger] []).map Psbt.unsignedTx).toOption := by
    decide +kernel
  exact hne htx

end IpcCheckpointSubnetMsg

end Messages
