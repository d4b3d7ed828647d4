import BitcoinIpc.RequestedOutputs
import BitcoinIpc.SpendPanics

/-!
# Checkpoint messages that stop the provider

Where the psbt of a checkpoint message can panic: the destination of a token
transfer need not have the twenty bytes that its id is read as, the totals of the
destinations and the cost of the reveal are added without a check, and the change
of a kill checkpoint is shared by additions and a subtraction. Where nothing of
this happens the psbt is built exactly if the wallet pays the outputs.
-/

namespace Messages

open Faults Bytes Chain Crates Multisig Db Grouping Monitor Greedy

/-- The id is a delegated address of twenty bytes. -/
def SubnetId.HasTxid20 (s : SubnetId) : Prop := ∃ ns, ∃ t : Txid20, s.addr = .delegated ns t.bytes

theorem SubnetId.hasTxid20_fromTxid20 (t : Txid20) : (SubnetId.fromTxid20 t).HasTxid20 :=
  ⟨_, t, rfl⟩

theorem raises_txid20 {ε : Type} {Q : ε → Prop} (s : SubnetId) :
    Raises Q (s.txid20 : Outcome ε Txid20) := by
  unfold SubnetId.txid20
  split
  · exact raises_expect _
  · exact raises_panicked

theorem ends_txid20 {ε : Type} {s : SubnetId} :
    Ends (s.txid20 : Outcome ε Txid20) ↔ s.HasTxid20 := by
  rw [ends_iff_ok (raises_txid20 s)]
  constructor
  · rintro ⟨t, ht⟩
    obtain ⟨ns, haddr⟩ := SubnetId.txid20_eq_ok.mp ht
    exact ⟨ns, t, haddr⟩
  · rintro ⟨ns, t, haddr⟩
    exact ⟨t, SubnetId.txid20_eq_ok.mpr ⟨ns, haddr⟩⟩

namespace IpcCheckpointSubnetMsg

variable {X : Library} {m : IpcCheckpointSubnetMsg} {σ τ : MapOrders} {feeRate : FeeRate}
  {a : Address} {committee next : SubnetCommittee}

/-- A message whose addresses are of the network and whose transfers have their destinations
filled in. -/
structure Resolved (m : IpcCheckpointSubnetMsg) : Prop where
  own : ∃ t, m.subnetId = .fromTxid20 t
  withdrawals : ∀ w ∈ m.withdrawals, w.address.isValidForNetwork = true
  transfers : ∀ t ∈ m.transfers, ∃ id a, t.destinationSubnetId = .fromTxid20 id ∧
    t.subnetMultisigAddress = some a ∧ a.isValidForNetwork = true
  unstakes : ∀ u ∈ m.unstakes, u.address.isValidForNetwork = true

/-- Every token transfer has a destination with an id. -/
def TokensAddressed (m : IpcCheckpointSubnetMsg) : Prop :=
  ∀ e ∈ m.tokenTransfers, e.destinationSubnetId.HasTxid20

theorem raises_nativeEntry {ε : Type} {Q : ε → Prop} (t : IpcCrossSubnetTransfer) :
    Raises Q (nativeEntry t : Outcome ε _) :=
  (raises_txid20 _).bind (fun _ => raises_ok _)

theorem raises_ercEntry {ε : Type} {Q : ε → Prop} (e : IpcCrossSubnetErcTransfer) :
    Raises Q (ercEntry e : Outcome ε _) :=
  (raises_txid20 _).bind (fun _ => raises_ok _)

theorem ends_ercEntry {ε : Type} {e : IpcCrossSubnetErcTransfer} :
    Ends (ercEntry e : Outcome ε _) ↔ e.destinationSubnetId.HasTxid20 := by
  constructor
  · intro h
    exact ends_txid20.mp (endures_bind.mp h).1
  · intro h
    exact Endures.bind (ends_txid20.mpr h) (fun _ _ => trivial)

theorem ends_wireData {ε : Type} (hm : m.Resolved) :
    Ends (m.wireData σ : Outcome ε BatchTransferWireData) ↔ m.TokensAddressed := by
  have hnative : Ends (traverseList nativeEntry m.transfers : Outcome ε _) := by
    refine endures_traverseList (fun t ht => ?_)
    obtain ⟨id, -, hid, -, -⟩ := hm.transfers t ht
    refine Endures.bind (ends_txid20.mpr ?_) (fun _ _ => trivial)
    rw [hid]
    exact SubnetId.hasTxid20_fromTxid20 id
  obtain ⟨native, hnative⟩ := (ends_iff_ok (raises_traverseList raises_nativeEntry)).mp hnative
  have herc : Ends (traverseList ercEntry m.tokenTransfers : Outcome ε _) ↔
      m.TokensAddressed :=
    (endures_traverseList_iff raises_ercEntry).trans (forall₂_congr (fun e _ => ends_ercEntry))
  unfold wireData
  rw [hnative, ok_bind, ← herc]
  constructor
  · intro h
    exact (endures_bind.mp h).1
  · intro h
    exact Endures.bind h (fun _ _ => trivial)

theorem wireData_eq {ε : Type} (hm : m.Resolved) (htokens : m.TokensAddressed) :
    (m.wireData σ : Outcome ε BatchTransferWireData) = .ok (m.requestedWire σ) := by
  have hnothing : Raises (fun _ => ¬ True) (m.wireData σ : Outcome ε BatchTransferWireData) :=
    (raises_traverseList raises_nativeEntry).bind (fun _ =>
      (raises_traverseList raises_ercEntry).bind (fun _ => raises_ok _))
  obtain ⟨wire, hwire⟩ := (ends_iff_ok hnothing).mp ((ends_wireData hm).mpr htokens)
  rw [hwire, wireData_requested hwire]

/-- The cost of revealing the batch is an amount. -/
def RevealFits (X : Library) (m : IpcCheckpointSubnetMsg) (σ : MapOrders) (feeRate : FeeRate)
    (a : Address) : Prop :=
  ∀ data fee, m.requestedData X σ = some data → revealFee X feeRate a data = some fee →
    revealCost X feeRate a fee < amountBound

theorem makeBatchedTransferData_eq_ok_iff (hm : m.Resolved) (htokens : m.TokensAddressed)
    {data : List UInt8} :
    m.makeBatchedTransferData X σ = .ok data ↔ m.requestedData X σ = some data := by
  constructor
  · exact makeBatchedTransferData_requested
  · intro h
    obtain ⟨binary, hbinary, rfl⟩ := Option.map_eq_some_iff.mp h
    exact bind_eq_ok.mpr ⟨_, wireData_eq hm htokens,
      bind_eq_ok.mpr ⟨binary, okOr_eq_ok.mpr hbinary, rfl⟩⟩

theorem ends_makeBatchedTransferData (hm : m.Resolved) :
    Ends (m.makeBatchedTransferData X σ) ↔ m.TokensAddressed := by
  constructor
  · intro h
    exact (ends_wireData hm).mp (endures_bind.mp h).1
  · intro h
    refine Endures.bind ((ends_wireData hm).mpr h) (fun _ _ => ?_)
    exact (ends_okOr _ _).bind (fun _ _ => trivial)

theorem ends_makeBatchedTransfer (hm : m.Resolved) :
    Ends (m.makeBatchedTransfer X σ feeRate a) ↔
      m.TokensAddressed ∧ RevealFits X m σ feeRate a := by
  constructor
  · intro h
    obtain ⟨hdata, h⟩ := endures_bind.mp h
    have htokens := (ends_makeBatchedTransferData hm).mp hdata
    refine ⟨htokens, ?_⟩
    intro data fee hdata hfee
    have h := h data ((makeBatchedTransferData_eq_ok_iff hm htokens).mpr hdata)
    have h := (endures_bind.mp h).2 fee (okOr_eq_ok.mpr hfee)
    exact ends_addAmount.mp (endures_bind.mp h).1
  · rintro ⟨htokens, hfits⟩
    refine Endures.bind ((ends_makeBatchedTransferData hm).mpr htokens) (fun data hdata => ?_)
    refine Endures.bind (ends_okOr _ _) (fun fee hfee => ?_)
    refine Endures.bind (ends_addAmount.mpr ?_) (fun _ _ => trivial)
    exact hfits data fee (makeBatchedTransferData_requested hdata) (okOr_eq_ok.mp hfee)

/-- The commit output of a batch that can be serialized and revealed. -/
theorem exists_batchedTransfer (hm : m.Resolved) (htokens : m.TokensAddressed)
    (hfits : RevealFits X m σ feeRate a) {data : List UInt8} {fee : Amount}
    (hdata : m.requestedData X σ = some data) (hfee : revealFee X feeRate a data = some fee) :
    ∃ w o, m.makeBatchedTransfer X σ feeRate a = .ok (commitOut X feeRate a data fee, w, o) :=
  ⟨_, _, bind_eq_ok.mpr ⟨data, (makeBatchedTransferData_eq_ok_iff hm htokens).mpr hdata,
    bind_eq_ok.mpr ⟨fee, okOr_eq_ok.mpr hfee,
    bind_eq_ok.mpr ⟨_, addAmount_eq_ok.mpr ⟨hfits data fee hdata hfee, rfl⟩, rfl⟩⟩⟩⟩

/-- What is transferred to a destination. -/
def transferredTo (l : List IpcCrossSubnetTransfer) (id : Txid20) : Nat :=
  ((l.filter (fun t => t.destinationSubnetId = .fromTxid20 id)).map (·.amount)).sum

/-- What is collected for a destination. -/
def collectedFor (seen : List (Txid20 × Amount × Address)) (id : Txid20) : Nat :=
  ((valuesAt seen id).map Prod.fst).sum

theorem collectedFor_snoc (seen : List (Txid20 × Amount × Address)) (i id : Txid20)
    (amount : Amount) (a : Address) :
    collectedFor (seen ++ [(i, amount, a)]) id =
      collectedFor seen id + if i = id then amount else 0 := by
  unfold collectedFor valuesAt
  rw [List.filter_append, List.map_append, List.map_append, List.sum_append]
  by_cases h : i = id
  · simp [h]
  · simp [h]

theorem transferredTo_cons {t : IpcCrossSubnetTransfer} {l : List IpcCrossSubnetTransfer}
    {i : Txid20} (hi : t.destinationSubnetId = .fromTxid20 i) (id : Txid20) :
    transferredTo (t :: l) id = (if i = id then t.amount else 0) + transferredTo l id := by
  unfold transferredTo
  by_cases h : i = id
  · rw [if_pos h, List.filter_cons_of_pos (by simpa using hi.trans (congrArg _ h))]
    rfl
  · have hne : ¬ (t.destinationSubnetId = .fromTxid20 id) := by
      rw [hi]
      exact fun heq => h (SubnetId.fromTxid20_injective heq)
    rw [if_neg h, List.filter_cons_of_neg (by simpa using hne), Nat.zero_add]

/-- The totals of the destinations are computed when each of them fits. -/
theorem ends_transferEntries {l : List IpcCrossSubnetTransfer}
    {seen : List (Txid20 × Amount × Address)}
    (hl : ∀ t ∈ l, ∃ id a, t.destinationSubnetId = .fromTxid20 id ∧
      t.subnetMultisigAddress = some a ∧ a.isValidForNetwork = true)
    (hseen : ∀ id, collectedFor seen id < amountBound) :
    Ends (transferEntries seen l) ↔
      ∀ id, collectedFor seen id + transferredTo l id < amountBound := by
  induction l generalizing seen with
  | nil => exact iff_of_true trivial (fun id => hseen id)
  | cons t rest ih =>
    obtain ⟨i, a, hi, ha, -⟩ := hl t List.mem_cons_self
    have hrest := fun t' ht' => hl t' (List.mem_cons_of_mem t ht')
    unfold transferEntries
    rw [hi, SubnetId.txid20_fromTxid20, ok_bind, ha, okOr_eq_ok.mpr rfl, ok_bind]
    have hmove : ∀ id, collectedFor (seen ++ [(i, t.amount, a)]) id + transferredTo rest id =
        collectedFor seen id + transferredTo (t :: rest) id := by
      intro id
      rw [collectedFor_snoc, transferredTo_cons hi, Nat.add_assoc]
    constructor
    · intro h
      obtain ⟨hadd, h⟩ := endures_bind.mp h
      have hadd := ends_addAmount.mp hadd
      have hends := h _ (addAmount_eq_ok.mpr ⟨hadd, rfl⟩)
      have hseen' : ∀ id, collectedFor (seen ++ [(i, t.amount, a)]) id < amountBound := by
        intro id
        rw [collectedFor_snoc]
        split_ifs with hid
        · rw [← hid]
          exact hadd
        · exact hseen id
      intro id
      rw [← hmove]
      exact (ih hrest hseen').mp hends id
    · intro h
      have hseen' : ∀ id, collectedFor (seen ++ [(i, t.amount, a)]) id < amountBound := by
        intro id
        refine lt_of_le_of_lt (Nat.le_add_right _ (transferredTo rest id)) ?_
        rw [hmove]
        exact h id
      have hadd := hseen' i
      rw [collectedFor_snoc, if_pos rfl] at hadd
      refine Endures.bind (ends_addAmount.mpr hadd) (fun _ _ => ?_)
      refine (ih hrest hseen').mpr (fun id => ?_)
      rw [hmove]
      exact h id

/-- The entries of the transfers are made when their addresses are filled in. -/
theorem raises_transferEntries {Q : IpcLibError → Prop} {l : List IpcCrossSubnetTransfer}
    {seen : List (Txid20 × Amount × Address)}
    (hl : ∀ t ∈ l, ∃ id a, t.destinationSubnetId = .fromTxid20 id ∧
      t.subnetMultisigAddress = some a ∧ a.isValidForNetwork = true) :
    Raises Q (transferEntries seen l) := by
  induction l generalizing seen with
  | nil => exact raises_ok _
  | cons t rest ih =>
    obtain ⟨i, a, -, ha, -⟩ := hl t List.mem_cons_self
    unfold transferEntries
    rw [ha, okOr_eq_ok.mpr rfl]
    refine (raises_txid20 _).bind (fun _ => ?_)
    rw [ok_bind]
    exact (raises_addAmount _ _).bind (fun _ =>
      ih (fun t' ht' => hl t' (List.mem_cons_of_mem t ht')))

/-- The destinations' outputs pay the addresses that were filled in. -/
theorem exists_destinationOutputs {entries : List (Txid20 × Amount × Address)} (hm : m.Resolved)
    (hentries : transferEntries [] m.transfers = .ok entries) :
    ∃ outs, (traverseList destinationOutput (grouped σ.outputs entries) :
      Outcome IpcLibError (List TxOut)) = .ok outs := by
  obtain ⟨new, hnew, hrel⟩ := transferEntries_eq_ok hentries
  rw [List.nil_append] at hnew
  subst hnew
  refine exists_traverseList (fun e he => ?_)
  obtain ⟨k, hk, rfl⟩ := List.mem_map.mp he
  obtain ⟨v, hv⟩ := (mem_order_keysOf σ.outputs).mp hk
  have hmem : v ∈ valuesAt entries k :=
    List.mem_map.mpr ⟨(k, v), List.mem_filter.mpr ⟨hv, decide_eq_true rfl⟩, rfl⟩
  obtain ⟨first, hfirst⟩ : ∃ first, (valuesAt entries k)[0]? = some first :=
    ⟨_, List.getElem?_eq_getElem (List.length_pos_of_mem hmem)⟩
  obtain ⟨e, he, heq⟩ := List.mem_map.mp (List.mem_of_getElem? hfirst)
  obtain ⟨t, ht, -, -, haddr⟩ := exists_of_forall₂ hrel (List.mem_of_mem_filter he)
  obtain ⟨id, a, -, ha, hvalid⟩ := hm.transfers t ht
  rw [haddr, heq] at ha
  obtain rfl := Option.some.inj ha
  exact ⟨_, bind_eq_ok.mpr ⟨first, index_eq_ok.mpr hfirst, payment_eq_ok.mpr ⟨hvalid, rfl⟩⟩⟩

/-- The batch of a message is computed: every destination has an id, the cost of the reveal is an
amount and so is, if the batch can be serialized and revealed, the total of each destination. -/
structure BatchFits (X : Library) (m : IpcCheckpointSubnetMsg) (σ : MapOrders) (feeRate : FeeRate)
    (a : Address) : Prop where
  tokens : m.TokensAddressed
  reveal : RevealFits X m σ feeRate a
  totals : ∀ data fee, m.requestedData X σ = some data → revealFee X feeRate a data = some fee →
    ∀ id, transferredTo m.transfers id < amountBound

theorem ends_transferTotals (hm : m.Resolved) :
    Ends (transferEntries [] m.transfers) ↔ ∀ id, transferredTo m.transfers id < amountBound := by
  have hzero : ∀ id, collectedFor [] id + transferredTo m.transfers id =
      transferredTo m.transfers id := fun id => Nat.zero_add _
  have hnone : ∀ id, collectedFor [] id < amountBound := fun _ => (by decide : 0 < amountBound)
  have htotals := ends_transferEntries hm.transfers hnone
  simp only [hzero] at htotals
  exact htotals

theorem ends_batchOutputs (hm : m.Resolved)
    (haddress : committee.multisigAddress.isValidForNetwork = true) :
    Ends (m.batchOutputs X σ committee feeRate) ↔
      (m.hasBatch = true → BatchFits X m σ feeRate committee.multisigAddress) := by
  unfold batchOutputs
  split_ifs with hbatch
  · rw [Address.requireNetwork_eq_ok.mpr ⟨haddress, rfl⟩, ok_bind]
    constructor
    · intro h _
      obtain ⟨hmade, h⟩ := endures_bind.mp h
      obtain ⟨htokens, hreveal⟩ := (ends_makeBatchedTransfer hm).mp hmade
      refine ⟨htokens, hreveal, ?_⟩
      intro data fee hdata hfee
      obtain ⟨w, o, hmade⟩ := exists_batchedTransfer hm htokens hreveal hdata hfee
      exact (ends_transferTotals hm).mp (endures_bind.mp (h _ hmade)).1
    · intro h
      have hfits := h hbatch
      refine Endures.bind ((ends_makeBatchedTransfer hm).mpr ⟨hfits.tokens, hfits.reveal⟩)
        (fun made hmade => ?_)
      obtain ⟨data, fee, hdata, hfee, -⟩ := makeBatchedTransfer_requested hmade
      refine Endures.bind ((ends_transferTotals hm).mpr (hfits.totals data fee hdata hfee))
        (fun entries hentries => ?_)
      obtain ⟨outs, houts⟩ := exists_destinationOutputs (σ := σ) hm hentries
      rw [houts]
      trivial
  · exact iff_of_true trivial (fun h => absurd h hbatch)

/-- A batch that is asked for and fits is computed. -/
theorem exists_batchOutputs (hm : m.Resolved)
    (haddress : committee.multisigAddress.isValidForNetwork = true)
    (hfits : m.hasBatch = true → BatchFits X m σ feeRate committee.multisigAddress)
    {batch : List TxOut}
    (h : m.batchOuts X σ feeRate committee.multisigAddress = some batch) :
    ∃ batch', m.batchOutputs X σ committee feeRate = .ok batch' := by
  unfold batchOuts at h
  unfold batchOutputs
  by_cases hbatch : m.hasBatch = true
  · rw [if_pos hbatch] at h ⊢
    obtain ⟨data, hdata, h⟩ := Option.bind_eq_some_iff.mp h
    obtain ⟨fee, hfee, -⟩ := Option.bind_eq_some_iff.mp h
    have hfits := hfits hbatch
    obtain ⟨w, o, hmade⟩ := exists_batchedTransfer hm hfits.tokens hfits.reveal hdata hfee
    obtain ⟨entries, hentries⟩ := (ends_iff_ok (raises_transferEntries hm.transfers)).mp
      ((ends_transferTotals hm).mpr (hfits.totals data fee hdata hfee))
    obtain ⟨outs, houts⟩ := exists_destinationOutputs (σ := σ) hm hentries
    exact ⟨_, bind_eq_ok.mpr ⟨_, Address.requireNetwork_eq_ok.mpr ⟨haddress, rfl⟩,
      bind_eq_ok.mpr ⟨_, hmade, bind_eq_ok.mpr ⟨entries, hentries,
      bind_eq_ok.mpr ⟨outs, houts, rfl⟩⟩⟩⟩⟩
  · rw [if_neg hbatch]
    exact ⟨_, rfl⟩

theorem exists_metadataTxOut (feeRate : FeeRate) (hm : m.Resolved) :
    ∃ out, (m.makeMetadataTxOut X feeRate : Outcome IpcLibError TxOut) = .ok out := by
  obtain ⟨t, ht⟩ := hm.own
  refine ⟨_, bind_eq_ok.mpr ⟨t, ?_, rfl⟩⟩
  rw [ht]
  exact SubnetId.txid20_fromTxid20 t

theorem traverse_withdrawals (hm : m.Resolved) :
    traverseList (fun w => payment w.amount w.address :
      IpcWithdrawal → Outcome IpcLibError TxOut) m.withdrawals =
        .ok (m.withdrawals.map withdrawalOut) :=
  traverse_of_forall (fun w hw => payment_eq_ok.mpr ⟨hm.withdrawals w hw, rfl⟩)

theorem traverse_unstakes (hm : m.Resolved) :
    traverseList (fun u => payment u.amount u.address :
      IpcUnstake → Outcome IpcLibError TxOut) m.unstakes = .ok (m.unstakes.map unstakeOut) :=
  traverse_of_forall (fun u hu => payment_eq_ok.mpr ⟨hm.unstakes u hu, rfl⟩)

theorem ends_checkpointOutputs (hm : m.Resolved)
    (haddress : committee.multisigAddress.isValidForNetwork = true) :
    Ends (m.checkpointOutputs X σ committee feeRate) ↔
      (m.hasBatch = true → BatchFits X m σ feeRate committee.multisigAddress) := by
  rw [← ends_batchOutputs hm haddress]
  obtain ⟨out, hout⟩ := exists_metadataTxOut (X := X) feeRate hm
  unfold checkpointOutputs
  rw [hout, ok_bind, traverse_withdrawals hm, ok_bind]
  constructor
  · intro h
    exact (endures_bind.mp h).1
  · intro h
    refine Endures.bind h (fun _ _ => ?_)
    rw [traverse_unstakes hm]
    trivial

/-- Where the batch fits, the outputs that are asked for are computed. -/
theorem checkpointOutputs_eq_ok_iff (hm : m.Resolved)
    (haddress : committee.multisigAddress.isValidForNetwork = true)
    (hfits : m.hasBatch = true → BatchFits X m σ feeRate committee.multisigAddress)
    {outs : List TxOut} :
    m.checkpointOutputs X σ committee feeRate = .ok outs ↔
      m.laidOut X σ feeRate committee.multisigAddress = some outs := by
  constructor
  · exact checkpointOutputs_requested
  · intro h
    obtain ⟨batch, hbatch, -⟩ := Option.map_eq_some_iff.mp h
    obtain ⟨batch, hbatch⟩ := exists_batchOutputs hm haddress hfits hbatch
    obtain ⟨out, hout⟩ := exists_metadataTxOut (X := X) feeRate hm
    obtain ⟨outs', houts'⟩ : ∃ outs', m.checkpointOutputs X σ committee feeRate = .ok outs' :=
      ⟨_, bind_eq_ok.mpr ⟨out, hout, bind_eq_ok.mpr ⟨_, traverse_withdrawals hm,
        bind_eq_ok.mpr ⟨batch, hbatch, bind_eq_ok.mpr ⟨_, traverse_unstakes hm, rfl⟩⟩⟩⟩⟩
    rw [houts', ← Option.some.inj ((checkpointOutputs_requested houts').symm.trans h)]

section Shares

variable {change total : Amount}

theorem raises_subAmount {ε : Type} {Q : ε → Prop} (a b : Amount) :
    Raises Q (subAmount a b : Outcome ε Amount) := by
  unfold subAmount
  split_ifs
  · exact raises_ok _
  · exact raises_panicked

theorem raises_sumAmounts {ε : Type} {Q : ε → Prop} (l : List Amount) :
    Raises Q (sumAmounts l : Outcome ε Amount) := by
  unfold sumAmounts
  split_ifs
  · exact raises_ok _
  · exact raises_panicked

theorem raises_shareChange {Q : IpcLibError → Prop} {us : List IpcUnstake} {os : List TxOut}
    {distributed : Amount} : Raises Q (shareChange change total distributed us os) := by
  induction us generalizing distributed os with
  | nil => exact raises_ok _
  | cons u us ih =>
    cases os with
    | nil =>
      cases us with
      | nil => exact raises_ok _
      | cons u' us => exact raises_ok _
    | cons o os =>
      cases us with
      | nil =>
        exact (raises_subAmount _ _).bind (fun _ => (raises_addAmount _ _).bind
          (fun _ => raises_ok _))
      | cons u' us =>
        exact (raises_addAmount _ _).bind (fun _ => (raises_addAmount _ _).bind
          (fun _ => ih.bind (fun _ => raises_ok _)))

theorem raises_redistribute {Q : IpcLibError → Prop} {outs : List TxOut} :
    Raises Q (m.redistribute change outs) := by
  refine (raises_sumAmounts _).bind (fun _ => ?_)
  dsimp only
  split_ifs
  · exact raises_shareChange.bind (fun _ => raises_ok _)
  · exact raises_ok _

/-- Unstakes of nothing share nothing. -/
theorem redistribute_of_nothing {outs : List TxOut}
    (h : (m.unstakes.map IpcUnstake.amount).sum = 0) : m.redistribute change outs = .ok outs := by
  unfold redistribute
  rw [sumAmounts_eq_ok.mpr ⟨h ▸ (by decide : 0 < amountBound), rfl⟩, ok_bind]
  dsimp only
  rw [if_neg (fun hpos => absurd h (Nat.ne_of_gt hpos))]
  rfl

/-- The shares that were paid do not exceed the change. -/
theorem sharesBeforeLast_le {us : List IpcUnstake} {os os' : List TxOut} {distributed : Amount}
    (hlen : us.length = os.length) (hne : us ≠ [])
    (h : shareChange change total distributed us os = .ok os') :
    distributed + sharesBeforeLast change total us ≤ change := by
  induction us generalizing distributed os os' with
  | nil => exact absurd rfl hne
  | cons u us ih =>
    obtain ⟨o, rest, rfl⟩ := List.exists_cons_of_length_eq_add_one hlen.symm
    cases us with
    | nil =>
      obtain ⟨_, hsub, -⟩ := bind_eq_ok.mp h
      exact (subAmount_eq_ok.mp hsub).1
    | cons u' us =>
      obtain ⟨_, -, h⟩ := bind_eq_ok.mp h
      obtain ⟨d, hd, h⟩ := bind_eq_ok.mp h
      obtain ⟨os, hos, -⟩ := bind_eq_ok.mp h
      obtain ⟨-, rfl⟩ := addAmount_eq_ok.mp hd
      have hle := ih (by simpa using hlen) (List.cons_ne_nil _ _) hos
      rw [Nat.add_assoc] at hle
      exact hle

/-- A change that is shared without a panic leaves something for the last share. -/
theorem shares_of_redistribute {front us : List TxOut} (hlen : us.length = m.unstakes.length)
    (hne : m.unstakes ≠ []) (hsum : (m.unstakes.map IpcUnstake.amount).sum < amountBound)
    (hpos : 0 < (m.unstakes.map IpcUnstake.amount).sum)
    (h : Ends (m.redistribute change (front ++ us))) :
    sharesBeforeLast change (m.unstakes.map IpcUnstake.amount).sum m.unstakes ≤ change ∧
      ∃ final, m.redistribute change (front ++ us) = .ok final := by
  unfold redistribute at h ⊢
  rw [sumAmounts_eq_ok.mpr ⟨hsum, rfl⟩, ok_bind] at h ⊢
  dsimp only at h ⊢
  rw [if_pos hpos, redistribute_start hlen, List.drop_left] at h ⊢
  obtain ⟨shared, hshared⟩ := (ends_iff_ok raises_shareChange).mp (endures_bind.mp h).1
  have hle := sharesBeforeLast_le hlen.symm hne hshared
  rw [Nat.zero_add] at hle
  exact ⟨hle, _, bind_eq_ok.mpr ⟨shared, hshared, rfl⟩⟩

end Shares

section Psbts

variable {unspent : List Utxo} {outs front : List TxOut} {tx : Transaction} {found : Amount}

/-- The amounts and the fees of the transaction for some outputs are computed. -/
abbrev FitsFor (X : Library) (m : IpcCheckpointSubnetMsg) (committee next : SubnetCommittee)
    (feeRate : FeeRate) (unspent : List Utxo) (outs : List TxOut) : Prop :=
  SpendFits X committee.validatorWeightedKeys committee.threshold next.multisigAddress unspent
    (!committee.sameAs next || m.isKillCheckpoint) outs feeRate checkpointConsolidationLimit

theorem ends_spendFor :
    Ends (spendFor X m committee next feeRate unspent outs) ↔
      FitsFor X m committee next feeRate unspent outs := by
  unfold spendFor
  exact endures_mapErr.trans ends_constructSpendUnsignedTransaction

theorem fitsFor_kill (hkill : m.isKillCheckpoint = true) :
    FitsFor X m committee next feeRate unspent outs ↔
      SweepFits X (multisigSpendMaxWitnessSize committee.validatorWeightedKeys
        committee.threshold) next.multisigAddress unspent outs feeRate := by
  rw [FitsFor, SpendFits, hkill, Bool.or_true, if_pos rfl]

/-- The change is shared and the transaction built again without a panic when the shares before
the last leave something of it and the outputs with it still fit. -/
theorem ends_rebuild (hweight : OutputWeightLaws X) (hkill : m.isKillCheckpoint = true)
    (hne : m.unstakes ≠ []) (hlayout : outs = front ++ m.unstakes.map unstakeOut)
    (hfirst : spendFor X m committee next feeRate unspent outs = .ok tx) :
    (Ends (m.redistribute found outs) ∧
      ∀ final, m.redistribute found outs = .ok final →
        FitsFor X m committee next feeRate unspent final) ↔
      (0 < (m.unstakes.map IpcUnstake.amount).sum →
        sharesBeforeLast found (m.unstakes.map IpcUnstake.amount).sum m.unstakes ≤ found ∧
        valueOf outs + found < amountBound) := by
  obtain ⟨hunspent, hworth, fee, hfee, hcover, -⟩ :=
    sweepTransaction_eq_ok.mp ((spendFor_kill hkill).mp hfirst)
  have hlen : (m.unstakes.map unstakeOut).length = m.unstakes.length := List.length_map _
  have hvalue : valueOf outs = valueOf front + (m.unstakes.map IpcUnstake.amount).sum := by
    rw [hlayout, valueOf_append, valueOf_unstakeOut]
  have hsum : (m.unstakes.map IpcUnstake.amount).sum < amountBound := by
    refine lt_of_le_of_lt ?_ (lt_of_le_of_lt (le_trans (Nat.le_add_right _ _) hcover) hworth)
    rw [hvalue]
    exact Nat.le_add_left _ _
  constructor
  · rintro ⟨hends, hfinal⟩ hpos
    rw [hlayout] at hends hfinal
    obtain ⟨hle, final, hredistribute⟩ := shares_of_redistribute hlen hne hsum hpos hends
    have hfits := (fitsFor_kill hkill).mp (hfinal final hredistribute) hunspent
    obtain ⟨us, rfl, -, hus⟩ := redistribute_values hlen hne hpos hredistribute
    refine ⟨hle, ?_⟩
    have hbound := hfits.2.1
    rw [valueOf_append, hus, valueOf_unstakeOut, ← Nat.add_assoc, ← hvalue] at hbound
    exact hbound
  · intro h
    by_cases hpos : 0 < (m.unstakes.map IpcUnstake.amount).sum
    · obtain ⟨hle, hbound⟩ := h hpos
      have hbound' : valueOf (m.unstakes.map unstakeOut) + found < amountBound := by
        refine lt_of_le_of_lt ?_ hbound
        rw [hvalue, valueOf_unstakeOut, Nat.add_assoc]
        exact Nat.le_add_left _ _
      obtain ⟨final, hfinal⟩ : ∃ final,
          m.redistribute found (front ++ m.unstakes.map unstakeOut) = .ok final :=
        exists_redistributed hlen hne hsum hle hbound'
      obtain ⟨us, rfl, hscripts, hus⟩ := redistribute_values hlen hne hpos hfinal
      rw [← hlayout] at hfinal
      rw [hfinal]
      refine ⟨trivial, ?_⟩
      intro final' hfinal'
      rw [← Except.ok.inj hfinal']
      refine (fitsFor_kill hkill).mpr (fun _ => ⟨hworth, ?_, fun _ => ?_⟩)
      · rw [valueOf_append, hus, valueOf_unstakeOut, ← Nat.add_assoc, ← hvalue]
        exact hbound
      · have hsame : (front ++ us).map TxOut.scriptPubkey = outs.map TxOut.scriptPubkey := by
          rw [hlayout, List.map_append, List.map_append, hscripts]
        rw [sweepFee_congr hweight hsame, hfee]
        rfl
    · rw [redistribute_of_nothing (Nat.le_zero.mp (not_lt.mp hpos))]
      refine ⟨trivial, ?_⟩
      intro final hfinal
      rw [← Except.ok.inj hfinal]
      refine ends_spendFor.mp ?_
      rw [hfirst]
      trivial

theorem foundChange_eq_supposed (hkill : m.isKillCheckpoint = true)
    (hfirst : spendFor X m committee next feeRate unspent outs = .ok tx) :
    foundChange next tx = supposedChange X committee next feeRate unspent outs := by
  obtain ⟨changes, hout, hchanges⟩ :=
    constructSpendUnsignedTransaction_outputs (mapErr_eq_ok.mp hfirst)
  rw [foundChange_eq hout (fun c hc => (hchanges c hc).1), changeValue_eq_leftover hkill hfirst]
  rfl

theorem covered_iff (hfits : SweepFits X (multisigSpendMaxWitnessSize
    committee.validatorWeightedKeys committee.threshold) next.multisigAddress unspent outs feeRate) :
    Covered X committee next feeRate unspent outs 0 ↔
      ∃ tx, sweepTransaction X (multisigSpendMaxWitnessSize committee.validatorWeightedKeys
        committee.threshold) next.multisigAddress unspent outs feeRate = .ok tx := by
  constructor
  · rintro ⟨hne, fee, hfee, hcover⟩
    exact ⟨_, sweepTransaction_eq_ok.mpr ⟨hne, (hfits hne).1, fee, hfee, hcover, rfl⟩⟩
  · rintro ⟨tx, htx⟩
    obtain ⟨hne, -, fee, hfee, hcover, -⟩ := sweepTransaction_eq_ok.mp htx
    exact ⟨hne, fee, hfee, hcover⟩

/-- A wallet whose sums are amounts pays the outputs exactly if the transaction is built. -/
theorem payable_iff (hfits : FitsFor X m committee next feeRate unspent outs) :
    Payable X committee next feeRate unspent outs m ↔
      ∃ tx, spendFor X m committee next feeRate unspent outs = .ok tx := by
  unfold Payable spendFor constructSpendUnsignedTransaction
  unfold FitsFor SpendFits at hfits
  simp only [mapErr_eq_ok]
  by_cases hexhaust : (!committee.sameAs next || m.isKillCheckpoint) = true
  · simp only [if_pos hexhaust] at hfits ⊢
    exact covered_iff hfits
  · simp only [if_neg hexhaust] at hfits ⊢
    obtain ⟨hout, hselection⟩ := hfits
    refine (selects_iff hselection).symm.trans ?_
    constructor
    · rintro ⟨⟨selected, change⟩, hselect⟩
      exact ⟨_, bind_eq_ok.mpr ⟨_, sumAmounts_eq_ok.mpr ⟨hout, rfl⟩,
        bind_eq_ok.mpr ⟨_, hselect, rfl⟩⟩⟩
    · rintro ⟨tx, htx⟩
      obtain ⟨_, hamount, htx⟩ := bind_eq_ok.mp htx
      obtain ⟨r, hselect, -⟩ := bind_eq_ok.mp htx
      obtain ⟨-, rfl⟩ := sumAmounts_eq_ok.mp hamount
      exact ⟨r, hselect⟩

theorem payable_kill (hkill : m.isKillCheckpoint = true) :
    Payable X committee next feeRate unspent outs m ↔
      Covered X committee next feeRate unspent outs 0 := by
  rw [Payable, if_pos]
  rw [hkill, Bool.or_true]

/-- What is computed for the psbt of a message stays in its bounds: the batch, the transaction
and, for a kill checkpoint, the shares of the change. -/
structure PsbtFits (X : Library) (m : IpcCheckpointSubnetMsg) (σ : MapOrders)
    (committee next : SubnetCommittee) (feeRate : FeeRate) (unspent : List Utxo) : Prop where
  batch : m.hasBatch = true → BatchFits X m σ feeRate committee.multisigAddress
  spend : ∀ outs, m.laidOut X σ feeRate committee.multisigAddress = some outs →
    FitsFor X m committee next feeRate unspent outs
  shares : ∀ outs, m.laidOut X σ feeRate committee.multisigAddress = some outs →
    Covered X committee next feeRate unspent outs 0 →
    SharesChange X committee next feeRate unspent outs m →
    sharesBeforeLast (supposedChange X committee next feeRate unspent outs)
        (m.unstakes.map IpcUnstake.amount).sum m.unstakes ≤
      supposedChange X committee next feeRate unspent outs ∧
    valueOf outs + supposedChange X committee next feeRate unspent outs < amountBound

theorem ends_toCheckpointPsbt (hweight : OutputWeightLaws X) {script : Script} (hm : m.Resolved)
    (hcommittee : committee.multisigAddress.isValidForNetwork = true)
    (hnext : next.multisigAddress.isValidForNetwork = true)
    (hscript : createMultisigScript committee.validatorWeightedKeys committee.threshold =
      .ok script) :
    Ends (m.toCheckpointPsbt X σ committee next feeRate unspent) ↔
      PsbtFits X m σ committee next feeRate unspent := by
  obtain ⟨t, ht⟩ := hm.own
  have hid : (m.subnetId.txid20 : Outcome MultisigError Txid20) = .ok t := by
    rw [ht]
    exact SubnetId.txid20_fromTxid20 t
  have hpsbt : ∀ outs, Ends (mapErr IpcLibError.multisigError (constructSpendPsbt X m.subnetId
      committee.validatorWeightedKeys committee.threshold next.multisigAddress unspent
      (!committee.sameAs next || m.isKillCheckpoint) outs feeRate checkpointConsolidationLimit)) ↔
      FitsFor X m committee next feeRate unspent outs :=
    fun outs => endures_mapErr.trans (ends_constructSpendPsbt hscript hid)
  have hspend : ∀ outs, mapErr IpcLibError.multisigError (constructSpendUnsignedTransaction X
      committee.validatorWeightedKeys committee.threshold next.multisigAddress unspent
      (!committee.sameAs next || m.isKillCheckpoint) outs feeRate checkpointConsolidationLimit) =
      spendFor X m committee next feeRate unspent outs := fun _ => rfl
  unfold toCheckpointPsbt
  rw [Address.requireNetwork_eq_ok.mpr ⟨hnext, rfl⟩, ok_bind]
  simp only [hspend]
  constructor
  · intro h
    obtain ⟨houts, h⟩ := endures_bind.mp h
    have hbatch := (ends_checkpointOutputs hm hcommittee).mp houts
    have hmade : ∀ {outs}, m.laidOut X σ feeRate committee.multisigAddress = some outs →
        m.checkpointOutputs X σ committee feeRate = .ok outs :=
      fun hlaid => (checkpointOutputs_eq_ok_iff hm hcommittee hbatch).mpr hlaid
    refine ⟨hbatch, ?_, ?_⟩
    · intro outs hlaid
      exact ends_spendFor.mp (endures_bind.mp (h outs (hmade hlaid))).1
    · rintro outs hlaid hcovered ⟨hkill, hne, hfound, hpos⟩
      obtain ⟨hfits, h⟩ := endures_bind.mp (h outs (hmade hlaid))
      obtain ⟨tx, htx⟩ := (payable_iff (ends_spendFor.mp hfits)).mp
        ((payable_kill hkill).mpr hcovered)
      have h := h tx htx
      rw [← foundChange_eq_supposed hkill htx] at hfound ⊢
      obtain ⟨_, _, -, -, -, hlayout⟩ := checkpointOutputs_eq_ok (hmade hlaid)
      rw [if_pos ⟨hkill, hfound, hne⟩] at h
      obtain ⟨hshared, h⟩ := endures_bind.mp h
      have hrebuilt : ∀ final, m.redistribute (foundChange next tx) outs = .ok final →
          FitsFor X m committee next feeRate unspent final := by
        intro final hfinal
        exact ends_spendFor.mp (endures_bind.mp (h final hfinal)).1
      exact (ends_rebuild hweight hkill hne hlayout htx).mp ⟨hshared, hrebuilt⟩ hpos
  · intro h
    refine Endures.bind ((ends_checkpointOutputs hm hcommittee).mpr h.batch) (fun outs houts => ?_)
    have hlaid := checkpointOutputs_requested houts
    have hfits := h.spend outs hlaid
    refine Endures.bind (ends_spendFor.mpr hfits) (fun tx htx => ?_)
    split_ifs with hcase
    · obtain ⟨hkill, hfound, hne⟩ := hcase
      obtain ⟨_, _, -, -, -, hlayout⟩ := checkpointOutputs_eq_ok houts
      have hsame := foundChange_eq_supposed hkill htx
      have hcovered := (payable_kill hkill).mp ((payable_iff hfits).mpr ⟨tx, htx⟩)
      have hshares := fun hpos => h.shares outs hlaid hcovered ⟨hkill, hne, hsame ▸ hfound, hpos⟩
      rw [← hsame] at hshares
      obtain ⟨hshared, hrebuilt⟩ := (ends_rebuild hweight hkill hne hlayout htx).mpr hshares
      refine Endures.bind hshared (fun final hfinal => ?_)
      refine Endures.bind (ends_spendFor.mpr (hrebuilt final hfinal)) (fun _ _ => ?_)
      exact (hpsbt final).mpr (hrebuilt final hfinal)
    · exact (hpsbt outs).mpr hfits

/-- The transaction with the shared change is built if the wallet pays the change as well. -/
theorem shared_paid_iff (hweight : OutputWeightLaws X) (hkill : m.isKillCheckpoint = true)
    (hne : m.unstakes ≠ []) (hpos : 0 < (m.unstakes.map IpcUnstake.amount).sum)
    (hlayout : outs = front ++ m.unstakes.map unstakeOut)
    (hfits : FitsFor X m committee next feeRate unspent outs)
    {final : List TxOut} (hfinal : m.redistribute found outs = .ok final) :
    (∃ tx, spendFor X m committee next feeRate unspent final = .ok tx) ↔
      Covered X committee next feeRate unspent outs found := by
  rw [hlayout] at hfinal
  obtain ⟨us, rfl, hscripts, hus⟩ := redistribute_values (List.length_map _) hne hpos hfinal
  have hvalue : valueOf (front ++ us) = valueOf outs + found := by
    rw [hlayout, valueOf_append, valueOf_append, hus, Nat.add_assoc]
  have hsame : (front ++ us).map TxOut.scriptPubkey = outs.map TxOut.scriptPubkey := by
    rw [hlayout, List.map_append, List.map_append, hscripts]
  simp only [spendFor_kill hkill, sweepTransaction_eq_ok, sweepFee_congr hweight hsame, hvalue]
  constructor
  · rintro ⟨tx, hunspent, -, fee, hfee, hcover, -⟩
    exact ⟨hunspent, fee, hfee, hcover⟩
  · rintro ⟨hunspent, fee, hfee, hcover⟩
    exact ⟨_, hunspent, ((fitsFor_kill hkill).mp hfits hunspent).1, fee, hfee, hcover, rfl⟩

/-- The outputs that the wallet pays, before and after the change is shared, are made and spent. -/
theorem exists_final_paid (hweight : OutputWeightLaws X)
    (hfits : PsbtFits X m σ committee next feeRate unspent)
    (houts : m.checkpointOutputs X σ committee feeRate = .ok outs)
    (hpay : Payable X committee next feeRate unspent outs m)
    (hchange : SharesChange X committee next feeRate unspent outs m →
      Covered X committee next feeRate unspent outs
        (supposedChange X committee next feeRate unspent outs)) :
    ∃ final tx, m.finalOutputs X σ committee next feeRate unspent = .ok final ∧
      spendFor X m committee next feeRate unspent final = .ok tx := by
  have hlaid := checkpointOutputs_requested houts
  obtain ⟨tx, htx⟩ := (payable_iff (hfits.spend outs hlaid)).mp hpay
  by_cases hshared : m.isKillCheckpoint = true ∧ m.unstakes ≠ []
  · obtain ⟨hkill, hne⟩ := hshared
    rw [finalOutputs_kill hkill hne houts htx, foundChange_eq_supposed hkill htx]
    split_ifs with hfound
    · have hcovered := (payable_kill hkill).mp hpay
      have hshares := fun hpos => hfits.shares outs hlaid hcovered ⟨hkill, hne, hfound, hpos⟩
      obtain ⟨_, _, -, -, -, hlayout⟩ := checkpointOutputs_eq_ok houts
      obtain ⟨final, hfinal⟩ := (ends_iff_ok raises_redistribute).mp
        ((ends_rebuild hweight hkill hne hlayout htx).mpr hshares).1
      by_cases hpos : 0 < (m.unstakes.map IpcUnstake.amount).sum
      · obtain ⟨tx', htx'⟩ := (shared_paid_iff hweight hkill hne hpos hlayout
          (hfits.spend outs hlaid) hfinal).mpr (hchange ⟨hkill, hne, hfound, hpos⟩)
        exact ⟨final, tx', hfinal, htx'⟩
      · have hzero := Nat.le_zero.mp (not_lt.mp hpos)
        exact ⟨outs, tx, redistribute_of_nothing hzero, htx⟩
    · exact ⟨outs, tx, rfl, htx⟩
  · refine ⟨outs, tx, ?_, htx⟩
    rw [finalOutputs, houts, ok_bind, htx, ok_bind]
    dsimp only
    exact if_neg (fun h => hshared ⟨h.1, h.2.2⟩)

/-- What fits is built exactly if the wallet pays it. -/
theorem built_iff (hweight : OutputWeightLaws X) {script : Script} (hm : m.Resolved)
    (hcommittee : committee.multisigAddress.isValidForNetwork = true)
    (hnext : next.multisigAddress.isValidForNetwork = true)
    (hscript : createMultisigScript committee.validatorWeightedKeys committee.threshold =
      .ok script) (hfits : PsbtFits X m σ committee next feeRate unspent) :
    (∃ psbt, m.toCheckpointPsbt X σ committee next feeRate unspent = .ok psbt) ↔
      Built X m σ committee next feeRate unspent := by
  constructor
  · rintro ⟨psbt, hpsbt⟩
    obtain ⟨-, final, hfinal, hpsbt⟩ := toCheckpointPsbt_eq_ok_iff.mp hpsbt
    have hspend : spendFor X m committee next feeRate unspent final = .ok psbt.unsignedTx :=
      mapErr_eq_ok.mpr (constructSpendPsbt_tx hpsbt)
    obtain ⟨outs, houts, hrest⟩ := bind_eq_ok.mp hfinal
    obtain ⟨tx, htx, -⟩ := bind_eq_ok.mp hrest
    have hlaid := checkpointOutputs_requested houts
    refine ⟨outs, hlaid, (payable_iff (hfits.spend outs hlaid)).mpr ⟨tx, htx⟩, ?_⟩
    rintro ⟨hkill, hne, hfound, hpos⟩
    obtain ⟨_, _, -, -, -, hlayout⟩ := checkpointOutputs_eq_ok houts
    rw [finalOutputs_kill hkill hne houts htx, foundChange_eq_supposed hkill htx,
      if_pos hfound] at hfinal
    exact (shared_paid_iff hweight hkill hne hpos hlayout (hfits.spend outs hlaid) hfinal).mp
      ⟨_, hspend⟩
  · rintro ⟨outs, hlaid, hpay, hchange⟩
    have houts := (checkpointOutputs_eq_ok_iff hm hcommittee hfits.batch).mpr hlaid
    obtain ⟨t, ht⟩ := hm.own
    have hid : (m.subnetId.txid20 : Outcome MultisigError Txid20) = .ok t := by
      rw [ht]
      exact SubnetId.txid20_fromTxid20 t
    obtain ⟨final, tx, hfinal, hspend⟩ := exists_final_paid hweight hfits houts hpay hchange
    obtain ⟨psbt, hpsbt, -⟩ := exists_psbt_of_final hnext hid hscript hfinal hspend
    exact ⟨psbt, hpsbt⟩

end Psbts

end IpcCheckpointSubnetMsg

end Messages
