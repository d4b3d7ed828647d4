import BitcoinIpc.BatchRoundTrip
import BitcoinIpc.NextCommittee
import BitcoinIpc.RequestAcceptance
import BitcoinIpc.TokenApplication

/-!
# The monitor on a reveal of the provider

The reveal of a checkpoint is found as a batch transfer whose records are those
of the checkpoint, listed destination by destination. Which output it spends is
not looked at. Its fields are checked more strictly than the provider checks
those of the request, and its transfers are counted against a counter of one
byte.
-/

namespace Messages

open Faults Bytes Chain Crates Multisig Db Grouping

/-- What a token transfer carries besides its destination. -/
def IpcCrossSubnetErcTransfer.wire (e : IpcCrossSubnetErcTransfer) :
    IpcCrossSubnetErcTransferWire :=
  ⟨e.homeSubnetId, e.homeTokenAddress, e.amount, e.recipient⟩

/-- The fields of a native transfer that are revealed. -/
def IpcCrossSubnetTransfer.revealed (t : IpcCrossSubnetTransfer) :
    SubnetId × EthAddress × Amount :=
  (t.destinationSubnetId, t.subnetUserAddress, t.amount)

/-- The batch has the records of the checkpoint in some order. -/
structure Regrouped (m : IpcCheckpointSubnetMsg) (b : IpcBatchTransferMsg) : Prop where
  registrations : b.tokenRegistrations = m.tokenRegistrations
  adjustments : b.tokenSupplyAdjustments = m.tokenSupplyAdjustments
  transfers : (b.transfers.map (·.revealed)).Perm (m.transfers.map (·.revealed))
  native : ∀ id, nativeRecords b.transfers id = nativeRecords m.transfers id
  wires : (b.tokenTransfers.map (·.wire)).Perm (m.tokenTransfers.map (·.wire))
  named : ∀ e ∈ b.tokenTransfers, e.destinationSubnetId.InNamespace
  erc : (∀ e ∈ m.tokenTransfers, e.destinationSubnetId.InNamespace) →
    (b.tokenTransfers.Perm m.tokenTransfers ∧
      ∀ id, ercRecords b.tokenTransfers id = ercRecords m.tokenTransfers id)

section Reveal

variable {X : Library} {m : IpcCheckpointSubnetMsg} {σ : MapOrders} {db : HeedDb}

/-- A list of transfers is determined by their destinations and what they carry. -/
theorem perm_of_addressed {l l' : List IpcCrossSubnetErcTransfer}
    (h : (l.map (fun e => (e.destinationSubnetId, e.wire))).Perm
      (l'.map (fun e => (e.destinationSubnetId, e.wire)))) : l.Perm l' := by
  have hback := h.map (fun a : SubnetId × IpcCrossSubnetErcTransferWire =>
    (⟨a.2.homeSubnetId, a.2.homeTokenAddress, a.2.amount, a.1, a.2.recipient⟩ :
      IpcCrossSubnetErcTransfer))
  rw [List.map_map, List.map_map] at hback
  simpa [Function.comp_def, IpcCrossSubnetErcTransfer.wire] using hback

section Entries

variable {natives : List (Txid20 × EthAddress × Amount)}
  {ercs : List (Txid20 × IpcCrossSubnetErcTransferWire)}

theorem revealed_perm (σ : MapOrders) (native : HashOrder Txid20)
    (h : List.Forall₂ (fun t e => (IpcCheckpointSubnetMsg.nativeEntry t :
      Outcome IpcLibError _) = .ok e) m.transfers natives)
    (hns : ∀ t ∈ m.transfers, t.destinationSubnetId.InNamespace)
    (hdest : ∀ t ∈ m.transfers, (db.getSubnetState X t.destinationSubnetId).isSome = true) :
    (((latest native (grouped σ.native natives)).flatMap
      (IpcBatchTransferMsg.nativeTransfers X db)).map (·.revealed)).Perm
        (m.transfers.map (·.revealed)) := by
  have hkeys := destinations_exist σ native h hns hdest
  have hrows : ((latest native (grouped σ.native natives)).flatMap
      (IpcBatchTransferMsg.nativeTransfers X db)).map (·.revealed) = (ungrouped (latest native
        (grouped σ.native natives))).map (Prod.map SubnetId.fromTxid20 id) :=
    map_flatMap_rows (fun e he => map_nativeTransfers (hkeys e he))
  have hentries : m.transfers.map (·.revealed) = natives.map (Prod.map SubnetId.fromTxid20 id) :=
    map_of_forall₂ h (fun t ht e hentry => nativeEntry_named hentry (hns t ht))
  rw [hrows, hentries]
  exact (ungrouped_latest_perm σ.native native natives).map _

/-- The token transfers that are read back are addressed to the ids that were written. -/
theorem addressed_perm (σ : MapOrders) (erc : HashOrder Txid20)
    (ercs : List (Txid20 × IpcCrossSubnetErcTransferWire)) :
    (((latest erc (grouped σ.erc ercs)).flatMap IpcBatchTransferMsg.ercTransfers).map
      (fun e => (e.destinationSubnetId, e.wire))).Perm
      (ercs.map (Prod.map SubnetId.fromTxid20 id)) := by
  have hrows : ((latest erc (grouped σ.erc ercs)).flatMap IpcBatchTransferMsg.ercTransfers).map
      (fun e => (e.destinationSubnetId, e.wire)) =
        (ungrouped (latest erc (grouped σ.erc ercs))).map (Prod.map SubnetId.fromTxid20 id) :=
    map_flatMap_rows (fun e _ => map_ercTransfers e)
  rw [hrows]
  exact (ungrouped_latest_perm σ.erc erc ercs).map _

theorem wires_perm (σ : MapOrders) (erc : HashOrder Txid20)
    (h : List.Forall₂ (fun t e => (IpcCheckpointSubnetMsg.ercEntry t :
      Outcome IpcLibError _) = .ok e) m.tokenTransfers ercs) :
    (((latest erc (grouped σ.erc ercs)).flatMap IpcBatchTransferMsg.ercTransfers).map
      (·.wire)).Perm (m.tokenTransfers.map (·.wire)) := by
  have hentries : m.tokenTransfers.map (·.wire) = ercs.map Prod.snd := by
    refine map_of_forall₂ h (fun e _ entry hentry => ?_)
    obtain ⟨k, -, hentry⟩ := bind_eq_ok.mp hentry
    cases hentry
    rfl
  have hsnd := (addressed_perm σ erc ercs).map Prod.snd
  rw [List.map_map, List.map_map] at hsnd
  rw [hentries]
  exact hsnd

end Entries

/-- A checkpoint with a batch leaves records in it. -/
theorem records_of_hasBatch {ts : List IpcCrossSubnetTransfer} {es : List IpcCrossSubnetErcTransfer}
    (hbatch : m.hasBatch = true)
    (hpaid : (ts.map (·.revealed)).Perm (m.transfers.map (·.revealed)))
    (hwires : (es.map (·.wire)).Perm (m.tokenTransfers.map (·.wire))) :
    ¬ (ts = [] ∧ m.tokenRegistrations = [] ∧ m.tokenSupplyAdjustments = [] ∧ es = []) := by
  rintro ⟨rfl, hregistrations, hadjustments, rfl⟩
  have hnone := List.map_eq_nil_iff.mp hpaid.symm.eq_nil
  have hnone' := List.map_eq_nil_iff.mp hwires.symm.eq_nil
  simp [IpcCheckpointSubnetMsg.hasBatch, hnone, hregistrations, hadjustments, hnone'] at hbatch

/-- What the monitor finds in the reveal of a checkpoint to subnets that exist. -/
theorem fromTx_reveal (codec : CodecLaws X) (native erc : HashOrder Txid20) {txid : Txid}
    {feeRate : FeeRate} {a : Address} {r : Transaction}
    (hns : ∀ t ∈ m.transfers, t.destinationSubnetId.InNamespace)
    (hdest : ∀ t ∈ m.transfers, (db.getSubnetState X t.destinationSubnetId).isSome = true)
    (hr : m.makeRevealBatchTransferTx X σ txid feeRate a = .ok (some r)) :
    ∃ b, IpcBatchTransferMsg.fromTx X native erc db r = .ok b ∧ b.checkpointTxid = txid ∧
      b.checkpointVout = 1 + m.withdrawals.length + m.unstakes.length ∧ Regrouped m b := by
  obtain ⟨hbatch, commit, witness, out, hmade, rfl⟩ :=
    IpcCheckpointSubnetMsg.makeRevealBatchTransferTx_eq_ok hr
  obtain ⟨data, hdata, -, hwitness, -⟩ := IpcCheckpointSubnetMsg.makeBatchedTransfer_eq_ok hmade
  obtain ⟨natives, ercs, binary, hnatives, hercs, rfl, hread⟩ := wireData_of_data codec hdata
  dsimp only at hwitness
  rw [hwitness, fromTx_revealTransaction hread]
  dsimp only
  have hpaid := revealed_perm σ native hnatives hns hdest
  have hwires := wires_perm σ erc hercs
  rw [ensure_pos (records_of_hasBatch hbatch hpaid hwires)]
  refine ⟨_, rfl, rfl, rfl, rfl, rfl, hpaid, nativeRecords_regrouped hnatives hns hdest, hwires,
    fun e he => named_of_ercTransfers he, fun hnamed => ⟨?_, ercRecords_regrouped hercs hnamed⟩⟩
  have hentries : m.tokenTransfers.map (fun e => (e.destinationSubnetId, e.wire)) =
      ercs.map (Prod.map SubnetId.fromTxid20 id) :=
    map_of_forall₂ hercs (fun t ht e hentry => ercEntry_named hentry (hnamed t ht))
  refine perm_of_addressed ?_
  rw [hentries]
  exact addressed_perm σ erc ercs

end Reveal

/-- What a batch that validates has. -/
structure IpcBatchTransferMsg.Valid (b : IpcBatchTransferMsg) : Prop where
  txid : b.checkpointTxid ≠ FixedBytes.zeros 32
  records : ¬ (b.transfers = [] ∧ b.tokenRegistrations = [] ∧ b.tokenSupplyAdjustments = [] ∧
    b.tokenTransfers = [])
  transfers : ∀ t ∈ b.transfers, t.amount ≠ 0 ∧ t.subnetUserAddress ≠ zeroEthAddress
  registrations : ∀ a ∈ b.tokenRegistrations,
    a.homeTokenAddress ≠ zeroEthAddress ∧ a.name ≠ [] ∧ a.symbol ≠ []
  tokenTransfers : ∀ e ∈ b.tokenTransfers,
    e.homeTokenAddress ≠ zeroEthAddress ∧ e.recipient ≠ zeroEthAddress ∧ e.amount ≠ 0

theorem ensureField_bind_eq_ok {p : Prop} [Decidable p] {field text : String}
    {x : Outcome IpcValidateError Unit} :
    (do ensureField p field text; x) = .ok () ↔ p ∧ x = .ok () := by
  rw [bind_eq_ok]
  constructor
  · rintro ⟨_, hp, hx⟩
    exact ⟨ensure_eq_ok.mp hp, hx⟩
  · rintro ⟨hp, hx⟩
    exact ⟨(), ensure_pos hp, hx⟩

theorem IpcBatchTransferMsg.validate_eq_ok {b : IpcBatchTransferMsg} :
    b.validate = .ok () ↔ b.Valid := by
  unfold IpcBatchTransferMsg.validate
  simp only [ensureField_bind_eq_ok]
  constructor
  · rintro ⟨htxid, h⟩
    obtain ⟨_, hrecords, h⟩ := bind_eq_ok.mp h
    obtain ⟨_, htransfers, h⟩ := bind_eq_ok.mp h
    obtain ⟨_, hregistrations, htokens⟩ := bind_eq_ok.mp h
    refine ⟨htxid, ensure_eq_ok.mp hrecords, ?_, ?_, ?_⟩
    · intro t ht
      obtain ⟨hamount, huser⟩ := ensureField_bind_eq_ok.mp (forEach_eq_ok.mp htransfers t ht)
      exact ⟨hamount, ensure_eq_ok.mp huser⟩
    · intro a ha
      obtain ⟨htoken, hrest⟩ := ensureField_bind_eq_ok.mp (forEach_eq_ok.mp hregistrations a ha)
      obtain ⟨hname, hsymbol⟩ := ensureField_bind_eq_ok.mp hrest
      exact ⟨htoken, hname, ensure_eq_ok.mp hsymbol⟩
    · intro e he
      obtain ⟨htoken, hrest⟩ := ensureField_bind_eq_ok.mp (forEach_eq_ok.mp htokens e he)
      obtain ⟨hrecipient, hamount⟩ := ensureField_bind_eq_ok.mp hrest
      exact ⟨htoken, hrecipient, ensure_eq_ok.mp hamount⟩
  · intro h
    refine ⟨h.txid, bind_eq_ok.mpr ⟨(), ensure_pos h.records, ?_⟩⟩
    refine bind_eq_ok.mpr ⟨(), forEach_eq_ok.mpr (fun t ht => ?_), ?_⟩
    · obtain ⟨hamount, huser⟩ := h.transfers t ht
      exact ensureField_bind_eq_ok.mpr ⟨hamount, ensure_pos huser⟩
    refine bind_eq_ok.mpr ⟨(), forEach_eq_ok.mpr (fun a ha => ?_),
      forEach_eq_ok.mpr (fun e he => ?_)⟩
    · obtain ⟨htoken, hname, hsymbol⟩ := h.registrations a ha
      exact ensureField_bind_eq_ok.mpr
        ⟨htoken, ensureField_bind_eq_ok.mpr ⟨hname, ensure_pos hsymbol⟩⟩
    · obtain ⟨htoken, hrecipient, hamount⟩ := h.tokenTransfers e he
      exact ensureField_bind_eq_ok.mpr
        ⟨htoken, ensureField_bind_eq_ok.mpr ⟨hrecipient, ensure_pos hamount⟩⟩

/-- What the monitor asks of the records of a checkpoint when they are revealed, besides the
amounts. -/
structure IpcCheckpointSubnetMsg.Complete (m : IpcCheckpointSubnetMsg) : Prop where
  users : ∀ t ∈ m.transfers, t.subnetUserAddress ≠ zeroEthAddress
  registrations : ∀ a ∈ m.tokenRegistrations,
    a.homeTokenAddress ≠ zeroEthAddress ∧ a.name ≠ [] ∧ a.symbol ≠ []
  tokenTransfers : ∀ e ∈ m.tokenTransfers,
    e.homeTokenAddress ≠ zeroEthAddress ∧ e.recipient ≠ zeroEthAddress

/-- A property of what is listed is one of what is listed in another order. -/
theorem forall_of_perm_map {α β γ : Type} {f : α → γ} {g : β → γ} {l : List α} {r : List β}
    (h : (l.map f).Perm (r.map g)) (p : γ → Prop) :
    (∀ a ∈ l, p (f a)) ↔ ∀ b ∈ r, p (g b) := by
  have hl : (∀ a ∈ l, p (f a)) ↔ ∀ c ∈ l.map f, p c := by simp
  have hr : (∀ b ∈ r, p (g b)) ↔ ∀ c ∈ r.map g, p c := by simp
  rw [hl, hr]
  exact forall_congr' (fun c => by rw [h.mem_iff])

/-- The fields of a revealed batch pass exactly when those of the checkpoint do. -/
theorem Regrouped.validate_iff {m : IpcCheckpointSubnetMsg} {b : IpcBatchTransferMsg}
    (h : Regrouped m b) (htxid : b.checkpointTxid ≠ FixedBytes.zeros 32)
    (hbatch : m.hasBatch = true) (hamounts : ∀ t ∈ m.transfers, t.amount ≠ 0)
    (htokens : ∀ e ∈ m.tokenTransfers, e.amount ≠ 0) : b.validate = .ok () ↔ m.Complete := by
  have htransfers := forall_of_perm_map h.transfers
    (fun a => a.2.2 ≠ 0 ∧ a.2.1 ≠ zeroEthAddress)
  have herc := forall_of_perm_map h.wires (fun w =>
    w.homeTokenAddress ≠ zeroEthAddress ∧ w.recipient ≠ zeroEthAddress ∧ w.amount ≠ 0)
  rw [IpcBatchTransferMsg.validate_eq_ok]
  constructor
  · intro hv
    refine ⟨fun t ht => (htransfers.mp hv.transfers t ht).2, ?_, fun e he => ?_⟩
    · exact h.registrations ▸ hv.registrations
    · obtain ⟨htoken, hrecipient, -⟩ := herc.mp hv.tokenTransfers e he
      exact ⟨htoken, hrecipient⟩
  · intro hc
    refine ⟨htxid, ?_, ?_, h.registrations ▸ hc.registrations, ?_⟩
    · rw [h.registrations, h.adjustments]
      exact records_of_hasBatch hbatch h.transfers h.wires
    · exact htransfers.mpr (fun t ht => ⟨hamounts t ht, hc.users t ht⟩)
    · exact herc.mpr (fun e he => ⟨(hc.tokenTransfers e he).1, (hc.tokenTransfers e he).2,
        htokens e he⟩)

/-- The checks on the token records look at no destination. -/
theorem validateErcBatchData_wires {X : Library} (laws : DisplayLaws X) {source : SubnetId}
    {registrations : List IpcErcTokenRegistration} {adjustments : List IpcErcSupplyAdjustment}
    {l l' : List IpcCrossSubnetErcTransfer} {db : HeedDb}
    (hperm : (l.map (·.wire)).Perm (l'.map (·.wire)))
    (h : validateErcBatchData X source registrations adjustments l db = .ok ()) :
    validateErcBatchData X source registrations adjustments l' db = .ok () := by
  set home : IpcCrossSubnetErcTransferWire → IpcCrossSubnetErcTransfer := fun w =>
    ⟨w.homeSubnetId, w.homeTokenAddress, w.amount, source, w.recipient⟩ with hhome
  have hsame : ∀ es : List IpcCrossSubnetErcTransfer,
      validateErcBatchData X source registrations adjustments ((es.map (·.wire)).map home) db =
        validateErcBatchData X source registrations adjustments es db := by
    intro es
    unfold validateErcBatchData
    simp only [List.foldlM_map]
    rfl
  rw [← hsame] at h ⊢
  exact TokenLedger.validateErcBatchData_perm laws (hperm.map home) h

theorem validateErcBatchData_congr {X : Library} {source : SubnetId}
    {registrations : List IpcErcTokenRegistration} {adjustments : List IpcErcSupplyAdjustment}
    {l : List IpcCrossSubnetErcTransfer} {db db' : HeedDb}
    (h : db'.tokenBalancesDb = db.tokenBalancesDb) :
    validateErcBatchData X source registrations adjustments l db' =
      validateErcBatchData X source registrations adjustments l db := by
  have hbalance : db'.getTokenBalance X = db.getTokenBalance X := by
    funext home token holder
    rw [HeedDb.getTokenBalance, h, HeedDb.getTokenBalance]
  have hregistration : checkRegistration X db' = checkRegistration X db := by
    funext source b r
    rw [checkRegistration, hbalance, checkRegistration]
  have hrunning : runningBalance X db' = runningBalance X db := by
    funext source home token b
    rw [runningBalance, hbalance, runningBalance]
  have hmint : checkMint X db' = checkMint X db := by
    funext source b a
    rw [checkMint, hrunning, checkMint]
  have hburn : checkBurn X db' = checkBurn X db := by
    funext source b a
    rw [checkBurn, hrunning, checkBurn]
  have htransfer : checkTransfer X db' = checkTransfer X db := by
    funext source b e
    rw [checkTransfer, hrunning, checkTransfer]
  rw [validateErcBatchData, hregistration, hmint, hburn, htransfer, validateErcBatchData]

/-- A batch whose records pass is saved for a source with a checkpoint. -/
theorem IpcBatchTransferMsg.exists_saved {X : Library} (laws : DisplayLaws X)
    {b : IpcBatchTransferMsg} {db : HeedDb} {s : SubnetState} {number : Nat} {c : SubnetCheckpoint}
    (o : Origin) (hs : db.getSubnetState X b.subnetId = some s)
    (hnumber : s.lastCheckpointNumber = some number)
    (hc : db.getCheckpoint X b.subnetId number = some c)
    (hcheck : validateErcBatchData X b.subnetId b.tokenRegistrations b.tokenSupplyAdjustments
      b.tokenTransfers db = .ok ()) : ∃ saved, b.saveToDb X db o = .ok saved := by
  obtain ⟨balances, hbalances⟩ := TokenLedger.checkRecords_eq_ok.mp hcheck
  set record : SubnetCheckpoint := { c with
    batchTransferTxid := some o.txid, batchTransferBlockHeight := some o.blockHeight }
  obtain ⟨d, hd, -⟩ := TokenLedger.applied_of_finalBalances (o := o) laws hbalances
    (d := db.saveCheckpoint X b.subnetId record (number + 1)) rfl
  refine ⟨(d, record), bind_eq_ok.mpr ⟨s, okOr_eq_ok.mpr hs, ?_⟩⟩
  refine bind_eq_ok.mpr ⟨number, okOr_eq_ok.mpr hnumber, ?_⟩
  refine bind_eq_ok.mpr ⟨c, okOr_eq_ok.mpr hc, ?_⟩
  refine bind_eq_ok.mpr ⟨(), mapErr_eq_ok.mpr hcheck, ?_⟩
  exact bind_eq_ok.mpr ⟨d, hd, rfl⟩

end Messages

namespace Monitor

open Faults Bytes Chain Messages Crates Multisig Db Grouping Commits Provider

variable {X : Library} {db : HeedDb} {m : IpcCheckpointSubnetMsg}

theorem concatenateOpPushData_controlBlock (hX : TransactionLaws X) (s : Script) :
    ∃ e, concatenateOpPushData (X.controlBlock s) = .error e := by
  obtain ⟨b, rest, heq, hb⟩ := hX.controlBlock_leaf s
  refine ⟨.unsupportedOpCode, ?_⟩
  rw [heq]
  rcases hb with rfl | rfl
  · rfl
  · rfl

/-- The data of a batch transfer is no message of the commit-reveal scheme. -/
theorem fromWitness_transfer (binary : List UInt8) :
    fromWitness X (tagBytes ipcTransferTag ++ binary) = none := by
  have htag : (tagBytes ipcTransferTag).length = ipcTagLength := by decide
  have hlong : ¬ (tagBytes ipcTransferTag ++ binary).length < ipcTagLength := by
    rw [List.length_append, htag]
    omega
  rw [fromWitness, if_neg hlong, List.take_left' htag, fromBytes_transferTag]

/-- No message is found in the witness of a reveal. -/
theorem witnessMessages_reveal (hX : TransactionLaws X) (p : OutPoint) (binary : List UInt8)
    (out : TxOut) :
    witnessMessages X (IpcCheckpointSubnetMsg.revealTransaction p
      [makePushDataScript (tagBytes ipcTransferTag ++ binary),
        X.controlBlock (makePushDataScript (tagBytes ipcTransferTag ++ binary))] out) = [] := by
  obtain ⟨e, he⟩ := concatenateOpPushData_controlBlock hX
    (makePushDataScript (tagBytes ipcTransferTag ++ binary))
  have hscript : witnessMessage X (makePushDataScript (tagBytes ipcTransferTag ++ binary)) =
      none := by
    unfold witnessMessage
    split_ifs
    · rfl
    · rw [concatenateOpPushData_make]
      exact fromWitness_transfer binary
  have hblock : witnessMessage X (X.controlBlock
      (makePushDataScript (tagBytes ipcTransferTag ++ binary))) = none := by
    unfold witnessMessage
    split_ifs
    · rfl
    · rw [he]
  simp [witnessMessages, IpcCheckpointSubnetMsg.revealTransaction, hscript, hblock]

theorem firstPush_p2trScript (k : FixedBytes 32) :
    firstPush (Address.p2trScript k) = some k.bytes := by
  simp [firstPush, instructionsMinimal, Address.p2trScript, readInstructions, takeDirect,
    k.length_eq]

/-- A transaction with a single output to a taproot key is no message of the outputs before
the batch transfer. -/
theorem found_single (ctx : BlockContext) (db : HeedDb) {tx : Transaction} {value : Amount}
    {k : FixedBytes 32} (hout : tx.output = [⟨value, Address.p2trScript k⟩]) :
    (firstParsed (outputParsers X ctx db tx) : Outcome MonitorError _) =
      firstParsed ((outputParsers X ctx db tx).drop 3) := by
  have hfunding : ∀ tag, ∃ e, fundingFromTx tag tx = raise e := by
    intro tag
    have hone : ¬ 2 ≤ tx.output.length := by
      rw [hout, List.length_singleton]
      omega
    unfold fundingFromTx
    rw [ensure_neg hone]
    exact ⟨_, rfl⟩
  have hprefund : ∃ e, IpcPrefundSubnetMsg.fromTx tx = raise e := bind_raise _ (hfunding _)
  have hfund : ∃ e, IpcFundSubnetMsg.fromTx tx = raise e := bind_raise _ (hfunding _)
  have hcheckpoint : ∃ e, IpcCheckpointSubnetMsg.fromCheckpointTx X db tx = raise e := by
    have hfirst : tx.output[0]? = some ⟨value, Address.p2trScript k⟩ := by
      rw [hout]
      rfl
    have hlen : ¬ k.bytes.length = IpcCheckpointSubnetMsg.dataLen := by
      rw [k.length_eq]
      decide
    unfold IpcCheckpointSubnetMsg.fromCheckpointTx
    rw [ensure_pos (by rw [hout]; exact List.cons_ne_nil _ _), ok_bind, opReturnData,
      index_eq_ok.mpr hfirst, ok_bind, okOr_eq_ok.mpr (firstPush_p2trScript k), ok_bind,
      ensure_neg hlen]
    exact ⟨_, rfl⟩
  unfold outputParsers
  rw [firstParsed_raise (map_raise _ hprefund), firstParsed_raise (map_raise _ hfund),
    firstParsed_raise (map_raise _ hcheckpoint)]
  rfl

/-- The reveal of a checkpoint is found as the batch transfer that is read from it. -/
theorem found_reveal (hX : TransactionLaws X) (ctx : BlockContext) {σ : MapOrders} {txid : Txid}
    {feeRate : FeeRate} {a : Address} {k : FixedBytes 32} {r : Transaction}
    {b : IpcBatchTransferMsg} (ha : a.scriptPubkey = Address.p2trScript k)
    (hr : m.makeRevealBatchTransferTx X σ txid feeRate a = .ok (some r))
    (hb : IpcBatchTransferMsg.fromTx X ctx.native ctx.erc db r = .ok b) :
    witnessMessages X r = [] ∧
      (firstParsed (outputParsers X ctx db r) : Outcome MonitorError _) =
        .ok (some (.batchTransfer b)) := by
  obtain ⟨-, commit, witness, out, hmade, rfl⟩ :=
    IpcCheckpointSubnetMsg.makeRevealBatchTransferTx_eq_ok hr
  obtain ⟨data, hdata, -, hwitness, hout⟩ := IpcCheckpointSubnetMsg.makeBatchedTransfer_eq_ok hmade
  obtain ⟨wire, -, hdata⟩ := bind_eq_ok.mp hdata
  obtain ⟨binary, -, hdata⟩ := bind_eq_ok.mp hdata
  cases hdata
  dsimp only at hwitness hout
  refine ⟨?_, ?_⟩
  · rw [hwitness]
    exact witnessMessages_reveal hX _ binary out
  · have hsingle : (IpcCheckpointSubnetMsg.revealTransaction
        ⟨txid, 1 + m.withdrawals.length + m.unstakes.length⟩ witness out).output =
          [⟨out.value, Address.p2trScript k⟩] := by
      rw [← ha, ← hout]
      rfl
    rw [found_single ctx db hsingle]
    simp only [outputParsers, List.drop_succ_cons, List.drop_zero, hb]
    rfl

/-- A batch is linked to a checkpoint that was built exactly when it has as many transfers as the
counter announces. -/
theorem validateForCheckpoint_iff {b : IpcBatchTransferMsg} {tx : Transaction} {value : Amount}
    {id : Txid20} {rest : List TxOut}
    (hout : tx.output = ⟨value, makeOpReturnScript (m.metadata id)⟩ :: rest)
    (htxid : b.checkpointTxid = X.computeTxid tx) (hvout : b.checkpointVout < tx.output.length) :
    b.validateForCheckpoint X tx = .ok () ↔ b.transfers.length = min m.transfers.length 255 := by
  have hhead : tx.output.head? = some ⟨value, makeOpReturnScript (m.metadata id)⟩ := by
    rw [hout]
    rfl
  rw [IpcBatchTransferMsg.validateForCheckpoint, ensure_pos htxid.symm, ok_bind, ensure_pos hvout,
    ok_bind, okOr_eq_ok.mpr hhead, ok_bind, IpcCheckpointSubnetMsg.extractMarkers_metadata]
  simp only [mapErr, ok_bind, ensure_eq_ok, IpcCheckpointSubnetMsg.toNat_marker_min]

/-- A batch transfer that was found is processed well exactly when it passes the checks and is
saved. -/
theorem outcome_batch_iff (cfg : Config) {ctx : BlockContext} {tx : Transaction}
    {b : IpcBatchTransferMsg} :
    (processIpcMsg X cfg ctx tx (.batchTransfer b) db).outcome = .ok () ↔
      ∃ b' saved, checkBatch X db b = .ok b' ∧
        b'.saveToDb X db ⟨ctx.blockHeight, ctx.blockHash, X.computeTxid tx⟩ = .ok saved := by
  simp only [processIpcMsg, processBatchTransfer, Proc.read_bind]
  cases hcheck : checkBatch X db b with
  | error e => simp
  | ok b' =>
    cases hsave : b'.saveToDb X db ⟨ctx.blockHeight, ctx.blockHash, X.computeTxid tx⟩ with
    | error e => cases e <;> simp [orProcessing, mapErr, hsave]
    | ok saved =>
      refine iff_of_true ?_ ⟨b', saved, rfl, hsave⟩
      simp [orProcessing, mapErr, hsave]

/-- What a batch transfer that was found and saved leaves. -/
theorem store_of_batch (cfg : Config) {ctx : BlockContext} {tx : Transaction}
    {b b' : IpcBatchTransferMsg} {saved : HeedDb × SubnetCheckpoint}
    (hw : witnessMessages X tx = [])
    (hfound : (firstParsed (outputParsers X ctx db tx) : Outcome MonitorError _) =
      .ok (some (.batchTransfer b))) (hcheck : checkBatch X db b = .ok b')
    (hsave : b'.saveToDb X db ⟨ctx.blockHeight, ctx.blockHash, X.computeTxid tx⟩ = .ok saved) :
    (processTransaction X cfg ctx tx db).store db = saved.1 := by
  have hcommits : (processTransaction X cfg ctx tx db).commits = [saved.1] := by
    rw [commits_of_found cfg ctx hw hfound]
    simp [processIpcMsg, processBatchTransfer, orProcessing, mapErr, hcheck, hsave]
  rw [Trace.store, hcommits]
  rfl

end Monitor
