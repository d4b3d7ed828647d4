import BitcoinIpc.CheckpointLayout
import BitcoinIpc.IdealCrates
import BitcoinIpc.Effects

/-!
# Reveals of batch transfers

A batch transfer is linked to its checkpoint by the transaction its input
spends. The handler compares the transaction id, the range of the output and a
count, and not which output is spent. Where every reveal spends the output after
the withdrawals, a checkpoint has at most one accepted batch transfer.
-/

namespace Monitor

open Faults Bytes Chain Messages Crates Multisig Db Grouping Commits

variable (X : Library)

/-- The place after the metadata and the withdrawals of a checkpoint transaction. -/
def commitIndex (c : Transaction) : Option Nat :=
  (c.output.head?.bind fun out =>
    (IpcCheckpointSubnetMsg.extractMarkersFromMetadataTxOut out).toOption).map
      (fun markers => 1 + markers.1.toNat)

/-- The builder puts the commit output of the batch at this place. -/
theorem commitIndex_of_toCheckpointPsbt {X : Library} {m : IpcCheckpointSubnetMsg}
    {σ : MapOrders} {committee next : SubnetCommittee} {feeRate : FeeRate} {unspent : List Utxo}
    {psbt : Psbt} (h : m.toCheckpointPsbt X σ committee next feeRate unspent = .ok psbt)
    (hbatch : m.hasBatch = true) (hw : m.withdrawals.length ≤ 255) :
    ∃ data index commit, m.makeBatchedTransferData X σ = .ok data ∧
      commitIndex psbt.unsignedTx = some index ∧
      psbt.unsignedTx.output[index]? = some commit ∧
      commit.scriptPubkey = IpcCheckpointSubnetMsg.commitScriptOf X data := by
  obtain ⟨id, batch, us, change, -, hlayout, -, -, -, -, -, hout⟩ :=
    IpcCheckpointSubnetMsg.layout_of_toCheckpointPsbt h
  cases IpcCheckpointSubnetMsg.batchLayout_of_batchOutputs hlayout with
  | none hno => simp [hno] at hbatch
  | @some data commit dests _ hdata hscript =>
    refine ⟨data, 1 + m.withdrawals.length, commit, hdata, ?_, ?_, hscript⟩
    · rw [commitIndex, hout]
      simp [IpcCheckpointSubnetMsg.metadataOut, IpcCheckpointSubnetMsg.extractMarkers_metadata,
        Except.toOption, IpcCheckpointSubnetMsg.toNat_marker hw]
    · rw [hout, Nat.add_comm, List.getElem?_cons_succ,
        List.getElem?_append_right (by simp)]
      simp

/-- The first input spends the commit output of the checkpoint. -/
def SpendsCommit (tx : Transaction) (db : HeedDb) (m : IpcBatchTransferMsg) : Prop :=
  ∃ c index, db.getTransaction m.checkpointTxid = some c ∧ commitIndex c = some index ∧
    firstSpent tx = some ⟨X.computeTxid c, index⟩

/-- A reveal in the transaction spends, of a recorded checkpoint, the commit output. -/
def RevealsCommit (ctx : BlockContext) (tx : Transaction) (db : HeedDb) : Prop :=
  ∀ m c, IpcBatchTransferMsg.fromTx X ctx.native ctx.erc db tx = .ok m →
    db.getTransaction m.checkpointTxid = some c → commitIndex c = some m.checkpointVout

instance (ctx : BlockContext) (tx : Transaction) (db : HeedDb) :
    Decidable (RevealsCommit X ctx tx db) :=
  decidable_of_iff ((IpcBatchTransferMsg.fromTx X ctx.native ctx.erc db tx).toOption.all
    (fun m => (db.getTransaction m.checkpointTxid).all
      (fun c => commitIndex c = some m.checkpointVout)) = true) (by
    simp only [RevealsCommit, Option.all_eq_true, toOption_eq_some, decide_eq_true_iff]
    exact ⟨fun h m c hm hc => h m hm c hc, fun h m hm c hc => h m c hm hc⟩)

/-- The checkpoint a saved batch transfer refers to. -/
def checkpointOf : IpcMessage → Option Txid
  | .batchTransfer m => some m.checkpointTxid
  | _ => none

/-- The checkpoints of the batch transfers that a run accepted. -/
def revealed (l : List (Event × HeedDb)) : List Txid :=
  (messages l).filterMap (fun a => checkpointOf a.2.2)

/-- In a chain every output is spent at most once, and transactions have their own ids. -/
structure ValidChain (txs : List (BlockContext × Transaction)) : Prop where
  spentOnce : (spentOutpoints txs).Nodup
  ids : ∀ a ∈ txs, ∀ b ∈ txs, X.computeTxid a.2 = X.computeTxid b.2 → a.2 = b.2

section Proofs

variable {X} {cfg : Config} {ctx : BlockContext} {tx : Transaction} {db : HeedDb}
  {l : List (Event × HeedDb)} {txs : List (BlockContext × Transaction)}

/-- The checkpoint of a parsed reveal is the transaction that its only input spends. -/
theorem fromTx_outpoint {m : IpcBatchTransferMsg}
    (h : IpcBatchTransferMsg.fromTx X ctx.native ctx.erc db tx = .ok m) :
    firstSpent tx = some ⟨m.checkpointTxid, m.checkpointVout⟩ := by
  obtain ⟨_, -, h⟩ := bind_eq_ok.mp h
  obtain ⟨i, hi, h⟩ := bind_eq_ok.mp h
  obtain ⟨_, -, h⟩ := bind_eq_ok.mp h
  obtain ⟨_, -, h⟩ := bind_eq_ok.mp h
  obtain ⟨_, -, h⟩ := bind_eq_ok.mp h
  obtain ⟨wire, -, h⟩ := bind_eq_ok.mp h
  obtain ⟨_, -, h⟩ := bind_eq_ok.mp h
  cases h
  rw [firstSpent, List.head?_eq_getElem?, index_eq_ok.mp hi]
  rfl

theorem checkBatch_checkpoint {m₀ m : IpcBatchTransferMsg} (h : checkBatch X db m₀ = .ok m) :
    ∃ c, db.getTransaction m₀.checkpointTxid = some c ∧ X.computeTxid c = m₀.checkpointTxid := by
  obtain ⟨-, c, checkpoint, hc, -, -, hlinked, -⟩ := checkBatch_eq_ok.mp h
  obtain ⟨_, hid, -⟩ := bind_eq_ok.mp hlinked
  exact ⟨c, hc, ensure_eq_ok.mp hid⟩

theorem spendsCommit_of_reveals {m₀ m : IpcBatchTransferMsg} (hreveals : RevealsCommit X ctx tx db)
    (hparsed : IpcBatchTransferMsg.fromTx X ctx.native ctx.erc db tx = .ok m₀)
    (hcheck : checkBatch X db m₀ = .ok m) : SpendsCommit X tx db m := by
  obtain ⟨c, hc, hid⟩ := checkBatch_checkpoint hcheck
  have htxid : m.checkpointTxid = m₀.checkpointTxid := by rw [checkBatch_eq hcheck]
  exact ⟨c, m₀.checkpointVout, by rw [htxid, hc], hreveals m₀ c hparsed hc,
    by rw [fromTx_outpoint hparsed, hid]⟩

/-- The recorded transactions are those of the chain, under their ids. -/
def Recorded (X : Library) (txs : List (BlockContext × Transaction)) (db : HeedDb) : Prop :=
  ∀ k c, db.getTransaction k = some c → X.computeTxid c = k ∧ c ∈ txs.map Prod.snd

theorem recorded_step {db' : HeedDb} {e : Event} (hr : Recorded X txs db)
    (h : Commit X db e db') (he : ∀ t, transactionOf e = some t → t ∈ txs.map Prod.snd) :
    Recorded X txs db' := by
  cases ht : transactionOf e with
  | none =>
    have hsame := (tables_of_commit h).2.1 ht
    intro k c hk
    rw [HeedDb.getTransaction, hsame] at hk
    exact hr k c hk
  | some t =>
    cases h with
    | transaction =>
      cases ht
      intro k c hk
      rw [HeedDb.getTransaction_save] at hk
      split_ifs at hk with hkey
      · cases hk
        exact ⟨hkey.symm, he _ rfl⟩
      · exact hr k c hk
    | _ => cases ht

theorem recorded_before (h : ChainTrail X cfg HeedDb.empty txs l) :
    AllSteps (fun before _ _ => Recorded X txs before) HeedDb.empty l := by
  refine invariant_before (I := Recorded X txs)
    (C := fun _ e _ => ∀ t, transactionOf e = some t → t ∈ txs.map Prod.snd)
    (fun _ _ _ hr hs he => recorded_step hr hs he) ?_ h.trail ?_
  · intro k c hk
    cases hk
  · exact allSteps_of_events (fun a ha t ht => h.transaction_mem ha ht)

/-- A batch transfer that a chain saves spends the commit output of a checkpoint of
the chain. -/
theorem revealed_of_mem (h : ChainTrail X cfg HeedDb.empty txs l)
    (hreveals : AllSteps (fun before _ _ => ∀ a ∈ txs, RevealsCommit X a.1 a.2 before)
      HeedDb.empty l)
    {m : IpcBatchTransferMsg} (hm : (ctx, tx, .batchTransfer m) ∈ messages l) :
    ∃ c ∈ txs.map Prod.snd, ∃ index, X.computeTxid c = m.checkpointTxid ∧
      commitIndex c = some index ∧ firstSpent tx = some ⟨m.checkpointTxid, index⟩ := by
  obtain ⟨⟨e, after⟩, ha, he⟩ := List.mem_filterMap.mp hm
  obtain ⟨before, hstep, hrev, hrec⟩ :=
    exists_step h.trail (allSteps_and hreveals (recorded_before h)) ha
  cases hstep with
  | batchTransfer hparsed hcheck _ =>
    cases he
    obtain ⟨c, index, hc, hindex, hspent⟩ :=
      spendsCommit_of_reveals (hrev _ (h.message_mem hm)) hparsed hcheck
    obtain ⟨hid, hmem⟩ := hrec _ c hc
    exact ⟨c, hmem, index, hid, hindex, by rw [hspent, hid]⟩
  | _ => cases he

/-- Batch transfers are authenticated by the commit output where every reveal spends
it: each accepted one spends the commit output of its checkpoint, and no
checkpoint has two. -/
theorem batch_transfer_spends_commit_once (hv : ValidChain X txs)
    (h : ChainTrail X cfg HeedDb.empty txs l)
    (hreveals : AllSteps (fun before _ _ => ∀ a ∈ txs, RevealsCommit X a.1 a.2 before)
      HeedDb.empty l) :
    AllSteps (fun before e _ => ∀ ctx tx m, e = .message ctx tx (.batchTransfer m) →
      SpendsCommit X tx before m) HeedDb.empty l ∧ (revealed l).Nodup := by
  constructor
  · refine allSteps_of_trail ?_ h.trail hreveals
    rintro ⟨e, after⟩ hmem before hstep hrev ctx tx m rfl
    have hm : (ctx, tx, .batchTransfer m) ∈ messages l := List.mem_filterMap.mpr ⟨_, hmem, rfl⟩
    cases hstep with
    | batchTransfer hparsed hcheck _ =>
      exact spendsCommit_of_reveals (hrev _ (h.message_mem hm)) hparsed hcheck
  · have hrevealed : revealed l = (outputMessages l).filterMap (fun a => checkpointOf a.2.2) := by
      rw [revealed, outputMessages, ← List.filterMap_eq_filter, List.filterMap_filterMap]
      congr 1
      funext a
      obtain ⟨c, t, m⟩ := a
      cases m <;> rfl
    rw [hrevealed, List.Nodup, List.pairwise_filterMap]
    refine (h.outputMessages_pairwise hv.spentOnce).imp_of_mem ?_
    rintro ⟨ctx, tx, m⟩ ⟨ctx', tx', m'⟩ hm hm' hne k hk k' hk' rfl
    cases m with
    | batchTransfer m =>
      cases m' with
      | batchTransfer m' =>
        cases hk
        have hkey : m.checkpointTxid = m'.checkpointTxid := (Option.some.inj hk').symm
        obtain ⟨c, hc, index, hid, hindex, hspent⟩ :=
          revealed_of_mem h hreveals (List.mem_of_mem_filter hm)
        obtain ⟨c', hc', index', hid', hindex', hspent'⟩ :=
          revealed_of_mem h hreveals (List.mem_of_mem_filter hm')
        obtain ⟨a, ha, rfl⟩ := List.mem_map.mp hc
        obtain ⟨b, hb, rfl⟩ := List.mem_map.mp hc'
        have hsame : a.2 = b.2 := hv.ids a ha b hb (by rw [hid, hid', hkey])
        rw [hsame, hindex'] at hindex
        cases hindex
        exact hne _ hspent (by rw [hspent', hkey])
      | _ => cases hk'
    | _ => cases hk

end Proofs

open Solo

/-- The data of a batch that registers a token. -/
def tokenWire : BatchTransferWireData := ⟨[], [⟨user, ['T'], ['T'], 18, 100⟩], [], []⟩

def revealLibrary : Library :=
  ideal { creates := [createMsg 10000], joins := [joinMsg], batches := [tokenWire] }

/-- A checkpoint with the withdrawals and one more output. -/
def committingTx (withdrawals : List IpcWithdrawal) : Transaction :=
  spending (bytes32 14) 0 []
    (⟨330, makeOpReturnScript ({ checkpointMsg 0 with withdrawals := withdrawals }.metadata
      subnet)⟩ :: withdrawals.map (fun w => ⟨w.amount, w.address.scriptPubkey⟩) ++
        [⟨1000, (Address.p2tr (bytes32 6)).scriptPubkey⟩])

/-- The batch, revealed by an input that spends the first output after the metadata. -/
def revealingTx (withdrawals : List IpcWithdrawal) : Transaction :=
  spending (revealLibrary.computeTxid (committingTx withdrawals)) 1 (carrying ipcTransferTag)
    [⟨330, backup.scriptPubkey⟩]

def withdrawal : IpcWithdrawal := ⟨3000, .p2tr (bytes32 7)⟩

/-- The chain up to the checkpoint, and the database it leads to. -/
def committed (withdrawals : List IpcWithdrawal) : List Transaction :=
  [createTx, joinTx 100000, committingTx withdrawals]

def committedDb (withdrawals : List IpcWithdrawal) : HeedDb :=
  (run revealLibrary (committed withdrawals)).store HeedDb.empty

/-- The batch as it is saved. -/
def tokenBatch (withdrawals : List IpcWithdrawal) : IpcBatchTransferMsg :=
  ⟨.fromTxid20 subnet, revealLibrary.computeTxid (committingTx withdrawals), 1, [],
    tokenWire.tokenRegistrations, [], []⟩

def revealChain (withdrawals : List IpcWithdrawal) : List (BlockContext × Transaction) :=
  (committed withdrawals ++ [revealingTx withdrawals]).map (fun tx => (context, tx))

/-- The reveal is accepted after a checkpoint with the given withdrawals. -/
def RevealAccepted (withdrawals : List IpcWithdrawal) : Prop :=
  (run revealLibrary (committed withdrawals)).outcome.toOption = some () ∧
  IpcBatchTransferMsg.fromTx revealLibrary context.native context.erc (committedDb withdrawals)
    (revealingTx withdrawals) = .ok { tokenBatch withdrawals with subnetId := SubnetId.default } ∧
  checkBatch revealLibrary (committedDb withdrawals)
    { tokenBatch withdrawals with subnetId := SubnetId.default } = .ok (tokenBatch withdrawals) ∧
  ((tokenBatch withdrawals).saveToDb revealLibrary (committedDb withdrawals)
    (originOf revealLibrary context (revealingTx withdrawals))).toOption.map (fun r => [r.1]) =
      some (processTransaction revealLibrary ⟨none⟩ context (revealingTx withdrawals)
        (committedDb withdrawals)).commits

instance (withdrawals : List IpcWithdrawal) : Decidable (RevealAccepted withdrawals) := by
  unfold RevealAccepted
  infer_instance

theorem revealChain_trail {withdrawals : List IpcWithdrawal} (h : RevealAccepted withdrawals) :
    ∃ l db', ChainTrail revealLibrary ⟨none⟩ HeedDb.empty (revealChain withdrawals)
        (l ++ [(.message context (revealingTx withdrawals)
          (.batchTransfer (tokenBatch withdrawals)), db')]) ∧
      l.map Prod.snd = (run revealLibrary (committed withdrawals)).commits ∧
      lastStore HeedDb.empty l = committedDb withdrawals := by
  obtain ⟨hok, hparsed, hcheck, hruns⟩ := h
  obtain ⟨saved, hsave, hcommits⟩ := Option.map_eq_some_iff.mp hruns
  obtain ⟨l, hl, hc, hlast⟩ := exists_chainTrail ⟨none⟩ context _ HeedDb.empty hok
  have ht : TransactionTrail revealLibrary ⟨none⟩ context (revealingTx withdrawals)
      (committedDb withdrawals) [(.message context (revealingTx withdrawals)
        (.batchTransfer (tokenBatch withdrawals)), saved.1)] :=
    .single (.batchTransfer { tokenBatch withdrawals with subnetId := SubnetId.default }) rfl rfl
      rfl (.batchTransfer hparsed hcheck (toOption_eq_some.mp hsave)) hcommits.symm
  rw [← show lastStore HeedDb.empty l = committedDb withdrawals from hlast] at ht
  refine ⟨l, saved.1, ?_, hc, hlast⟩
  rw [revealChain, List.map_append]
  exact hl.snoc ht

instance (X : Library) (txs : List (BlockContext × Transaction)) : Decidable (ValidChain X txs) :=
  decidable_of_iff ((spentOutpoints txs).Nodup ∧
    ∀ a ∈ txs, ∀ b ∈ txs, X.computeTxid a.2 = X.computeTxid b.2 → a.2 = b.2)
    ⟨fun h => ⟨h.1, h.2⟩, fun h => ⟨h.spentOnce, h.ids⟩⟩

/-- The reveal of the commit output is accepted, as the only one of its checkpoint. -/
theorem batch_transfer_spends_commit_once_without_withdrawals :
    ∃ l, ChainTrail revealLibrary ⟨none⟩ HeedDb.empty (revealChain []) l ∧
      revealLibrary.computeTxid (committingTx []) ∈ revealed l ∧ (revealed l).Nodup := by
  have haccepted : RevealAccepted [] := of_decide_eq_true (by decide +kernel)
  obtain ⟨l, db', hl, hc, hlast⟩ := revealChain_trail haccepted
  have hvalid : ValidChain revealLibrary (revealChain []) := of_decide_eq_true (by decide +kernel)
  refine ⟨_, hl, ?_, (batch_transfer_spends_commit_once hvalid hl ?_).2⟩
  · exact List.mem_filterMap.mpr ⟨(context, revealingTx [], .batchTransfer (tokenBatch [])),
      by rw [messages_append]; exact List.mem_append_right _ List.mem_cons_self, rfl⟩
  · have hstores : ∀ t ∈ HeedDb.empty :: (run revealLibrary (committed [])).commits,
        ∀ a ∈ revealChain [], RevealsCommit revealLibrary a.1 a.2 t :=
      of_decide_eq_true (by decide +kernel)
    refine allSteps_append.mpr ⟨?_, ?_, trivial⟩
    · refine allSteps_of_stores (P := fun t => ∀ a ∈ revealChain [],
        RevealsCommit revealLibrary a.1 a.2 t) (fun _ _ _ h => h) ?_
      rw [hc]
      exact hstores
    · rw [hlast]
      exact hstores _ List.getLastD_mem_cons

/-- The reveal that spends a withdrawal of the checkpoint is accepted all the same. -/
theorem withdrawal_reveals_batch :
    ¬ ∀ X cfg txs l, DisplayLaws X → ValidChain X txs → ChainTrail X cfg HeedDb.empty txs l →
      AllSteps (fun before e _ => ∀ ctx tx m, e = .message ctx tx (.batchTransfer m) →
        SpendsCommit X tx before m) HeedDb.empty l ∧ (revealed l).Nodup := by
  intro hall
  have haccepted : RevealAccepted [withdrawal] := of_decide_eq_true (by decide +kernel)
  obtain ⟨l, db', hl, -, hlast⟩ := revealChain_trail haccepted
  have hvalid : ValidChain revealLibrary (revealChain [withdrawal]) :=
    of_decide_eq_true (by decide +kernel)
  obtain ⟨hspends, -⟩ := hall _ _ _ _ (displayLaws_ideal _) hvalid hl
  obtain ⟨c, index, hc, hindex, hspent⟩ := (allSteps_append.mp hspends).2.1 _ _ _ rfl
  rw [hlast] at hc
  have hfound : (committedDb [withdrawal]).getTransaction
      (tokenBatch [withdrawal]).checkpointTxid = some (committingTx [withdrawal]) :=
    of_decide_eq_true (by decide +kernel)
  have hplace : commitIndex (committingTx [withdrawal]) = some 2 :=
    of_decide_eq_true (by decide +kernel)
  rw [hfound] at hc
  cases hc
  rw [hplace] at hindex
  cases hindex
  have hvout := congrArg OutPoint.vout (Option.some.inj hspent)
  exact absurd hvout (by decide)

end Monitor
