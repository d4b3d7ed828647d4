import BitcoinIpc.JoinAcceptance
import BitcoinIpc.TransferDelivery
import BitcoinIpc.Lib.StraightLine

/-!
# Who may reveal

The script behind a commit output pushes and drops its data. It is spent by the
witness that reveals it, without a signature, and nothing in it binds what the
spending transaction pays. So the network accepts the reveals of the provider,
and with them any other transaction that reveals the same data instead.
-/

namespace Provider

open Faults Bytes Chain Messages Crates Multisig MultisigSpend Db Monitor Commits Grouping
open Tapscript (Item)

section Opening

variable {H : Type} {mature : Item → Bool} {data : List UInt8}

theorem parseScript_makePushDataScript (data : List UInt8) : ∃ items : List Item,
    parseScript (makePushDataScript data) = some (Tapscript.dropped items ++ [.op 0x51]) ∧
      ∀ i ∈ items, i.length ≤ Tapscript.maxItemSize := by
  obtain ⟨chunks, hread, -, hsizes⟩ := readInstructions_pushChunks data.length le_rfl le_rfl
  refine ⟨chunks, ?_, fun i hi => (hsizes i hi).2⟩
  set is : List Chain.Instruction :=
    chunks.flatMap (fun c => [.pushBytes c, .op opDrop]) ++ [.op opTrue] with his
  have hread' : instructions (makePushDataScript data) = is.map .ok := by
    rw [instructions, makePushDataScript, hread, his, List.map_append, List.map_flatMap]
    rfl
  rw [parseScript, hread', List.mapM_map]
  refine List.mapM_pure.trans ?_
  rw [his, List.map_append, List.map_flatMap]
  rfl

/-- The script of some data is spent by the empty stack and by no other, whatever signatures verify
and whatever locks have passed. -/
theorem evaluateWitness_data_iff {verify : Item → Item → Bool} {stack : List Item}
    {block item : Item} :
    evaluateWitness verify mature (stack ++ [makePushDataScript data, block]) = some [item] ↔
      stack = [] ∧ item = [1] := by
  obtain ⟨items, hparse, hsizes⟩ := parseScript_makePushDataScript data
  have hreverse : (stack ++ [makePushDataScript data, block]).reverse =
      block :: makePushDataScript data :: stack.reverse := by
    simp
  unfold evaluateWitness
  rw [hreverse]
  change (parseScript (makePushDataScript data)).bind _ = _ ↔ _
  rw [hparse, Option.bind_some, Tapscript.evaluate_dropped_iff hsizes, List.reverse_eq_nil_iff]

variable {X : Library} {S : SpendCrate H} {verify : Script → Item → Item → Bool}

/-- The control block of the only leaf of a tree is the one that the commits are revealed by. -/
structure LeafLaws (X : Library) (S : SpendCrate H) : Prop where
  controlBlock_leaf : ∀ s, S.controlBlock (.leaf s) s = some (X.controlBlock s)

/-- The script and its control block open a commit to the data. -/
theorem opens_data (hS : LeafLaws X S) (value : Amount) :
    Opens X S verify mature
      ⟨value, Address.p2trScript (X.taprootOutputKey (.leaf (makePushDataScript data)))⟩
      [makePushDataScript data, X.controlBlock (makePushDataScript data)] :=
  ⟨_, [], _, _, [1], rfl, hS.controlBlock_leaf _, rfl, evaluateWitness_data_iff.mpr ⟨rfl, rfl⟩,
    by decide⟩

/-- The same inputs and witnesses, with another output. -/
def redirected (tx : Transaction) (out : TxOut) : Transaction := { tx with output := [out] }

/-- The inputs of a reveal open the first output of its commit, whatever signatures verify and
whatever locks have passed. -/
def OpensCommit (X : Library) (S : SpendCrate H) (commit reveal : Transaction) : Prop :=
  reveal.input.map TxIn.previousOutput = [⟨X.computeTxid commit, 0⟩] ∧
    ∃ out, commit.output[0]? = some out ∧
      ∀ i ∈ reveal.input, ∀ verify mature, Opens X S verify mature out i.witness

variable {w : Wallet} {a payee : Address} {value paid : Amount} {commit reveal : Transaction}

theorem RevealOf.redirected_opens (hS : LeafLaws X S) (h : RevealOf X w data a value commit reveal)
    (out : TxOut) : OpensCommit X S commit (redirected reveal out) := by
  obtain ⟨fee, change, -, hout⟩ := h.commit_output
  rw [h.reveal_eq]
  refine ⟨rfl, _, by rw [hout, List.getElem?_cons_zero], fun i hi verify mature => ?_⟩
  rw [List.mem_singleton.mp hi]
  exact opens_data hS _

theorem RevealOf.opens (hS : LeafLaws X S) (h : RevealOf X w data a value commit reveal) :
    OpensCommit X S commit reveal := by
  have hself : redirected reveal ⟨value, a.scriptPubkey⟩ = reveal := by
    rw [h.reveal_eq]
    rfl
  exact hself ▸ h.redirected_opens hS ⟨value, a.scriptPubkey⟩

theorem RevealOf.redirected_reveals (h : RevealOf X w data a value commit reveal) :
    RevealsData X data (redirected reveal ⟨paid, payee.scriptPubkey⟩) := by
  rw [h.reveal_eq]
  exact ⟨_, paid, payee, rfl⟩

end Opening

section Replaced

variable {X : Library} {H : Type} {S : SpendCrate H} {E : WitnessCodec} {w : Wallet}
  {returnAddress : Address} {db : HeedDb} {tx : Transaction}

/-- Whoever sees the reveal of a creation can replace it without a signature by one that pays
anybody. The network accepts it for the same commit, and the monitor registers the subnet of the
request under the id of the replacement, while the id that was answered stays unknown. -/
theorem creation_displaced (laws : DisplayLaws X) (hX : TransactionLaws X)
    (hweight : WeightLaws X) (hE : WitnessCodecLaws X E) (hS : LeafLaws X S) (hw : WalletLaws w)
    {m : IpcCreateSubnetMsg} {sent : Submitted SubnetId}
    (h : createSubnet X E w returnAddress m = .ok sent) (payee : Address) (paid : Amount)
    (htx : tx = redirected sent.reveal ⟨paid, payee.scriptPubkey⟩) (cfg : Config)
    (ctx : BlockContext) (db : HeedDb) :
    OpensCommit X S sent.commit sent.reveal ∧ OpensCommit X S sent.commit tx ∧
    (processTransaction X cfg ctx tx db).commits =
      [db.saveSubnetGenesisInfo X (.fromTxid (X.computeTxid tx))
        (m.genesisInfo ctx.blockHeight (X.computeTxid tx))] ∧
    (SubnetId.fromTxid (X.computeTxid tx) ≠ sent.answer →
      ((processTransaction X cfg ctx tx db).store db).getSubnetGenesisInfo X sent.answer =
        db.getSubnetGenesisInfo X sent.answer) := by
  obtain ⟨hvalid, bytes, hbytes, hid, hreveal⟩ := createSubnet_eq_ok hweight hw h
  have hcommits := (process_creation hX hE hvalid hbytes
    (htx ▸ hreveal.redirected_reveals) cfg ctx db).1
  refine ⟨hreveal.opens hS, htx ▸ hreveal.redirected_opens hS _, hcommits, fun hne => ?_⟩
  have hstore : (processTransaction X cfg ctx tx db).store db =
      db.saveSubnetGenesisInfo X (.fromTxid (X.computeTxid tx))
        (m.genesisInfo ctx.blockHeight (X.computeTxid tx)) := by
    rw [Trace.store, hcommits]
    rfl
  rw [hstore, HeedDb.getSubnetGenesisInfo_save db laws, if_neg fun heq => hne heq.symm]

/-- A reveal of a join can be replaced in the same way. Paid to anybody, the collateral registers the
validator of the request, as long as the value that leaves is not less. -/
theorem join_redirected (laws : DisplayLaws X) (hX : TransactionLaws X)
    (hweight : WeightLaws X) (hE : WitnessCodecLaws X E) (hS : LeafLaws X S) (hw : WalletLaws w)
    (hreach : Reachable X db) {m : IpcJoinSubnetMsg} {sent : Submitted Txid}
    (h : joinSubnet X E w db m = .ok sent) (payee : Address) (value : Amount)
    (hle : m.collateral ≤ value)
    (htx : tx = redirected sent.reveal ⟨value, payee.scriptPubkey⟩) (cfg : Config)
    (ctx : BlockContext) :
    OpensCommit X S sent.commit sent.reveal ∧ OpensCommit X S sent.commit tx ∧
    ((m.paying value).Admits X db (X.computeTxid tx) →
      ∃ db', processTransaction X cfg ctx tx db = ⟨[db'], .ok ()⟩ ∧
        IpcJoinSubnetMsg.Registered X db' m.subnetId
          ((m.paying value).newValidator X (powerOf value) (X.computeTxid tx))) ∧
    (¬ (m.paying value).Admits X db (X.computeTxid tx) →
      processTransaction X cfg ctx tx db = ⟨[], panicked⟩) := by
  obtain ⟨g, a, bytes, hsub⟩ := joinSubnet_eq_ok hweight hw h
  have hhead : tx.output.head? = some ⟨value, payee.scriptPubkey⟩ := by
    rw [htx]
    rfl
  have hcases := hsub.process_cases laws hX hE hreach (htx ▸ hsub.reveal.redirected_reveals) hhead
    hle cfg ctx
  exact ⟨hsub.reveal.opens hS, htx ▸ hsub.reveal.redirected_opens hS _, hcases⟩

end Replaced

section Batch

variable {X : Library} {H : Type} {S : SpendCrate H} {db : HeedDb} {m : IpcCheckpointSubnetMsg}
  {σ : MapOrders} {txid : Txid} {feeRate : FeeRate} {a : Address} {r tx : Transaction}
  {b b' : IpcBatchTransferMsg}

/-- A batch is saved whatever transaction it was found in. -/
theorem saved_whatever_origin (laws : DisplayLaws X) {o : IpcBatchTransferMsg.Origin}
    (o' : IpcBatchTransferMsg.Origin) {saved : HeedDb × SubnetCheckpoint}
    (h : b.saveToDb X db o = .ok saved) : ∃ saved', b.saveToDb X db o' = .ok saved' := by
  obtain ⟨s, hs, h⟩ := bind_eq_ok.mp h
  obtain ⟨n, hn, h⟩ := bind_eq_ok.mp h
  obtain ⟨c, hc, h⟩ := bind_eq_ok.mp h
  obtain ⟨_, hvalid, -⟩ := bind_eq_ok.mp h
  exact IpcBatchTransferMsg.exists_saved laws o' (okOr_eq_ok.mp hs) (okOr_eq_ok.mp hn)
    (okOr_eq_ok.mp hc) (mapErr_eq_ok.mp hvalid)

theorem fromTx_congr (native erc : HashOrder Txid20) (h : tx.input = r.input) :
    IpcBatchTransferMsg.fromTx X native erc db tx = IpcBatchTransferMsg.fromTx X native erc db r := by
  unfold IpcBatchTransferMsg.fromTx
  rw [h]

theorem found_batch_iff {ctx : BlockContext} (hdata : NoData tx) {m : IpcMessage} :
    (firstParsed (outputParsers X ctx db tx) : Outcome MonitorError _) = .ok (some m) ↔
      ∃ b, IpcBatchTransferMsg.fromTx X ctx.native ctx.erc db tx = .ok b ∧ m = .batchTransfer b := by
  rw [firstParsed_batch_of_noData ctx db hdata]
  cases IpcBatchTransferMsg.fromTx X ctx.native ctx.erc db tx with
  | ok b =>
    constructor
    · intro h
      cases h
      exact ⟨b, rfl, rfl⟩
    · rintro ⟨_, h, rfl⟩
      cases h
      rfl
  | error e =>
    constructor
    · intro h
      cases e <;> cases h
    · rintro ⟨_, h, -⟩
      cases h

/-- Whether a batch is taken depends on the inputs alone. -/
theorem takes_of_sameInput (laws : DisplayLaws X) {cfg : Config} {ctx : BlockContext}
    (hin : tx.input = r.input) (htx : NoData tx) (hr : NoData r)
    (h : Takes X cfg ctx db tx (.batchTransfer b)) :
    Takes X cfg ctx db r (.batchTransfer b) := by
  obtain ⟨hw, hfound, hok⟩ := h
  obtain ⟨b', saved, hcheck, hsave⟩ := (outcome_batch_iff cfg).mp hok
  obtain ⟨saved', hsave'⟩ := saved_whatever_origin laws
    ⟨ctx.blockHeight, ctx.blockHash, X.computeTxid r⟩ hsave
  refine ⟨?_, ?_, (outcome_batch_iff cfg).mpr ⟨b', saved', hcheck, hsave'⟩⟩
  · rw [← hw, witnessMessages, witnessMessages, hin]
  · rw [found_batch_iff htx, fromTx_congr _ _ hin] at hfound
    exact (found_batch_iff hr).mpr hfound

theorem processed_of_untaken {cfg : Config} {ctx : BlockContext} (hw : witnessMessages X tx = [])
    (hdata : NoData tx) (hnot : ¬ ∃ b, Takes X cfg ctx db tx (.batchTransfer b)) :
    processed X cfg ctx tx db = db := by
  have hcommits : (processTransaction X cfg ctx tx db).commits = [] := by
    cases hfound : (firstParsed (outputParsers X ctx db tx) : Outcome MonitorError _) with
    | error e =>
      rw [processTransaction_of_no_witness cfg ctx hw]
      simp [processOutputs, hfound]
    | ok found =>
      cases found with
      | none =>
        rw [processTransaction_of_no_witness cfg ctx hw]
        simp only [processOutputs, Proc.read_bind, hfound, Proc.lift_ok_bind]
        rfl
      | some m =>
        obtain ⟨b, hb, rfl⟩ := (found_batch_iff hdata).mp hfound
        rw [commits_of_found cfg ctx hw hfound]
        simp only [processIpcMsg, processBatchTransfer, Proc.read_bind]
        cases hcheck : checkBatch X db b with
        | error e => rfl
        | ok b' =>
          cases hsave : b'.saveToDb X db ⟨ctx.blockHeight, ctx.blockHash, X.computeTxid tx⟩ with
          | error e => cases e <;> simp [orProcessing, mapErr, hsave]
          | ok saved =>
            refine absurd ⟨b, hw, hfound, ?_⟩ hnot
            exact (outcome_batch_iff cfg).mpr ⟨b', saved, hcheck, hsave⟩
  rw [processed, Trace.store, hcommits]
  rfl

/-- What a batch that is taken adds to the queues depends on the batch alone. -/
theorem contents_of_takes (laws : DisplayLaws X) (hreach : Reachable X db) {cfg : Config}
    {ctx : BlockContext} (hdata : NoData tx) (h : Takes X cfg ctx db tx (.batchTransfer b))
    (hcheck : checkBatch X db b = .ok b') (u : Txid20) :
    (queue X (processed X cfg ctx tx db) u).map contentOf =
      (queue X db u).map contentOf ++ postsFor b' db.getAllSubnets u := by
  obtain ⟨hw, hfound, hok⟩ := h
  obtain ⟨_, saved, hcheck', hsave⟩ := (outcome_batch_iff cfg).mp hok
  obtain rfl := Except.ok.inj (hcheck.symm.trans hcheck')
  obtain ⟨_, hb, heq⟩ := (found_batch_iff hdata).mp hfound
  cases heq
  obtain ⟨hnative, herc⟩ := fromTx_homes hb
  have hchecked := checkBatch_eq hcheck
  have hposts := posts_saveToDb laws (sound_of_reachable laws hreach)
    (by rw [hchecked]; exact hnative) (by rw [hchecked]; exact herc) hsave
  obtain ⟨-, new, hnew, hcontent⟩ := hposts u (denseQueue_of_reachable laws hreach u)
  rw [processed, store_of_batch cfg hw hfound hcheck hsave, hnew, List.map_append, hcontent]

/-- The reveal of a checkpoint holds nothing but its batch. -/
theorem only_batch_of_reveal (hX : TransactionLaws X)
    (h : m.makeRevealBatchTransferTx X σ txid feeRate a = .ok (some r)) :
    witnessMessages X r = [] ∧ NoData r := by
  obtain ⟨-, commit, witness, out, hmade, rfl⟩ :=
    IpcCheckpointSubnetMsg.makeRevealBatchTransferTx_eq_ok h
  obtain ⟨data, hdata, -, hwitness, hout⟩ := IpcCheckpointSubnetMsg.makeBatchedTransfer_eq_ok hmade
  obtain ⟨wire, -, hdata⟩ := bind_eq_ok.mp hdata
  obtain ⟨binary, -, hdata⟩ := bind_eq_ok.mp hdata
  cases hdata
  dsimp only at hwitness hout
  subst hwitness
  have hpaid : [out] = [⟨out.value, a.scriptPubkey⟩] := by
    rw [← hout]
  exact ⟨witnessMessages_reveal hX _ binary out, noData_of_address hpaid⟩

/-- The witness of a reveal opens the output that the checkpoint makes for its batch. -/
theorem opens_batch (hS : LeafLaws X S)
    (h : m.makeRevealBatchTransferTx X σ txid feeRate a = .ok (some r)) :
    ∃ commit witness out, m.makeBatchedTransfer X σ feeRate a = .ok (commit, witness, out) ∧
      ∀ i ∈ r.input, ∀ verify mature, Opens X S verify mature commit i.witness := by
  obtain ⟨-, commit, witness, out, hmade, rfl⟩ :=
    IpcCheckpointSubnetMsg.makeRevealBatchTransferTx_eq_ok h
  obtain ⟨data, -, hscript, hwitness, -⟩ := IpcCheckpointSubnetMsg.makeBatchedTransfer_eq_ok hmade
  refine ⟨commit, witness, out, hmade, fun i hi verify mature => ?_⟩
  have hcommit : commit = ⟨commit.value, IpcCheckpointSubnetMsg.commitScriptOf X data⟩ := by
    rw [← hscript]
  have hi' : i.witness = [makePushDataScript data, X.controlBlock (makePushDataScript data)] := by
    rw [List.mem_singleton.mp hi]
    exact hwitness
  rw [hcommit, hi']
  exact opens_data hS _

/-- The reveal of a batch can be replaced too, and paid to anybody. The monitor takes the same batch
from it, and the queues of all subnets get the same messages. -/
theorem batch_revealed_by_anyone (laws : DisplayLaws X) (hX : TransactionLaws X)
    (hS : LeafLaws X S) (hreach : Reachable X db)
    (h : m.makeRevealBatchTransferTx X σ txid feeRate a = .ok (some r)) (payee : Address)
    (paid : Amount) (htx : tx = redirected r ⟨paid, payee.scriptPubkey⟩) (cfg : Config)
    (ctx : BlockContext) :
    (∃ commit witness out, m.makeBatchedTransfer X σ feeRate a = .ok (commit, witness, out) ∧
      ∀ i ∈ tx.input, ∀ verify mature, Opens X S verify mature commit i.witness) ∧
    (∀ b, Takes X cfg ctx db tx (.batchTransfer b) ↔ Takes X cfg ctx db r (.batchTransfer b)) ∧
    ∀ u, (queue X (processed X cfg ctx tx db) u).map contentOf =
      (queue X (processed X cfg ctx r db) u).map contentOf := by
  obtain ⟨hw', hplain'⟩ := only_batch_of_reveal hX h
  have hin : tx.input = r.input := by
    rw [htx]
    rfl
  have hpaid : tx.output = [⟨paid, payee.scriptPubkey⟩] := by
    rw [htx]
    rfl
  have hplain : NoData tx := noData_of_address hpaid
  have hw : witnessMessages X tx = [] := by
    rw [← hw', witnessMessages, witnessMessages, hin]
  have htakes : ∀ b, Takes X cfg ctx db tx (.batchTransfer b) ↔
      Takes X cfg ctx db r (.batchTransfer b) :=
    fun b => ⟨takes_of_sameInput laws hin hplain hplain',
      takes_of_sameInput laws hin.symm hplain' hplain⟩
  refine ⟨by rw [hin]; exact opens_batch hS h, htakes, fun u => ?_⟩
  by_cases htaken : ∃ b, Takes X cfg ctx db tx (.batchTransfer b)
  · obtain ⟨b, hb⟩ := htaken
    obtain ⟨b', saved, hcheck, -⟩ := (outcome_batch_iff cfg).mp hb.2.2
    rw [contents_of_takes laws hreach hplain hb hcheck,
      contents_of_takes laws hreach hplain' ((htakes b).mp hb) hcheck]
  · have hnot : ¬ ∃ b, Takes X cfg ctx db r (.batchTransfer b) :=
      fun hex => htaken (hex.imp fun b hb => (htakes b).mpr hb)
    rw [processed_of_untaken hw hplain htaken, processed_of_untaken hw' hplain' hnot]

end Batch

section Single

open Solo

def outsider : Address := .p2tr (bytes32 40)

/-- The control block of a tree with one leaf. -/
def leafCrate : SpendCrate Script :=
  { plainCrate with
    controlBlock := fun t s => match t with
      | .leaf s' => if s = s' then some ((library 10000 []).controlBlock s) else none
      | .branch _ _ => none }

theorem leafLaws_leaf : LeafLaws (library 10000 []) leafCrate where
  controlBlock_leaf _ := if_pos rfl

theorem leafLaws_paying : LeafLaws payingLibrary leafCrate where
  controlBlock_leaf _ := if_pos rfl

/-- The creation of the subnet, paid to an outsider: the answered id stays unknown. -/
theorem solo_creation_displaced : ∃ sent,
    createSubnet (library 10000 []) soloCodec onePaymentWallet backup (createMsg 10000) =
      .ok sent ∧
    OpensCommit (library 10000 []) leafCrate sent.commit
      (redirected sent.reveal ⟨546, outsider.scriptPubkey⟩) ∧
    ((processTransaction (library 10000 []) ⟨none⟩ context
      (redirected sent.reveal ⟨546, outsider.scriptPubkey⟩) HeedDb.empty).store
        HeedDb.empty).getSubnetGenesisInfo (library 10000 []) sent.answer = none := by
  have hother : (createSubnet (library 10000 []) soloCodec onePaymentWallet backup
      (createMsg 10000)).toOption.any (fun sent => decide (SubnetId.fromTxid
        ((library 10000 []).computeTxid (redirected sent.reveal ⟨546, outsider.scriptPubkey⟩)) ≠
          sent.answer)) = true := by
    decide +kernel
  obtain ⟨sent, hsent, hne⟩ := (Option.any_eq_true _ _).mp hother
  obtain ⟨-, hopens, -, hunknown⟩ := creation_displaced (displayLaws_ideal _)
    (transactionLaws_ideal _) (weightLaws_ideal _) witnessCodecLaws_solo leafLaws_leaf
    walletLaws_onePayment (toOption_eq_some.mp hsent) outsider 546 rfl ⟨none⟩ context HeedDb.empty
  exact ⟨sent, toOption_eq_some.mp hsent, hopens, hunknown (of_decide_eq_true hne)⟩

/-- The only validator joins, and an outsider is paid its collateral. -/
theorem solo_join_redirected : ∃ sent db', joinSubnet (library 10000 []) soloCodec onePaymentWallet
      createdDb { joinMsg with collateral := 100000 } = .ok sent ∧
    OpensCommit (library 10000 []) leafCrate sent.commit
      (redirected sent.reveal ⟨100000, outsider.scriptPubkey⟩) ∧
    processTransaction (library 10000 []) ⟨none⟩ context
      (redirected sent.reveal ⟨100000, outsider.scriptPubkey⟩) createdDb = ⟨[db'], .ok ()⟩ := by
  obtain ⟨sent, hsent⟩ := exists_ok_of_isSome (by decide +kernel :
    (joinSubnet (library 10000 []) soloCodec onePaymentWallet createdDb
      { joinMsg with collateral := 100000 }).toOption.isSome = true)
  obtain ⟨-, hopens, hrecorded, -⟩ := join_redirected (displayLaws_ideal _)
    (transactionLaws_ideal _) (weightLaws_ideal _) witnessCodecLaws_solo leafLaws_leaf
    walletLaws_onePayment (reachable_run _) hsent outsider 100000 (le_refl _) rfl ⟨none⟩ context
  obtain ⟨db', hdb', -⟩ := hrecorded (admits_createdDb (le_refl _) _)
  exact ⟨sent, db', hsent, hopens, hdb'⟩

/-- The subnet with its validator, once it has taken a checkpoint. -/
noncomputable def checkpointedDb (tx : Transaction) : HeedDb :=
  (run payingLibrary [createTx, joinTx 100000, tx]).store HeedDb.empty

/-- The transfer to a user arrives by a reveal that an outsider is paid. -/
theorem transfer_revealed_by_outsider : ∃ g reveal, payingAnswer user = .ok g ∧
    g.batchTransferTx = some reveal ∧
    ∃ b, Takes payingLibrary ⟨none⟩ context (checkpointedDb g.unsignedPsbt.unsignedTx)
      (redirected reveal ⟨546, outsider.scriptPubkey⟩) (.batchTransfer b) := by
  have htaken : (payingAnswer user).toOption.any (fun g => g.batchTransferTx.any (fun reveal =>
      (IpcBatchTransferMsg.fromTx payingLibrary context.native context.erc
        (checkpointedDb g.unsignedPsbt.unsignedTx) reveal).toOption.any (fun b =>
          (processIpcMsg payingLibrary ⟨none⟩ context reveal (.batchTransfer b)
            (checkpointedDb g.unsignedPsbt.unsignedTx)).outcome.toOption.isSome))) = true := by
    decide +kernel
  obtain ⟨g, hg, hreveals⟩ := (Option.any_eq_true _ _).mp htaken
  obtain ⟨reveal, hreveal, htakes⟩ := (Option.any_eq_true _ _).mp hreveals
  obtain ⟨b, hb, hhandled⟩ := (Option.any_eq_true _ _).mp htakes
  obtain ⟨_, hok⟩ := exists_ok_of_isSome hhandled
  obtain ⟨s, next, hgen⟩ := genCheckpointPsbt_inv (toOption_eq_some.mp hg)
  have hmade := hgen.reveal
  rw [hreveal] at hmade
  obtain ⟨hw, hplain⟩ := only_batch_of_reveal transactionLaws_paying hmade
  obtain ⟨-, hsame, -⟩ := batch_revealed_by_anyone displayLaws_paying transactionLaws_paying
    leafLaws_paying (reachable_run _) hmade outsider 546 rfl ⟨none⟩ context
  exact ⟨g, reveal, toOption_eq_some.mp hg, hreveal, b, (hsame b).mpr
    ⟨hw, (found_batch_iff hplain).mpr ⟨b, toOption_eq_some.mp hb, rfl⟩, hok⟩⟩

end Single

end Provider
