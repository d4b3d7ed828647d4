import BitcoinIpc.RevealAcceptance
import BitcoinIpc.Panics
import BitcoinIpc.Queues

/-!
# The delivery of the transfers of a checkpoint

A checkpoint locks the value of its transfers at their destinations, and its
reveal tells the destinations about them. The provider makes both transactions
from one request, and the monitor checks the second one on its own: it counts the
transfers with one byte, it looks at fields that the provider does not look at,
and it reads a destination from twenty bytes. Up to these, and up to the
checkpoints that it does not read, every transfer arrives once.
-/

namespace Monitor

open Faults Bytes Chain Messages Crates Multisig Db Grouping Commits OrderedTable Provider

variable {X : Library} {db : HeedDb} {t : Txid20}

/-- The database after the monitor processed a transaction. -/
def processed (X : Library) (cfg : Config) (ctx : BlockContext) (tx : Transaction) (db : HeedDb) :
    HeedDb :=
  (processTransaction X cfg ctx tx db).store db

/-- The checkpoint is taken, then its reveal, and the queue of every subnet gets the native and
the token transfers that the request has for it, and no other transfers. -/
def TransfersDelivered (X : Library) (cfg : Config) (ctx ctx' : BlockContext) (db : HeedDb)
    (r : CheckpointRequest) (tx reveal : Transaction) : Prop :=
  (∃ m, Takes X cfg ctx db tx (.checkpointSubnet m)) ∧
  (∃ b, Takes X cfg ctx' (processed X cfg ctx tx db) reveal (.batchTransfer b)) ∧
  ∀ u, ∃ new, queue X (processed X cfg ctx' reveal (processed X cfg ctx tx db)) u =
      queue X db u ++ new ∧
    new.filterMap deliveryOf = nativeFor u r.toMsg.transfers ++ ercFor u r.tokenTransfers

/-- The number that a checkpoint asks for is none, the current one or that of a later request. -/
def NumberKnown (X : Library) (db : HeedDb) (s : SubnetState) (id : SubnetId) (n : Nat) : Prop :=
  n = 0 ∨ n = s.committee.configurationNumber ∨
    (s.committee.configurationNumber < n ∧ ∃ c, db.getStakeChange X id n = some c)

/-- What the monitor asks of the records of a request and the provider does not. -/
structure Revealable (r : CheckpointRequest) : Prop where
  few : r.transfers.length ≤ 255
  users : ∀ t ∈ r.transfers, t.subnetUserAddress ≠ zeroEthAddress
  registrations : ∀ a ∈ r.tokenRegistrations,
    a.homeTokenAddress ≠ zeroEthAddress ∧ a.name ≠ [] ∧ a.symbol ≠ []
  tokenTransfers : ∀ e ∈ r.tokenTransfers,
    e.homeTokenAddress ≠ zeroEthAddress ∧ e.recipient ≠ zeroEthAddress
  destinations : ∀ e ∈ r.tokenTransfers, e.destinationSubnetId.InNamespace

/-- The records of the request can be revealed, the outputs that the counters of the checkpoint
announce are there, and a checkpoint that kills the subnet asks for a number that is known. -/
structure Deliverable (X : Library) (σ : MapOrders) (db : HeedDb) (r : CheckpointRequest)
    (unspent : List Utxo) (feeRate : FeeRate) : Prop where
  records : Revealable r
  checkpoint : ∀ s m next, db.getSubnetState X r.subnetId = some s →
    plannedCheckpoint X db r unspent = .ok (m, next) →
    m.Readable (m.leavesChange X σ s.committee next feeRate unspent) ∧
    (m.isKillCheckpoint = true →
      NumberKnown X db s r.subnetId r.nextCommitteeConfigurationNumber)

section Checkpoint

variable {cfg : Config} {ctx : BlockContext} {tx : Transaction} {m : IpcCheckpointSubnetMsg}
  {s : SubnetState}

theorem exists_rotation_iff : (∃ change, m.rotation X db s = .ok change) ↔
    NumberKnown X db s m.subnetId m.nextCommitteeConfigurationNumber := by
  unfold IpcCheckpointSubnetMsg.rotation NumberKnown
  dsimp only
  by_cases hstays : m.nextCommitteeConfigurationNumber = 0 ∨
      m.nextCommitteeConfigurationNumber = s.committee.configurationNumber
  · rw [if_pos hstays, ← or_assoc]
    exact iff_of_true ⟨none, rfl⟩ (Or.inl hstays)
  · rw [if_neg hstays, ← or_assoc, or_iff_right hstays]
    constructor
    · rintro ⟨change, h⟩
      obtain ⟨_, hle, h⟩ := bind_eq_ok.mp h
      obtain ⟨c, hc, -⟩ := bind_eq_ok.mp h
      have hle := ensure_eq_ok.mp hle
      exact ⟨by omega, c, okOr_eq_ok.mp hc⟩
    · rintro ⟨hlt, c, hc⟩
      exact ⟨some c, bind_eq_ok.mpr ⟨(), ensure_pos (Nat.le_of_lt hlt),
        bind_eq_ok.mpr ⟨c, okOr_eq_ok.mpr hc, rfl⟩⟩⟩

/-- A checkpoint is saved exactly when the number that it asks for is known. -/
theorem saves_checkpoint_iff {height : Nat} {hash : BlockHash} {txid : Txid}
    (hs : db.getSubnetState X m.subnetId = some s) :
    (∃ saved, m.saveToDb X db height hash txid = .ok saved) ↔
      NumberKnown X db s m.subnetId m.nextCommitteeConfigurationNumber := by
  rw [← exists_rotation_iff]
  constructor
  · rintro ⟨saved, h⟩
    obtain ⟨s', change, hs', hrot, -⟩ := IpcCheckpointSubnetMsg.saveToDb_eq_ok h
    rw [hs] at hs'
    cases hs'
    exact ⟨change, hrot⟩
  · rintro ⟨change, hrot⟩
    exact ⟨_, saveToDb_of_rotation height hash txid hs hrot⟩

variable (laws : DisplayLaws X)
include laws

/-- The address of the committee after a checkpoint can be imported. -/
theorem outcome_importCommittee (hsound : Sound X db) (record : SubnetCheckpoint)
    (hs : db.getSubnetState X m.subnetId = some s) :
    (importCommittee X m record db).outcome = .ok () := by
  obtain ⟨u, -, -, hgood, -⟩ := hsound.state laws hs
  unfold importCommittee
  split_ifs
  · rw [Proc.read_bind, okOr_eq_ok.mpr hs, Proc.lift_ok_bind,
      Address.requireNetwork_eq_ok.mpr ⟨hgood.derived.address_valid, rfl⟩, Proc.lift_ok_bind]
    rfl
  · rfl

/-- A checkpoint that was found is processed well exactly when it is valid and saved. -/
theorem outcome_checkpoint_iff (hsound : Sound X db)
    (hm : IpcCheckpointSubnetMsg.fromCheckpointTx X db tx = .ok m) :
    (processIpcMsg X cfg ctx tx (.checkpointSubnet m) db).outcome = .ok () ↔
      m.validate = .ok () ∧ ∃ saved,
        m.saveToDb X db ctx.blockHeight ctx.blockHash (X.computeTxid tx) = .ok saved := by
  simp only [processIpcMsg, processCheckpointSubnet]
  cases hv : m.validate with
  | error e => cases e <;> simp [orMsgInvalid, mapErr]
  | ok u =>
    cases hsave : m.saveToDb X db ctx.blockHeight ctx.blockHash (X.computeTxid tx) with
    | error e => cases e <;> simp [orMsgInvalid, orProcessing, mapErr, hsave]
    | ok saved =>
      refine iff_of_true ?_ ⟨rfl, saved, rfl⟩
      obtain ⟨s, change, hs, hrot, heq⟩ := IpcCheckpointSubnetMsg.saveToDb_eq_ok hsave
      obtain ⟨v, hid, -⟩ := hsound.state laws hs
      have hcommit : Commit X db (.message ctx tx (.checkpointSubnet m)) saved.1 :=
        .checkpointSubnet hm hv hsave
      have hsound' : Sound X (saved.1.saveTransaction X tx) :=
        Sound.commit laws (Sound.commit laws hsound hcommit) .transaction
      have hstate : (saved.1.saveTransaction X tx).getSubnetState X m.subnetId =
          some (m.checkpointedState s change ctx.blockHeight) := by
        rw [heq, hid]
        exact (getSubnetState_checkpointedDb laws db s change _ _ _ hid v).trans (if_pos rfl)
      have himport := outcome_importCommittee laws hsound' saved.2 hstate
      simp only [orMsgInvalid, orProcessing, mapErr, Proc.lift_ok_bind, Proc.read_bind, hsave,
        Proc.commit_bind]
      rw [Proc.bind_ok himport]
      exact outcome_rewardCheckpoint m saved.2

/-- The monitor takes a checkpoint that was built exactly when it can read it and knows the
number that it asks for. -/
theorem takes_checkpoint_iff (cfg : Config) (ctx : BlockContext) (hX : TransactionLaws X)
    (hsound : Sound X db) {σ : MapOrders} {next : SubnetCommittee} {feeRate : FeeRate}
    {unspent : List Utxo} {psbt : Psbt} (hd : m.Drafted) (hid : m.subnetId = .fromTxid20 t)
    (hs : db.getSubnetState X (.fromTxid20 t) = some s)
    (hpsbt : m.toCheckpointPsbt X σ s.committee next feeRate unspent = .ok psbt)
    (htx : tx.output = psbt.unsignedTx.output) (hw : witnessMessages X tx = []) :
    (∃ m', Takes X cfg ctx db tx (.checkpointSubnet m')) ↔
      m.Readable (m.leavesChange X σ s.committee next feeRate unspent) ∧
        NumberKnown X db s m.subnetId m.nextCommitteeConfigurationNumber := by
  obtain ⟨value, rest, hout⟩ := IpcCheckpointSubnetMsg.output_of_toCheckpointPsbt hid hpsbt
  have hmeta := htx.trans hout
  -- what is read asks for the number of the message
  have hsaves : ∀ m', IpcCheckpointSubnetMsg.fromCheckpointTx X db tx = .ok m' →
      ((∃ saved, m'.saveToDb X db ctx.blockHeight ctx.blockHash (X.computeTxid tx) = .ok saved) ↔
        NumberKnown X db s m.subnetId m.nextCommitteeConfigurationNumber) := by
    intro m' hm'
    obtain ⟨hsub, hnum⟩ := read_fields hd hmeta hm'
    rw [saves_checkpoint_iff (hsub ▸ hs), hsub, hnum, hid]
  rw [← IpcCheckpointSubnetMsg.accepted_iff_readable hX hd hid hs hpsbt htx]
  constructor
  · rintro ⟨m', -, hfound, hok⟩
    have hm' : IpcCheckpointSubnetMsg.fromCheckpointTx X db tx = .ok m' :=
      (parsed_of_mem_outputParsers (mem_of_firstParsed hfound)).1
    obtain ⟨hvalid, hsave⟩ := (outcome_checkpoint_iff laws hsound hm').mp hok
    exact ⟨⟨m', hm', hvalid⟩, (hsaves m' hm').mp hsave⟩
  · rintro ⟨⟨m', hm', hvalid⟩, hnumber⟩
    exact ⟨m', hw, found_checkpoint ctx hmeta hm',
      (outcome_checkpoint_iff laws hsound hm').mpr ⟨hvalid, (hsaves m' hm').mpr hnumber⟩⟩

end Checkpoint

/-- A database after a checkpoint of the subnet in the transaction. -/
structure Checkpointed (X : Library) (db : HeedDb) (t : Txid20) (tx : Transaction)
    (after : HeedDb) : Prop where
  reachable : Reachable X after
  states : ∀ u, (db.getSubnetState X (.fromTxid20 u)).isSome = true →
    (after.getSubnetState X (.fromTxid20 u)).isSome = true
  last : ∃ s number c, after.getSubnetState X (.fromTxid20 t) = some s ∧
    s.lastCheckpointNumber = some number ∧ after.getCheckpoint X (.fromTxid20 t) number = some c
  transaction : after.getTransaction (X.computeTxid tx) = some tx
  balances : after.tokenBalancesDb = db.tokenBalancesDb
  messages : after.rootnetMsgsDb = db.rootnetMsgsDb

theorem Reachable.commit {db' : HeedDb} {e : Event} (h : Reachable X db)
    (hstep : Commit X db e db') : Reachable X db' := by
  obtain ⟨l, hl, rfl⟩ := h
  exact ⟨l ++ [(e, db')], trail_snoc.mpr ⟨hl, hstep⟩, lastStore_snoc _ _ _ _⟩

theorem checkpointed_of_taken (laws : DisplayLaws X) (hreach : Reachable X db) {cfg : Config}
    {ctx : BlockContext} {tx : Transaction} {m m' : IpcCheckpointSubnetMsg} {value : Amount}
    {rest : List TxOut} (hd : m'.Drafted)
    (hout : tx.output = ⟨value, makeOpReturnScript (m'.metadata t)⟩ :: rest)
    (h : Takes X cfg ctx db tx (.checkpointSubnet m)) :
    Checkpointed X db t tx (processed X cfg ctx tx db) := by
  have hsound := sound_of_reachable laws hreach
  have hm : IpcCheckpointSubnetMsg.fromCheckpointTx X db tx = .ok m :=
    (parsed_of_mem_outputParsers (mem_of_firstParsed h.2.1)).1
  obtain ⟨hvalid, saved, hsave⟩ := (outcome_checkpoint_iff laws hsound hm).mp h.2.2
  obtain ⟨hsub, -⟩ := read_fields hd hout hm
  obtain ⟨s, change, hs, hrot, heq⟩ := IpcCheckpointSubnetMsg.saveToDb_eq_ok hsave
  obtain ⟨-, hrewards⟩ := store_of_accepted cfg ctx h.1 hout hm hvalid hsave
  have hcommit : Commit X db (.message ctx tx (.checkpointSubnet m)) saved.1 :=
    .checkpointSubnet hm hvalid hsave
  have htables := tables_of_commit hcommit
  have hreached : Reachable X (processed X cfg ctx tx db) :=
    ((hreach.commit hcommit).commit .transaction).commit (.rewards hrewards)
  have hstate := getSubnetState_checkpointedDb laws db s change ctx.blockHeight ctx.blockHash
    (X.computeTxid tx) hsub
  have hrecord := getCheckpoint_checkpointedDb laws db s change ctx.blockHeight ctx.blockHash
    (X.computeTxid tx) hsub t (m.checkpointRecord s change ctx.blockHeight
      (X.computeTxid tx)).checkpointNumber
  rw [if_pos ⟨rfl, rfl⟩] at hrecord
  obtain ⟨candidates, results, hstore⟩ := hrewards
  have hafter : processed X cfg ctx tx db = { saved.1.saveTransaction X tx with
      rewardCandidatesDb := candidates, rewardResultsDb := results } := hstore
  refine ⟨hreached, ?_, ?_, ?_, ?_, ?_⟩
  · intro u hu
    have hget : (processed X cfg ctx tx db).getSubnetState X (.fromTxid20 u) =
        saved.1.getSubnetState X (.fromTxid20 u) := by
      rw [hafter]
      rfl
    rw [hget, heq, hstate]
    split_ifs
    · rfl
    · exact hu
  · refine ⟨m.checkpointedState s change ctx.blockHeight, _,
      m.checkpointRecord s change ctx.blockHeight (X.computeTxid tx), ?_,
      lastCheckpointNumber_checkpointedState s change ctx.blockHeight (X.computeTxid tx), ?_⟩
    · rw [hafter, heq]
      exact (hstate t).trans (if_pos rfl)
    · rw [hafter, heq]
      exact hrecord
  · rw [hafter]
    exact (HeedDb.getTransaction_save X saved.1 tx _).trans (if_pos rfl)
  · rw [hafter]
    exact htables.1 rfl
  · rw [hafter]
    exact htables.2.2 rfl

section Reveal

variable {tx reveal : Transaction} {σ τ : MapOrders} {r : CheckpointRequest} {unspent : List Utxo}
  {feeRate : FeeRate} {g : GenCheckpointPsbt} {s : SubnetState} {next : SubnetCommittee}
  {after : HeedDb}

/-- The destinations of the native transfers exist, and so they are in the namespace. -/
theorem destinations_of_generated (laws : DisplayLaws X) (hsound : Sound X db)
    (hgen : Generated X σ τ db r unspent feeRate g s next) :
    ∀ a ∈ g.msg.transfers, ∃ u, a.destinationSubnetId = .fromTxid20 u ∧
      (db.getSubnetState X (.fromTxid20 u)).isSome = true := by
  intro a ha
  obtain ⟨-, -, -, htransfers⟩ := hgen.records
  obtain ⟨a', -, s', hs', rfl⟩ := exists_of_forall₂ htransfers ha
  obtain ⟨u, hu, -⟩ := hsound.state laws hs'
  refine ⟨u, hu, ?_⟩
  rw [← hu, hs']
  rfl

/-- The output that the reveal spends is one of the checkpoint. -/
theorem vout_lt {m : IpcCheckpointSubnetMsg} {committee : SubnetCommittee} {psbt : Psbt}
    (hbatch : m.hasBatch = true)
    (hpsbt : m.toCheckpointPsbt X σ committee next feeRate unspent = .ok psbt) :
    1 + m.withdrawals.length + m.unstakes.length < psbt.unsignedTx.output.length := by
  obtain ⟨id, batch, us, change, -, hmade, hraised, -, -, -, -, hout⟩ :=
    IpcCheckpointSubnetMsg.layout_of_toCheckpointPsbt hpsbt
  have hlen := IpcCheckpointSubnetMsg.length_rest change
    (IpcCheckpointSubnetMsg.batchLayout_of_batchOutputs hmade) hraised
  rw [IpcCheckpointSubnetMsg.batchLength, if_pos hbatch] at hlen
  rw [hout, List.length_cons, List.length_append, hlen, List.length_map]
  omega

/-- The reveal is found, after its checkpoint, as a batch with the records of the checkpoint that
names it and one of its outputs. -/
theorem exists_found_reveal (laws : DisplayLaws X) (hX : TransactionLaws X) (codec : CodecLaws X)
    (ctx : BlockContext) (hsound : Sound X db)
    (hgen : Generated X σ τ db r unspent feeRate g s next)
    (htx : tx.stripped = g.unsignedPsbt.unsignedTx) (hreveal : g.batchTransferTx = some reveal)
    (hafter : Checkpointed X db t tx after) :
    g.msg.hasBatch = true ∧ ∃ b, Regrouped g.msg b ∧
      IpcBatchTransferMsg.fromTx X ctx.native ctx.erc after reveal = .ok b ∧
      witnessMessages X reveal = [] ∧
      (firstParsed (outputParsers X ctx after reveal) : Outcome MonitorError _) =
        .ok (some (.batchTransfer b)) ∧
      b.checkpointTxid = X.computeTxid tx ∧ b.checkpointVout < tx.output.length := by
  have hdests := destinations_of_generated laws hsound hgen
  have hnamed : ∀ a ∈ g.msg.transfers, a.destinationSubnetId.InNamespace := by
    intro a ha
    obtain ⟨u, hu, -⟩ := hdests a ha
    exact ⟨u, hu⟩
  have hexist : ∀ a ∈ g.msg.transfers,
      (after.getSubnetState X a.destinationSubnetId).isSome = true := by
    intro a ha
    obtain ⟨u, hu, hsome⟩ := hdests a ha
    rw [hu]
    exact hafter.states u hsome
  have hmade := hgen.reveal
  rw [hreveal] at hmade
  have hbatch := (IpcCheckpointSubnetMsg.makeRevealBatchTransferTx_eq_ok hmade).1
  obtain ⟨b, hb, htxid, hvout, hregrouped⟩ := fromTx_reveal codec ctx.native ctx.erc
    hnamed hexist hmade
  obtain ⟨u, -, -, hgood, -⟩ := hsound.state laws hgen.found
  have haddress : ∃ k, s.committee.multisigAddress.scriptPubkey = Address.p2trScript k := by
    rw [hgood.derived.address_eq]
    exact ⟨_, rfl⟩
  obtain ⟨k, hk⟩ := haddress
  obtain ⟨hwitness, hfound⟩ := found_reveal hX ctx hk hmade hb
  refine ⟨hbatch, b, hregrouped, hb, hwitness, hfound, ?_, ?_⟩
  · rw [htxid, ← htx, hX.txid_stripped]
  · have hout : tx.output = g.unsignedPsbt.unsignedTx.output := by
      rw [← htx]
      rfl
    rw [hvout, hout]
    exact vout_lt hbatch hgen.psbt

/-- A batch with the records of its checkpoint is saved exactly when they are complete and as many
as the counter announces. -/
theorem batch_saved_iff (laws : DisplayLaws X) (hX : TransactionLaws X)
    (hgen : Generated X σ τ db r unspent feeRate g s next) (hd : g.msg.Drafted)
    (hid : g.msg.subnetId = .fromTxid20 t)
    (hread : g.msg.Readable (g.msg.leavesChange X σ s.committee next feeRate unspent))
    (htx : tx.stripped = g.unsignedPsbt.unsignedTx) (hbatch : g.msg.hasBatch = true)
    (hafter : Checkpointed X db t tx after) {b : IpcBatchTransferMsg}
    (hregrouped : Regrouped g.msg b) (hspent : b.checkpointTxid = X.computeTxid tx)
    (hvout : b.checkpointVout < tx.output.length) (o : IpcBatchTransferMsg.Origin) :
    (∃ b' saved, checkBatch X after b = .ok b' ∧ b'.saveToDb X after o = .ok saved) ↔
      g.msg.Complete ∧ g.msg.transfers.length ≤ 255 := by
  have hout : tx.output = g.unsignedPsbt.unsignedTx.output := by
    rw [← htx]
    rfl
  obtain ⟨value, rest, hlayout⟩ := IpcCheckpointSubnetMsg.output_of_toCheckpointPsbt hid hgen.psbt
  have hmeta := hout.trans hlayout
  have hlinked := validateForCheckpoint_iff hmeta hspent hvout
  have hlength : b.transfers.length = g.msg.transfers.length := by
    have hperm := hregrouped.transfers.length_eq
    rwa [List.length_map, List.length_map] at hperm
  have hvalid := hregrouped.validate_iff (by rw [hspent]; exact hX.txid_ne_zero tx) hbatch
    hd.transfers (amounts_of_validate hgen.tokens)
  constructor
  · rintro ⟨b', saved, hcheck, -⟩
    obtain ⟨hfields, c, checkpoint, hc, -, -, hlinks, -⟩ := checkBatch_eq_ok.mp hcheck
    rw [hspent, hafter.transaction] at hc
    cases hc
    have hcount := hlinked.mp hlinks
    exact ⟨hvalid.mp hfields, by omega⟩
  · rintro ⟨hcomplete, hle⟩
    obtain ⟨s₁, number, c, hs₁, hnumber, hc⟩ := hafter.last
    -- the checkpoint is read again, from the database that it left
    obtain ⟨checkpoint, hparsed, hchecked⟩ :=
      (IpcCheckpointSubnetMsg.accepted_iff_readable hX hd hid hs₁ hgen.psbt hout).mpr hread
    obtain ⟨hsub, -⟩ := read_fields hd hmeta hparsed
    have hcheck : checkBatch X after b = .ok { b with subnetId := .fromTxid20 t } := by
      refine checkBatch_eq_ok.mpr ⟨hvalid.mpr hcomplete, tx, checkpoint, ?_, hparsed, hchecked,
        hlinked.mpr (by omega), by rw [hsub]⟩
      rw [hspent]
      exact hafter.transaction
    have htokens : validateErcBatchData X (.fromTxid20 t) b.tokenRegistrations
        b.tokenSupplyAdjustments b.tokenTransfers after = .ok () := by
      rw [validateErcBatchData_congr hafter.balances, hregrouped.registrations,
        hregrouped.adjustments]
      exact validateErcBatchData_wires laws hregrouped.wires.symm (hid ▸ hgen.tokens)
    obtain ⟨saved, hsave⟩ := IpcBatchTransferMsg.exists_saved laws
      (b := { b with subnetId := .fromTxid20 t }) o hs₁ hnumber hc htokens
    exact ⟨_, saved, hcheck, hsave⟩

end Reveal

/-- What is delivered of native transfers is what is revealed of them. -/
theorem nativeFor_eq (u : Txid20) (l : List IpcCrossSubnetTransfer) :
    nativeFor u l = (Messages.nativeRecords l (.fromTxid20 u)).map (fun a => .native a.2 a.1) := by
  simp only [nativeFor, Messages.nativeRecords, valuesAt, List.filter_map, List.map_map]
  rfl

theorem ercFor_eq (u : Txid20) (l : List IpcCrossSubnetErcTransfer) :
    ercFor u l = (Messages.ercRecords l (.fromTxid20 u)).map (fun w =>
      .erc ⟨w.homeSubnetId, w.homeTokenAddress, w.amount, .fromTxid20 u, w.recipient⟩) := by
  simp only [ercFor, Messages.ercRecords, valuesAt, List.filter_map, List.map_map]
  refine List.map_congr_left (fun e he => ?_)
  have hdest := of_decide_eq_true (List.mem_filter.mp he).2
  cases e
  cases hdest
  rfl

/-- A token transfer to a subnet is delivered as often as it is listed. -/
theorem count_ercFor {u : Txid20} {e : IpcCrossSubnetErcTransfer}
    (he : e.destinationSubnetId = .fromTxid20 u) (l : List IpcCrossSubnetErcTransfer) :
    (ercFor u l).count (.erc e) = l.count e := by
  rw [ercFor, List.count_map_of_injective _ _ (fun _ _ h => Delivery.erc.inj h)]
  exact List.count_filter (decide_eq_true he)

/-- Token transfers to subnets of the namespace arrive as they are listed only if no others are
listed. -/
theorem named_of_ercFor {l l' : List IpcCrossSubnetErcTransfer}
    (hnamed : ∀ e ∈ l, e.destinationSubnetId.InNamespace) (hlen : l'.length ≤ l.length)
    (h : ∀ u, ercFor u l = ercFor u l') : ∀ e ∈ l', e.destinationSubnetId.InNamespace := by
  have hsub : l.Subperm l' := by
    refine List.subperm_ext_iff.mpr (fun e he => ?_)
    obtain ⟨u, hu⟩ := hnamed e he
    rw [← count_ercFor hu l, h u, count_ercFor hu l']
  have hperm := hsub.perm_of_length_le hlen
  exact fun e he => hnamed e (hperm.mem_iff.mpr he)

/-- The transfers of a regrouped batch are those of the request for every subnet exactly when
every destination is in the namespace. -/
theorem delivers_regrouped_iff {m : IpcCheckpointSubnetMsg} {b : IpcBatchTransferMsg}
    (h : Regrouped m b) :
    (∀ u, nativeFor u b.transfers ++ ercFor u b.tokenTransfers =
      nativeFor u m.transfers ++ ercFor u m.tokenTransfers) ↔
        ∀ e ∈ m.tokenTransfers, e.destinationSubnetId.InNamespace := by
  have hnative : ∀ u, nativeFor u b.transfers = nativeFor u m.transfers := by
    intro u
    rw [nativeFor_eq, nativeFor_eq, h.native]
  constructor
  · intro hall
    refine named_of_ercFor h.named ?_ (fun u => ?_)
    · have hlen := h.wires.length_eq
      rw [List.length_map, List.length_map] at hlen
      exact hlen.ge
    · have hu := hall u
      rw [hnative u] at hu
      exact List.append_cancel_left hu
  · intro hnamed u
    rw [hnative u, ercFor_eq, ercFor_eq, (h.erc hnamed).2]

section Condition

variable {σ τ : MapOrders} {r : CheckpointRequest} {unspent : List Utxo} {feeRate : FeeRate}
  {g : GenCheckpointPsbt} {s : SubnetState} {next : SubnetCommittee}

/-- What is revealed of the transfers of the request is what is revealed of those of the
checkpoint. -/
theorem revealed_of_generated (hgen : Generated X σ τ db r unspent feeRate g s next) :
    g.msg.transfers.map (·.revealed) = r.toMsg.transfers.map (·.revealed) := by
  obtain ⟨-, -, -, htransfers⟩ := hgen.records
  refine (map_of_forall₂ htransfers (fun a _ a' ha => ?_)).symm
  obtain ⟨s', -, rfl⟩ := ha
  rfl

/-- The records of the checkpoint are those that the request can reveal. -/
theorem revealable_iff (hgen : Generated X σ τ db r unspent feeRate g s next) :
    Revealable r ↔ (g.msg.Complete ∧ g.msg.transfers.length ≤ 255) ∧
      ∀ e ∈ g.msg.tokenTransfers, e.destinationSubnetId.InNamespace := by
  have hrevealed := revealed_of_generated hgen
  obtain ⟨hregistrations, -, htokens, -⟩ := hgen.records
  have hlen : g.msg.transfers.length = r.transfers.length := by
    have hmaps := congrArg List.length hrevealed
    simpa [CheckpointRequest.toMsg] using hmaps
  have husers : (∀ a ∈ g.msg.transfers, a.subnetUserAddress ≠ zeroEthAddress) ↔
      ∀ a ∈ r.transfers, a.subnetUserAddress ≠ zeroEthAddress := by
    refine (forall_of_perm_map (.of_eq hrevealed) (fun a => a.2.1 ≠ zeroEthAddress)).trans ?_
    simp [CheckpointRequest.toMsg, TransferRequest.toTransfer, IpcCrossSubnetTransfer.revealed]
  rw [htokens]
  constructor
  · intro h
    exact ⟨⟨⟨husers.mpr h.users, hregistrations ▸ h.registrations, htokens ▸ h.tokenTransfers⟩,
      hlen ▸ h.few⟩, h.destinations⟩
  · rintro ⟨⟨hcomplete, hfew⟩, hnamed⟩
    exact ⟨hlen ▸ hfew, husers.mp hcomplete.users, hregistrations ▸ hcomplete.registrations,
      htokens ▸ hcomplete.tokenTransfers, hnamed⟩

/-- A checkpoint that does not kill the subnet asks for a number that is known. -/
theorem numberKnown_of_generated (hgen : Generated X σ τ db r unspent feeRate g s next)
    (hkill : g.msg.isKillCheckpoint = false) :
    NumberKnown X db s r.subnetId r.nextCommitteeConfigurationNumber := by
  obtain ⟨kill, m, -, hm, hplan⟩ := hgen.planned
  obtain ⟨ts, rfl, -⟩ := updateSubnetsForTransfer_inv hm
  rcases planRotation_cases hplan with ⟨-, hmsg, -⟩ | ⟨hlt, c, hc, -, -⟩ | ⟨hn, -, -⟩
  · rw [hmsg] at hkill
    cases hkill
  · exact Or.inr (Or.inr ⟨hlt, c, hc⟩)
  · rw [NumberKnown, ← or_assoc]
    exact Or.inl hn

theorem deliverable_iff (hgen : Generated X σ τ db r unspent feeRate g s next) :
    Deliverable X σ db r unspent feeRate ↔
      (g.msg.Readable (g.msg.leavesChange X σ s.committee next feeRate unspent) ∧
        NumberKnown X db s r.subnetId r.nextCommitteeConfigurationNumber) ∧ Revealable r := by
  constructor
  · intro h
    obtain ⟨hread, hnumber⟩ := h.checkpoint s g.msg next hgen.found hgen.plannedCheckpoint_eq
    refine ⟨⟨hread, ?_⟩, h.records⟩
    cases hkill : g.msg.isKillCheckpoint with
    | true => exact hnumber hkill
    | false => exact numberKnown_of_generated hgen hkill
  · rintro ⟨⟨hread, hnumber⟩, hrecords⟩
    refine ⟨hrecords, fun s' m' next' hs' hplanned' => ?_⟩
    rw [hgen.found] at hs'
    rw [hgen.plannedCheckpoint_eq] at hplanned'
    cases hs'
    cases hplanned'
    exact ⟨hread, fun _ => hnumber⟩

end Condition

/-- The transfers of a request go where those of its checkpoint go. -/
theorem asked_of_generated {σ τ : MapOrders} {r : CheckpointRequest} {unspent : List Utxo}
    {feeRate : FeeRate} {g : GenCheckpointPsbt} {s : SubnetState} {next : SubnetCommittee}
    (hgen : Generated X σ τ db r unspent feeRate g s next) (u : Txid20) :
    nativeFor u r.toMsg.transfers ++ ercFor u r.tokenTransfers =
      nativeFor u g.msg.transfers ++ ercFor u g.msg.tokenTransfers := by
  obtain ⟨-, -, htokens, -⟩ := hgen.records
  have hsame : Messages.nativeRecords r.toMsg.transfers = Messages.nativeRecords g.msg.transfers :=
    funext (fun _ => congrArg (valuesAt · _) (revealed_of_generated hgen).symm)
  rw [nativeFor_eq, nativeFor_eq, hsame, htokens]

/-- A batch that is found is taken when it is saved. -/
theorem takes_batch_iff {cfg : Config} {ctx : BlockContext} {reveal : Transaction} {after : HeedDb}
    {b : IpcBatchTransferMsg} (hwitness : witnessMessages X reveal = [])
    (hfound : (firstParsed (outputParsers X ctx after reveal) : Outcome MonitorError _) =
      .ok (some (.batchTransfer b))) :
    (∃ b, Takes X cfg ctx after reveal (.batchTransfer b)) ↔ ∃ b' saved,
      checkBatch X after b = .ok b' ∧ b'.saveToDb X after
        ⟨ctx.blockHeight, ctx.blockHash, X.computeTxid reveal⟩ = .ok saved := by
  rw [← outcome_batch_iff cfg]
  constructor
  · rintro ⟨b₁, -, hfound₁, hok⟩
    rw [hfound] at hfound₁
    cases hfound₁
    exact hok
  · intro hok
    exact ⟨b, hwitness, hfound, hok⟩

/-- After its checkpoint the reveal is taken and delivers the transfers of the request exactly when
they can be revealed. -/
theorem reveal_delivers_iff (laws : DisplayLaws X) (hX : TransactionLaws X) (codec : CodecLaws X)
    (hsound : Sound X db) {cfg : Config} {ctx : BlockContext} {tx reveal : Transaction}
    {σ τ : MapOrders} {r : CheckpointRequest} {unspent : List Utxo} {feeRate : FeeRate}
    {g : GenCheckpointPsbt} {s : SubnetState} {next : SubnetCommittee} {after : HeedDb}
    (hgen : Generated X σ τ db r unspent feeRate g s next) (hd : g.msg.Drafted)
    (hid : g.msg.subnetId = .fromTxid20 t)
    (hread : g.msg.Readable (g.msg.leavesChange X σ s.committee next feeRate unspent))
    (htx : tx.stripped = g.unsignedPsbt.unsignedTx) (hreveal : g.batchTransferTx = some reveal)
    (hafter : Checkpointed X db t tx after) :
    ((∃ b, Takes X cfg ctx after reveal (.batchTransfer b)) ∧
      ∀ u, ∃ new, queue X (processed X cfg ctx reveal after) u = queue X db u ++ new ∧
        new.filterMap deliveryOf = nativeFor u r.toMsg.transfers ++ ercFor u r.tokenTransfers) ↔
      Revealable r := by
  obtain ⟨hbatch, b, hregrouped, hparsed, hwitness, hfound, hspent, hvout⟩ :=
    exists_found_reveal laws hX codec ctx hsound hgen htx hreveal hafter
  have hsaved := batch_saved_iff laws hX hgen hd hid hread htx hbatch hafter hregrouped hspent hvout
    ⟨ctx.blockHeight, ctx.blockHash, X.computeTxid reveal⟩
  rw [takes_batch_iff hwitness hfound, revealable_iff hgen, ← delivers_regrouped_iff hregrouped, ← hsaved]
  refine and_congr_right ?_
  rintro ⟨b', saved, hcheck, hsave⟩
  refine forall_congr' (fun u => ?_)
  have hreached := sound_of_reachable laws hafter.reachable
  obtain ⟨hnative, herc⟩ := fromTx_homes hparsed
  have hchecked := checkBatch_eq hcheck
  have hdelivers := delivers_saveToDb laws hreached (by rw [hchecked]; exact hnative)
    (by rw [hchecked]; exact herc) hsave
  obtain ⟨-, new, hnew, hcontent⟩ := hdelivers u (denseQueue_of_reachable laws hafter.reachable u)
  have hqueue : queue X after u = queue X db u := by
    rw [queue, hafter.messages, queue]
  rw [processed, store_of_batch cfg hwitness hfound hcheck hsave, hnew, hqueue]
  have hsent : new.filterMap deliveryOf =
      nativeFor u b.transfers ++ ercFor u b.tokenTransfers := by
    refine hcontent.trans ?_
    rw [hchecked]
  rw [asked_of_generated hgen, ← hsent]
  constructor
  · rintro ⟨new', hnew', hcontent'⟩
    rw [List.append_cancel_left hnew']
    exact hcontent'
  · intro heq
    exact ⟨new, rfl, heq⟩

/-- The transfers of a request that the provider answered all arrive exactly when the request is
deliverable. -/
theorem transfers_delivered_iff (laws : DisplayLaws X) (hX : TransactionLaws X) {P : Postcard}
    (texts : FvmTextLaws X) (hP : PostcardLaws X P) (hreach : Reachable X db) (cfg : Config)
    (ctx ctx' : BlockContext) {σ τ : MapOrders} {validator : XOnlyPublicKey}
    {r : CheckpointRequest} {unspent : List Utxo} {feeRate : FeeRate} {g : GenCheckpointPsbt}
    {tx reveal : Transaction}
    (hgen : genCheckpointPsbt X σ τ db validator r unspent feeRate = .ok g)
    (hreveal : g.batchTransferTx = some reveal) (hheight : r.checkpointHeight < 2 ^ 64)
    (hnumber : r.nextCommitteeConfigurationNumber < 2 ^ 64)
    (htx : tx.stripped = g.unsignedPsbt.unsignedTx) (hw : witnessMessages X tx = []) :
    TransfersDelivered X cfg ctx ctx' db r tx reveal ↔ Deliverable X σ db r unspent feeRate := by
  obtain ⟨s, next, hgen⟩ := genCheckpointPsbt_inv hgen
  obtain ⟨htaken, hplan⟩ := hgen.taken_plan
  have hsound := sound_of_reachable laws hreach
  obtain ⟨t, ht, -⟩ := hsound.state laws hgen.found
  have hst := ht ▸ hgen.found
  have hid : g.msg.subnetId = .fromTxid20 t := htaken.subnetId_eq.trans ht
  have hd := drafted_of_plan laws hreach hst ht htaken hplan hheight hnumber
  have hout : tx.output = g.unsignedPsbt.unsignedTx.output := by
    rw [← htx]
    rfl
  have hcheckpoint := takes_checkpoint_iff laws cfg ctx hX hsound hd hid hst hgen.psbt hout hw
  rw [htaken.subnetId_eq, htaken.number_eq] at hcheckpoint
  rw [deliverable_iff hgen, ← hcheckpoint, TransfersDelivered]
  refine and_congr_right ?_
  rintro ⟨m, hm⟩
  obtain ⟨hread, -⟩ := hcheckpoint.mp ⟨m, hm⟩
  obtain ⟨value, rest, hlayout⟩ := IpcCheckpointSubnetMsg.output_of_toCheckpointPsbt hid hgen.psbt
  exact reveal_delivers_iff laws hX (codecLaws_of_postcard texts hP) hsound hgen hd hid hread htx
    hreveal (checkpointed_of_taken laws hreach hd (hout.trans hlayout) hm)

open Solo

/-- A request to pay five thousand units to a user of the subnet itself. -/
def payingRequest (user : EthAddress) : CheckpointRequest :=
  { bareRequest 0 with transfers := [⟨5000, .fromTxid20 subnet, user⟩] }

/-- The batch of this request. -/
def payingWire (user : EthAddress) : BatchTransferWireData :=
  ⟨[(subnet, [(user, 5000)])], [], [], []⟩

/-- What the subnet is run with, and the serialized batches of a user and of none. -/
def payingIdeal : Ideal :=
  { creates := [createMsg 10000], joins := [joinMsg],
    batches := [payingWire user, payingWire zeroEthAddress] }

noncomputable def payingLibrary : Library :=
  { ideal payingIdeal with fvmFromStr := Function.partialInv fvmText }

theorem displayLaws_paying : DisplayLaws payingLibrary where
  fvm_injective := (displayLaws_ideal payingIdeal).fvm_injective
  fvm_no_colon := (displayLaws_ideal payingIdeal).fvm_no_colon
  delegated_length := (displayLaws_ideal payingIdeal).delegated_length
  eth_injective := (displayLaws_ideal payingIdeal).eth_injective
  eth_no_colon := (displayLaws_ideal payingIdeal).eth_no_colon

theorem transactionLaws_paying : TransactionLaws payingLibrary where
  txid_stripped := (transactionLaws_ideal payingIdeal).txid_stripped
  txid_ne_zero := (transactionLaws_ideal payingIdeal).txid_ne_zero
  controlBlock_leaf := (transactionLaws_ideal payingIdeal).controlBlock_leaf
  nonDust_pos := (transactionLaws_ideal payingIdeal).nonDust_pos

theorem fvmTextLaws_paying : FvmTextLaws payingLibrary where
  fvm_no_slash := fvmText_no_slash
  fvm_read_back a := Function.partialInv_left fvmText_injective a

theorem postcardLaws_paying : PostcardLaws payingLibrary (postcardOf payingLibrary) :=
  postcardLaws_of fvmTextLaws_paying ⟨(codecLaws_ideal payingIdeal).decode_encode⟩

/-- The subnet with its validator. -/
noncomputable def payingDb : HeedDb :=
  (run payingLibrary [createTx, joinTx 100000]).store HeedDb.empty

noncomputable def payingAnswer (user : EthAddress) : Outcome RpcError GenCheckpointPsbt :=
  genCheckpointPsbt payingLibrary listedOrders listedOrders payingDb key (payingRequest user) [coin]
    1000

/-- The answer has a reveal, and its checkpoint has no witnesses yet. -/
def Answered (X : Library) (x : Outcome RpcError GenCheckpointPsbt) : Bool :=
  x.toOption.any (fun g => g.batchTransferTx.isSome &&
    decide (g.unsignedPsbt.unsignedTx.stripped = g.unsignedPsbt.unsignedTx) &&
      (witnessMessages X g.unsignedPsbt.unsignedTx).isEmpty)

theorem exists_answer {X : Library} {x : Outcome RpcError GenCheckpointPsbt}
    (h : Answered X x = true) : ∃ g reveal, x = .ok g ∧ g.batchTransferTx = some reveal ∧
      g.unsignedPsbt.unsignedTx.stripped = g.unsignedPsbt.unsignedTx ∧
      witnessMessages X g.unsignedPsbt.unsignedTx = [] := by
  obtain ⟨g, hg, h⟩ := (Option.any_eq_true _ _).mp h
  rw [Bool.and_eq_true, Bool.and_eq_true, decide_eq_true_iff, List.isEmpty_iff] at h
  obtain ⟨⟨hsome, hstripped⟩, hw⟩ := h
  obtain ⟨reveal, hreveal⟩ := Option.isSome_iff_exists.mp hsome
  exact ⟨g, reveal, toOption_eq_some.mp hg, hreveal, hstripped, hw⟩

/-- A transfer to a user arrives. -/
theorem transfer_to_user_delivered : ∃ g reveal, Reachable payingLibrary payingDb ∧
    payingAnswer user = .ok g ∧ g.batchTransferTx = some reveal ∧
    TransfersDelivered payingLibrary ⟨none⟩ context context payingDb (payingRequest user)
      g.unsignedPsbt.unsignedTx reveal := by
  have hanswered : Answered payingLibrary (payingAnswer user) = true := by
    decide +kernel
  obtain ⟨g, reveal, hg, hreveal, hstripped, hw⟩ := exists_answer hanswered
  have hread : (payingDb.getSubnetState payingLibrary (payingRequest user).subnetId).all (fun s =>
      (plannedCheckpoint payingLibrary payingDb (payingRequest user) [coin]).toOption.all (fun p =>
        decide (p.1.Readable (p.1.leavesChange payingLibrary listedOrders s.committee p.2 1000
          [coin])) && !p.1.isKillCheckpoint)) = true := by
    decide +kernel
  have hreach : Reachable payingLibrary payingDb := reachable_run _
  refine ⟨g, reveal, hreach, hg, hreveal, (transfers_delivered_iff displayLaws_paying
    transactionLaws_paying fvmTextLaws_paying postcardLaws_paying hreach ⟨none⟩ context context hg
    hreveal (by decide) (by decide) hstripped hw).mpr ⟨⟨by decide, ?_, ?_, ?_, ?_⟩, ?_⟩⟩
  · intro t ht
    cases List.mem_singleton.mp ht
    decide
  · intro a ha
    cases ha
  · intro e he
    cases he
  · intro e he
    cases he
  · intro s m next hs hplanned
    rw [hs, Option.all_some, toOption_eq_some.mpr hplanned, Option.all_some, Bool.and_eq_true,
      decide_eq_true_iff, Bool.not_eq_true'] at hread
    refine ⟨hread.1, fun hkill => ?_⟩
    rw [hread.2] at hkill
    cases hkill

/-- A transfer to the zero address is locked by its checkpoint, and its reveal is refused. -/
theorem transfer_to_zero_lost :
    ¬ ∀ (X : Library) (P : Postcard) (cfg : Config) (ctx ctx' : BlockContext) (σ : MapOrders)
      (db : HeedDb) (validator : XOnlyPublicKey) (r : CheckpointRequest) (unspent : List Utxo)
      (feeRate : FeeRate) (g : GenCheckpointPsbt) (reveal : Transaction), DisplayLaws X →
      TransactionLaws X → FvmTextLaws X → PostcardLaws X P → Reachable X db →
      genCheckpointPsbt X σ σ db validator r unspent feeRate = .ok g →
      g.batchTransferTx = some reveal → r.checkpointHeight < 2 ^ 64 →
      r.nextCommitteeConfigurationNumber < 2 ^ 64 →
      witnessMessages X g.unsignedPsbt.unsignedTx = [] →
      TransfersDelivered X cfg ctx ctx' db r g.unsignedPsbt.unsignedTx reveal := by
  intro hall
  have hanswered : Answered payingLibrary (payingAnswer zeroEthAddress) = true := by
    decide +kernel
  obtain ⟨g, reveal, hg, hreveal, -, hw⟩ := exists_answer hanswered
  obtain ⟨-, -, hqueues⟩ := hall payingLibrary _ ⟨none⟩ context context listedOrders payingDb key
    (payingRequest zeroEthAddress) [coin] 1000 g reveal displayLaws_paying transactionLaws_paying
    fvmTextLaws_paying postcardLaws_paying (reachable_run _) hg hreveal (by decide) (by decide) hw
  have hempty : (payingAnswer zeroEthAddress).toOption.all (fun g => g.batchTransferTx.all
      (fun reveal => (queue payingLibrary (processed payingLibrary ⟨none⟩ context reveal
        (processed payingLibrary ⟨none⟩ context g.unsignedPsbt.unsignedTx payingDb))
          subnet).isEmpty)) = true := by
    decide +kernel
  rw [toOption_eq_some.mpr hg, Option.all_some, hreveal, Option.all_some,
    List.isEmpty_iff] at hempty
  obtain ⟨new, hnew, hcontent⟩ := hqueues subnet
  rw [hempty] at hnew
  obtain ⟨-, rfl⟩ := List.append_eq_nil_iff.mp hnew.symm
  exact absurd hcontent (by decide)

end Monitor
