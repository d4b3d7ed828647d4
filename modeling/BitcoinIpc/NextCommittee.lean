import BitcoinIpc.CheckpointAcceptance
import BitcoinIpc.KillLifecycle

/-!
# The next committee of a checkpoint

The provider decides from the kill state of a subnet and from a comparison of
numbers which committee a checkpoint hands over to, and pays the change to its
address. The monitor decides from the number in the metadata. The two agree, when
the number asks for a committee of another address, exactly if the monitor accepts
a checkpoint that rotates and does not accept one that kills the subnet.
-/

namespace Monitor

open Faults Bytes Chain Messages Crates Multisig Db Grouping Commits OrderedTable Provider

variable {X : Library}

/-- The number that the message asks for is one of a later committee at another address. -/
def AsksForAddress (X : Library) (db : HeedDb) (s : SubnetState) (m : IpcCheckpointSubnetMsg) :
    Prop :=
  s.committee.configurationNumber < m.nextCommitteeConfigurationNumber ∧
    ∃ c, db.getStakeChange X m.subnetId m.nextCommitteeConfigurationNumber = some c ∧
      c.committeeAfterChange.multisigAddress ≠ s.committee.multisigAddress

/-- After the monitor processed the transaction, the active committee has the address of the
committee that the provider passed as the next one, which the change is paid to; and if this is
another address than that of the committee before, every listed output is spent. -/
def HandsOver (X : Library) (cfg : Config) (ctx : BlockContext) (σ : MapOrders) (db : HeedDb)
    (r : CheckpointRequest) (unspent : List Utxo) (feeRate : FeeRate) (tx : Transaction) : Prop :=
  ∃ s m next s', db.getSubnetState X r.subnetId = some s ∧
    plannedCheckpoint X db r unspent = .ok (m, next) ∧
    ((processTransaction X cfg ctx tx db).store db).getSubnetState X r.subnetId = some s' ∧
    s'.committee.multisigAddress = next.multisigAddress ∧
    (∃ outs change, m.finalOutputs X σ s.committee next feeRate unspent = .ok outs ∧
      tx.output = outs ++ Option.toList change ∧
      ∀ o ∈ change, o.scriptPubkey = next.multisigAddress.scriptPubkey) ∧
    (next.multisigAddress ≠ s.committee.multisigAddress →
      ∀ u ∈ unspent, (⟨u.txid, u.vout⟩ : OutPoint) ∈ tx.input.map (·.previousOutput))

/-- If the checkpoint asks for a committee at another address, the monitor can read it, unless
it kills the subnet, and then it cannot. -/
def ReadUnlessKilling (X : Library) (σ : MapOrders) (db : HeedDb) (r : CheckpointRequest)
    (unspent : List Utxo) (feeRate : FeeRate) : Prop :=
  ∀ s m next, db.getSubnetState X r.subnetId = some s →
    plannedCheckpoint X db r unspent = .ok (m, next) → AsksForAddress X db s m →
    (m.Readable (m.leavesChange X σ s.committee next feeRate unspent) ↔
      m.isKillCheckpoint = false)

/-- A transaction to another address spends every listed output. -/
theorem input_of_other_address {m : IpcCheckpointSubnetMsg} {σ : MapOrders}
    {committee next : SubnetCommittee} {feeRate : FeeRate} {unspent : List Utxo} {psbt : Psbt}
    (h : m.toCheckpointPsbt X σ committee next feeRate unspent = .ok psbt)
    (hne : next.multisigAddress ≠ committee.multisigAddress) :
    psbt.unsignedTx.input = (sortUtxos unspent).map spendInput := by
  obtain ⟨outs, -, -, hspend⟩ := IpcCheckpointSubnetMsg.toCheckpointPsbt_eq_ok h
  have hother : committee.sameAs next = false := by
    simpa [SubnetCommittee.sameAs] using fun heq => hne heq.symm
  have htx := mapErr_eq_ok.mp hspend
  unfold constructSpendUnsignedTransaction at htx
  rw [hother, Bool.not_false, Bool.true_or, if_pos rfl] at htx
  obtain ⟨_, -, htx⟩ := bind_eq_ok.mp htx
  obtain ⟨_, -, htx⟩ := bind_eq_ok.mp htx
  obtain ⟨_, -, htx⟩ := bind_eq_ok.mp htx
  obtain ⟨_, -, htx⟩ := bind_eq_ok.mp htx
  obtain ⟨_, -, htx⟩ := bind_eq_ok.mp htx
  obtain ⟨_, -, htx⟩ := bind_eq_ok.mp htx
  dsimp only at htx
  split_ifs at htx
  · rw [← Except.ok.inj htx]
    rfl
  · rw [← Except.ok.inj htx]
    rfl

theorem spends_listed {unspent : List Utxo} {tx : Transaction}
    (h : tx.stripped.input = (sortUtxos unspent).map spendInput) :
    ∀ u ∈ unspent, (⟨u.txid, u.vout⟩ : OutPoint) ∈ tx.input.map (·.previousOutput) := by
  have houtpoints : tx.input.map (·.previousOutput) =
      tx.stripped.input.map (·.previousOutput) := by
    simp [Transaction.stripped, Function.comp_def]
  intro u hu
  rw [houtpoints, h, List.map_map]
  exact List.mem_map.mpr ⟨u, (List.mem_insertionSort _).mpr hu, rfl⟩

/-- What stands after the outputs asked for is change to the address of the next committee. -/
theorem change_to_next {m : IpcCheckpointSubnetMsg} {σ : MapOrders}
    {committee next : SubnetCommittee} {feeRate : FeeRate} {unspent : List Utxo} {psbt : Psbt}
    (h : m.toCheckpointPsbt X σ committee next feeRate unspent = .ok psbt) :
    ∃ outs change, m.finalOutputs X σ committee next feeRate unspent = .ok outs ∧
      psbt.unsignedTx.output = outs ++ Option.toList change ∧
      ∀ o ∈ change, o.scriptPubkey = next.multisigAddress.scriptPubkey := by
  obtain ⟨outs, -, hfinal, hspend⟩ := IpcCheckpointSubnetMsg.toCheckpointPsbt_eq_ok h
  obtain ⟨change, hout, hchange⟩ :=
    IpcCheckpointSubnetMsg.constructSpendUnsignedTransaction_outputs (mapErr_eq_ok.mp hspend)
  exact ⟨outs, change, hfinal, hout, fun o ho => (hchange o ho).1⟩

variable {db : HeedDb} {t : Txid20}

/-- The rotation of a message that asks for a later request. -/
theorem rotation_of_lt {m : IpcCheckpointSubnetMsg} {s : SubnetState} {c : StakeChangeRequest}
    (hlt : s.committee.configurationNumber < m.nextCommitteeConfigurationNumber)
    (hc : db.getStakeChange X m.subnetId m.nextCommitteeConfigurationNumber = some c) :
    m.rotation X db s = .ok (some c) := by
  have hne : ¬ (m.nextCommitteeConfigurationNumber = 0 ∨
      m.nextCommitteeConfigurationNumber = s.committee.configurationNumber) := by omega
  simp only [IpcCheckpointSubnetMsg.rotation, if_neg hne, ensure_pos (le_of_lt hlt), ok_bind, hc,
    okOr, pure_eq]

theorem saveToDb_of_rotation {m : IpcCheckpointSubnetMsg} {s : SubnetState}
    {change : Option StakeChangeRequest} (height : Nat) (hash : BlockHash) (txid : Txid)
    (hs : db.getSubnetState X m.subnetId = some s) (hrot : m.rotation X db s = .ok change) :
    m.saveToDb X db height hash txid = .ok (m.checkpointedDb X db s change height hash txid,
      m.checkpointRecord s change height txid) := by
  rw [IpcCheckpointSubnetMsg.saveToDb, okOr_eq_ok.mpr hs, ok_bind, hrot, ok_bind]
  cases change <;> rfl

/-- The fields that the monitor reads from a checkpoint that was built. -/
theorem read_fields {m m' : IpcCheckpointSubnetMsg} {tx : Transaction} {value : Amount}
    {rest : List TxOut} (hd : m.Drafted)
    (hout : tx.output = ⟨value, makeOpReturnScript (m.metadata t)⟩ :: rest)
    (h : IpcCheckpointSubnetMsg.fromCheckpointTx X db tx = .ok m') :
    m'.subnetId = .fromTxid20 t ∧
      m'.nextCommitteeConfigurationNumber = m.nextCommitteeConfigurationNumber := by
  obtain ⟨data, d, hdata, hparsed, hsub, hnum, -⟩ := IpcCheckpointSubnetMsg.fromCheckpointTx_fields h
  rw [IpcCheckpointSubnetMsg.opReturnData_metadata hout] at hdata
  obtain rfl := Except.ok.inj hdata
  rw [IpcCheckpointSubnetMsg.parseMetadata_metadata t hd.height_lt hd.number_lt] at hparsed
  obtain rfl := Except.ok.inj hparsed
  exact ⟨hsub, hnum⟩

/-- The address of the committee after a checkpoint: that of the stake change it asks for, or the
one before when it asks for none. -/
theorem multisigAddress_of_rotation {m : IpcCheckpointSubnetMsg} {s : SubnetState}
    {change : Option StakeChangeRequest} (height : Nat) (hrot : m.rotation X db s = .ok change) :
    (∀ c, s.committee.configurationNumber < m.nextCommitteeConfigurationNumber →
        db.getStakeChange X m.subnetId m.nextCommitteeConfigurationNumber = some c →
        (m.checkpointedState s change height).committee.multisigAddress =
          c.committeeAfterChange.multisigAddress) ∧
      ((s.committee.configurationNumber < m.nextCommitteeConfigurationNumber →
          db.getStakeChange X m.subnetId m.nextCommitteeConfigurationNumber = none) →
        (m.checkpointedState s change height).committee.multisigAddress =
          s.committee.multisigAddress) := by
  rw [IpcCheckpointSubnetMsg.checkpointedState_eq]
  constructor
  · intro c hlt hc
    rw [rotation_of_lt hlt hc] at hrot
    cases hrot
    rcases rotated_cases s c with ⟨hsame, heq⟩ | ⟨-, heq, -⟩
    · exact (congrArg (fun x : SubnetState => x.committee.multisigAddress) heq).trans hsame
    · exact congrArg SubnetCommittee.multisigAddress heq
  · intro hnone
    cases change with
    | none => rfl
    | some c =>
      obtain ⟨hlt, hc⟩ := IpcCheckpointSubnetMsg.rotation_eq_some hrot
      rw [hnone hlt] at hc
      cases hc

/-- The active committee after a checkpoint that was built: the monitor goes to the committee
that is asked for if it can read the checkpoint, and stays otherwise. -/
theorem active_after (laws : DisplayLaws X) (hX : TransactionLaws X) (hsound : Sound X db)
    (cfg : Config) (ctx : BlockContext) {σ : MapOrders} {m : IpcCheckpointSubnetMsg}
    {s : SubnetState} {next : SubnetCommittee} {feeRate : FeeRate} {unspent : List Utxo}
    {psbt : Psbt} {tx : Transaction} (hd : m.Drafted) (hid : m.subnetId = .fromTxid20 t)
    (hs : db.getSubnetState X (.fromTxid20 t) = some s)
    (hpsbt : m.toCheckpointPsbt X σ s.committee next feeRate unspent = .ok psbt)
    (htx : tx.output = psbt.unsignedTx.output) (hw : witnessMessages X tx = []) :
    ∃ s', ((processTransaction X cfg ctx tx db).store db).getSubnetState X (.fromTxid20 t) =
        some s' ∧
      (m.Readable (m.leavesChange X σ s.committee next feeRate unspent) →
        ∀ c, s.committee.configurationNumber < m.nextCommitteeConfigurationNumber →
          db.getStakeChange X (.fromTxid20 t) m.nextCommitteeConfigurationNumber = some c →
          s'.committee.multisigAddress = c.committeeAfterChange.multisigAddress) ∧
      ((m.Readable (m.leavesChange X σ s.committee next feeRate unspent) →
        s.committee.configurationNumber < m.nextCommitteeConfigurationNumber →
          db.getStakeChange X (.fromTxid20 t) m.nextCommitteeConfigurationNumber = none) →
        s'.committee.multisigAddress = s.committee.multisigAddress) := by
  have hiff := IpcCheckpointSubnetMsg.accepted_iff_readable hX hd hid hs hpsbt htx
  obtain ⟨value, rest, hout⟩ := IpcCheckpointSubnetMsg.output_of_toCheckpointPsbt hid hpsbt
  have hmeta := htx.trans hout
  by_cases hread : m.Readable (m.leavesChange X σ s.committee next feeRate unspent)
  · obtain ⟨m', hm', hvalid⟩ := hiff.mpr hread
    obtain ⟨hsub, hnum⟩ := read_fields hd hmeta hm'
    cases hrot : m'.rotation X db s with
    | ok change =>
      have hsave := saveToDb_of_rotation ctx.blockHeight ctx.blockHash (X.computeTxid tx)
        (hsub ▸ hs) hrot
      have hstate := getSubnetState_of_accepted cfg ctx hw hmeta hm' hvalid hsave (.fromTxid20 t)
      rw [getSubnetState_checkpointedDb laws _ _ _ _ _ _ hsub, if_pos rfl] at hstate
      obtain ⟨hgoes, hstays⟩ := multisigAddress_of_rotation ctx.blockHeight hrot
      rw [hsub, hnum] at hgoes hstays
      exact ⟨_, hstate, fun _ => hgoes, fun hnone => hstays (hnone hread)⟩
    | error e =>
      have hno : ∀ m₁, IpcCheckpointSubnetMsg.fromCheckpointTx X db tx = .ok m₁ →
          m₁.validate = .ok () → ∀ saved, m₁.saveToDb X db ctx.blockHeight ctx.blockHash
            (X.computeTxid tx) ≠ .ok saved := by
        intro m₁ hm₁ _ saved hsave
        rw [hm'] at hm₁
        cases hm₁
        obtain ⟨s₁, change, hs₁, hrot₁, -⟩ := IpcCheckpointSubnetMsg.saveToDb_eq_ok hsave
        rw [hsub, hs] at hs₁
        cases hs₁
        rw [hrot] at hrot₁
        cases hrot₁
      obtain ⟨s', hs', hsame⟩ := committee_of_refused laws cfg ctx hsound hw hmeta hs hno
      refine ⟨s', hs', ?_, fun _ => by rw [hsame]⟩
      intro _ c hlt hc
      rw [← hnum] at hlt hc
      rw [rotation_of_lt hlt (hsub ▸ hc)] at hrot
      cases hrot
  · have hno : ∀ m₁, IpcCheckpointSubnetMsg.fromCheckpointTx X db tx = .ok m₁ →
        m₁.validate = .ok () → ∀ saved, m₁.saveToDb X db ctx.blockHeight ctx.blockHash
          (X.computeTxid tx) ≠ .ok saved :=
      fun m₁ hm₁ hvalid _ _ => hread (hiff.mp ⟨m₁, hm₁, hvalid⟩)
    obtain ⟨s', hs', hsame⟩ := committee_of_refused laws cfg ctx hsound hw hmeta hs hno
    exact ⟨s', hs', fun h => absurd h hread, fun _ => by rw [hsame]⟩

/-- Where the plan and the monitor lead to the same address. -/
theorem plan_agrees_iff {s s' : SubnetState} {m : IpcCheckpointSubnetMsg} {next : SubnetCommittee}
    {read : Prop} (hplan : Plan X db s m next)
    (hgoes : read → ∀ c, s.committee.configurationNumber < m.nextCommitteeConfigurationNumber →
      db.getStakeChange X m.subnetId m.nextCommitteeConfigurationNumber = some c →
      s'.committee.multisigAddress = c.committeeAfterChange.multisigAddress)
    (hstays : (read → s.committee.configurationNumber < m.nextCommitteeConfigurationNumber →
      db.getStakeChange X m.subnetId m.nextCommitteeConfigurationNumber = none) →
      s'.committee.multisigAddress = s.committee.multisigAddress) :
    s'.committee.multisigAddress = next.multisigAddress ↔
      (AsksForAddress X db s m → (read ↔ m.isKillCheckpoint = false)) := by
  cases hplan with
  | kill hkill _ =>
    rw [hkill]
    constructor
    · rintro haddr ⟨hlt, c, hc, hne⟩
      refine iff_of_false (fun hread => hne ?_) (by simp)
      rw [← hgoes hread c hlt hc, haddr]
    · intro hno
      by_cases hmoved : ∃ c, read ∧
          s.committee.configurationNumber < m.nextCommitteeConfigurationNumber ∧
          db.getStakeChange X m.subnetId m.nextCommitteeConfigurationNumber = some c
      · obtain ⟨c, hread, hlt, hc⟩ := hmoved
        rw [hgoes hread c hlt hc]
        by_contra hne
        exact absurd ((hno ⟨hlt, c, hc, hne⟩).mp hread) (by simp)
      · refine hstays (fun hread hlt => ?_)
        cases hc : db.getStakeChange X m.subnetId m.nextCommitteeConfigurationNumber with
        | none => rfl
        | some c => exact absurd ⟨c, hread, hlt, hc⟩ hmoved
  | @rotate c hkill hlt hc _ =>
    simp only [hkill, iff_true]
    constructor
    · rintro haddr ⟨-, c', hc', hne⟩
      rw [hc] at hc'
      cases hc'
      by_contra hread
      exact hne (haddr.symm.trans (hstays (fun h => absurd h hread)))
    · intro hread
      by_cases hsame : c.committeeAfterChange.multisigAddress = s.committee.multisigAddress
      · by_cases hr : read
        · exact hgoes hr c hlt hc
        · rw [hstays (fun h => absurd h hr), hsame]
      · exact hgoes (hread ⟨hlt, c, hc, hsame⟩) c hlt hc
  | keep _ hle _ =>
    refine iff_of_true (hstays (fun _ hlt => absurd hlt (not_lt.mpr hle))) ?_
    rintro ⟨hlt, -⟩
    exact absurd hlt (not_lt.mpr hle)

/-- The provider and the monitor agree on the next committee of a checkpoint exactly when the
monitor reads it unless it kills the subnet. -/
theorem next_committee_agrees_iff (laws : DisplayLaws X) (hX : TransactionLaws X)
    (hreach : Reachable X db) (cfg : Config) (ctx : BlockContext) {σ τ : MapOrders}
    {validator : XOnlyPublicKey} {r : CheckpointRequest} {unspent : List Utxo} {feeRate : FeeRate}
    {g : GenCheckpointPsbt} {tx : Transaction}
    (hgen : genCheckpointPsbt X σ τ db validator r unspent feeRate = .ok g)
    (hheight : r.checkpointHeight < 2 ^ 64)
    (hnumber : r.nextCommitteeConfigurationNumber < 2 ^ 64)
    (htx : tx.stripped = g.unsignedPsbt.unsignedTx) (hw : witnessMessages X tx = []) :
    HandsOver X cfg ctx σ db r unspent feeRate tx ↔
      ReadUnlessKilling X σ db r unspent feeRate := by
  obtain ⟨s, next, hs, hplanned, htaken, hplan, hpsbt⟩ := genCheckpointPsbt_planned hgen
  have hsound := sound_of_reachable laws hreach
  obtain ⟨t, ht, -⟩ := hsound.state laws hs
  have hid : g.msg.subnetId = .fromTxid20 t := htaken.subnetId_eq.trans ht
  have hst := ht ▸ hs
  have hd := drafted_of_plan laws hreach hst ht htaken hplan hheight hnumber
  have hout : tx.output = g.unsignedPsbt.unsignedTx.output := by
    rw [← htx]
    rfl
  obtain ⟨s', hs', hgoes, hstays⟩ := active_after laws hX hsound cfg ctx hd hid
    hst hpsbt hout hw
  rw [← ht] at hs'
  have hspent : next.multisigAddress ≠ s.committee.multisigAddress →
      ∀ u ∈ unspent, (⟨u.txid, u.vout⟩ : OutPoint) ∈ tx.input.map (·.previousOutput) :=
    fun hne => spends_listed (by rw [htx]; exact input_of_other_address hpsbt hne)
  have hchange := change_to_next hpsbt
  rw [← hout] at hchange
  have hover : HandsOver X cfg ctx σ db r unspent feeRate tx ↔
      s'.committee.multisigAddress = next.multisigAddress := by
    constructor
    · rintro ⟨s₁, m₁, next₁, s₁', hs₁, hplanned₁, hs₁', haddr, -⟩
      rw [hplanned] at hplanned₁
      cases hplanned₁
      rw [hs'] at hs₁'
      cases hs₁'
      exact haddr
    · intro haddr
      exact ⟨s, g.msg, next, s', hs, hplanned, hs', haddr, hchange, hspent⟩
  have hcond : ReadUnlessKilling X σ db r unspent feeRate ↔ (AsksForAddress X db s g.msg →
      (g.msg.Readable (g.msg.leavesChange X σ s.committee next feeRate unspent) ↔
        g.msg.isKillCheckpoint = false)) := by
    constructor
    · exact fun h => h s g.msg next hs hplanned
    · rintro h s₁ m₁ next₁ hs₁ hplanned₁
      rw [hs] at hs₁
      rw [hplanned] at hplanned₁
      cases hs₁
      cases hplanned₁
      exact h
  rw [hover, hcond]
  exact plan_agrees_iff hplan (hid ▸ hgoes) (hid ▸ hstays)

open Solo

/-- A stake that raises the power of the validator from ten to fifteen. -/
def growTx : Transaction := payingTx 13 ipcStakeTag key.bytes 50000 10

/-- A request for a checkpoint without payments, with the given number. -/
def bareRequest (next : Nat) : CheckpointRequest :=
  ⟨.fromTxid20 subnet, bytes32 4, 1, next, [], [], [], [], []⟩

/-- The checkpoint of the request on a database. -/
def bareCheckpoint (db : HeedDb) : Outcome RpcError GenCheckpointPsbt :=
  genCheckpointPsbt killLibrary listedOrders listedOrders db key (bareRequest 1) [coin] 1000

/-- After a stake, a checkpoint with the number of it hands over to the larger committee. -/
theorem next_committee_agrees_after_stake :
    ∃ db g, Reachable killLibrary db ∧ bareCheckpoint db = .ok g ∧
      HandsOver killLibrary ⟨none⟩ context listedOrders db (bareRequest 1) [coin] 1000
        g.unsignedPsbt.unsignedTx := by
  set db := (run killLibrary [createTx, joinTx 100000, growTx]).store HeedDb.empty with hdb
  obtain ⟨g, hg⟩ := exists_ok_of_isSome
    (by decide +kernel : (bareCheckpoint db).toOption.isSome = true)
  have hbare : (bareCheckpoint db).toOption.all (fun g =>
      decide (g.unsignedPsbt.unsignedTx.stripped = g.unsignedPsbt.unsignedTx) &&
        (witnessMessages killLibrary g.unsignedPsbt.unsignedTx).isEmpty) = true := by
    decide +kernel
  rw [toOption_eq_some.mpr hg, Option.all_some, Bool.and_eq_true, decide_eq_true_iff,
    List.isEmpty_iff] at hbare
  have hread : (db.getSubnetState killLibrary (bareRequest 1).subnetId).all (fun s =>
      (plannedCheckpoint killLibrary db (bareRequest 1) [coin]).toOption.all (fun p =>
        decide (p.1.Readable (p.1.leavesChange killLibrary listedOrders s.committee p.2 1000
          [coin])) && !p.1.isKillCheckpoint)) = true := by
    decide +kernel
  have hlaws : DisplayLaws killLibrary := displayLaws_ideal _
  have htransactions : TransactionLaws killLibrary := transactionLaws_ideal _
  have hreach : Reachable killLibrary db := reachable_run _
  refine ⟨db, g, hreach, hg, (next_committee_agrees_iff hlaws htransactions hreach ⟨none⟩ context
    hg (by decide) (by decide) hbare.1 hbare.2).mpr ?_⟩
  intro s m next hs hplanned _
  rw [hs, Option.all_some, toOption_eq_some.mpr hplanned, Option.all_some, Bool.and_eq_true,
    decide_eq_true_iff, Bool.not_eq_true'] at hread
  exact iff_of_true hread.1 hread.2

/-- Five checkpoints after a stake and the request to kill the subnet, a checkpoint with the
number of the stake kills the subnet and pays the change to the committee it had, while the
monitor goes to the larger one. -/
theorem kill_checkpoint_rotates :
    ¬ ∀ (X : Library) (cfg : Config) (ctx : BlockContext) (σ τ : MapOrders) (db : HeedDb)
      (validator : XOnlyPublicKey) (r : CheckpointRequest) (unspent : List Utxo)
      (feeRate : FeeRate) (g : GenCheckpointPsbt), DisplayLaws X → TransactionLaws X →
      Reachable X db → genCheckpointPsbt X σ τ db validator r unspent feeRate = .ok g →
      r.checkpointHeight < 2 ^ 64 → r.nextCommitteeConfigurationNumber < 2 ^ 64 →
      HandsOver X cfg ctx σ db r unspent feeRate g.unsignedPsbt.unsignedTx := by
  intro hall
  set db := (run killLibrary [createTx, joinTx 100000, growTx, killTx, checkpointTx 14 0,
    checkpointTx 15 0, checkpointTx 16 0, checkpointTx 17 0, checkpointTx 18 0]).store
      HeedDb.empty with hdb
  obtain ⟨g, hg⟩ := exists_ok_of_isSome
    (by decide +kernel : (bareCheckpoint db).toOption.isSome = true)
  obtain ⟨s, m, next, s', -, hplanned, hs', haddr, -⟩ := hall killLibrary ⟨none⟩ context
    listedOrders listedOrders db key (bareRequest 1) [coin] 1000 g (displayLaws_ideal _)
    (transactionLaws_ideal _) (reachable_run _) hg (by decide) (by decide)
  have hafter : (bareCheckpoint db).toOption.all (fun g =>
      (((processTransaction killLibrary ⟨none⟩ context g.unsignedPsbt.unsignedTx db).store
        db).getSubnetState killLibrary (bareRequest 1).subnetId).all (fun s' =>
          (plannedCheckpoint killLibrary db (bareRequest 1) [coin]).toOption.all (fun p =>
            decide (s'.committee.multisigAddress ≠ p.2.multisigAddress)))) = true := by
    decide +kernel
  rw [toOption_eq_some.mpr hg, Option.all_some, hs', Option.all_some,
    toOption_eq_some.mpr hplanned, Option.all_some, decide_eq_true_iff] at hafter
  exact hafter haddr

end Monitor
