import BitcoinIpc.CheckpointRoundTrip
import BitcoinIpc.UnstakePayments
import BitcoinIpc.Holdings

/-!
# The monitor on a checkpoint of the provider

A checkpoint that the provider built is read by the monitor and passes its checks
exactly when the outputs that its counters announce are there, and in a kill
checkpoint no others. What the monitor then does to the committee of the subnet is
decided by the number in the metadata alone.
-/

namespace Messages

open Faults Bytes Chain Crates Multisig Db Grouping

namespace IpcCheckpointSubnetMsg

variable {X : Library} {m : IpcCheckpointSubnetMsg}

/-- The outputs that the counters announce are there, and no others in a kill checkpoint. -/
structure Readable (m : IpcCheckpointSubnetMsg) (change : Bool) : Prop where
  enough : min m.unstakes.length 255 + m.transferOutputs ≤
    m.batchLength + m.unstakes.length + change.toNat
  kill : m.isKillCheckpoint = true → min m.unstakes.length 255 + m.transferOutputs =
    m.batchLength + m.unstakes.length + change.toNat

instance (m : IpcCheckpointSubnetMsg) (change : Bool) : Decidable (Readable m change) :=
  decidable_of_iff (_ ∧ _) ⟨fun h => ⟨h.1, h.2⟩, fun h => ⟨h.enough, h.kill⟩⟩

/-- The message with no more unstakes than its counter can announce. -/
def saturated (m : IpcCheckpointSubnetMsg) : IpcCheckpointSubnetMsg :=
  { m with unstakes := m.unstakes.take 255 }

theorem length_saturated (m : IpcCheckpointSubnetMsg) :
    m.saturated.unstakes.length = min m.unstakes.length 255 := by
  rw [saturated, List.length_take, Nat.min_comm]

theorem metadata_saturated (m : IpcCheckpointSubnetMsg) (id : Txid20) :
    m.saturated.metadata id = m.metadata id := by
  have hmarker : marker m.saturated.unstakes.length = marker m.unstakes.length := by
    rw [length_saturated, marker, marker, Nat.min_assoc, Nat.min_self]
  rw [metadata, metadata, hmarker]
  rfl

/-- What the provider sees to in the messages that it builds: everything that a message is
checked for but the number of its unstakes. -/
structure Drafted (m : IpcCheckpointSubnetMsg) : Prop where
  height : m.checkpointHeight ≠ 0
  height_lt : m.checkpointHeight < 2 ^ 64
  number_lt : m.nextCommitteeConfigurationNumber < 2 ^ 64
  withdrawals_le : m.withdrawals.length ≤ 255
  withdrawals : ∀ w ∈ m.withdrawals, w.amount ≠ 0 ∧ w.address.isValidForNetwork = true
  transfers : ∀ t ∈ m.transfers, t.amount ≠ 0
  unstakes : ∀ u ∈ m.unstakes, u.amount ≠ 0

section Values

variable {σ : MapOrders} {committee next : SubnetCommittee} {feeRate : FeeRate}
  {unspent : List Utxo} {batch us : List TxOut} {change : Option TxOut}

/-- The first output of a checkpoint that was built is its metadata. -/
theorem output_of_toCheckpointPsbt {t : Txid20} {psbt : Psbt} (hid : m.subnetId = .fromTxid20 t)
    (h : m.toCheckpointPsbt X σ committee next feeRate unspent = .ok psbt) :
    ∃ value rest, psbt.unsignedTx.output = ⟨value, makeOpReturnScript (m.metadata t)⟩ :: rest := by
  obtain ⟨id, batch, us, change, htxid, -, -, -, -, -, -, hout⟩ := layout_of_toCheckpointPsbt h
  rw [hid, SubnetId.txid20_fromTxid20] at htxid
  cases htxid
  exact ⟨_, _, hout⟩

/-- The commit output and the outputs of the destinations pay something. -/
theorem value_batch (hX : TransactionLaws X) (ht : ∀ t ∈ m.transfers, t.amount ≠ 0)
    (h : m.batchOutputs X σ committee feeRate = .ok batch) : ∀ o ∈ batch, o.value ≠ 0 := by
  have hlayout := batchLayout_of_batchOutputs h
  unfold batchOutputs at h
  split_ifs at h with hb
  · obtain ⟨a, -, h⟩ := bind_eq_ok.mp h
    obtain ⟨⟨commit, witness, out⟩, hmade, h⟩ := bind_eq_ok.mp h
    obtain ⟨entries, -, h⟩ := bind_eq_ok.mp h
    obtain ⟨outs, -, h⟩ := bind_eq_ok.mp h
    cases h
    obtain ⟨data, -, hmade⟩ := bind_eq_ok.mp hmade
    obtain ⟨fee, -, hmade⟩ := bind_eq_ok.mp hmade
    obtain ⟨cost, -, hmade⟩ := bind_eq_ok.mp hmade
    cases hmade
    intro o ho
    rcases List.mem_cons.mp ho with rfl | ho
    · have hpos := hX.nonDust_pos (X.taprootOutputKey (.leaf (makePushDataScript data)))
      exact Nat.ne_of_gt (lt_of_lt_of_le hpos (le_trans (le_max_right _ _) (le_max_left _ _)))
    · cases hlayout with
      | some _ _ _ _ _ hvalue => exact hvalue ht o ho
  · cases h
    intro o ho
    cases ho

theorem value_raised (hu : ∀ u ∈ m.unstakes, u.amount ≠ 0)
    (h : Raised (m.unstakes.map unstakeOut) us) : ∀ o ∈ us, o.value ≠ 0 := by
  intro o ho
  obtain ⟨o', ho', -, hle⟩ := exists_of_forall₂ h ho
  obtain ⟨u, hmem, rfl⟩ := List.mem_map.mp ho'
  have hpos := Nat.pos_of_ne_zero (hu u hmem)
  exact Nat.ne_of_gt (lt_of_lt_of_le hpos hle)

/-- The message read from outputs that all pay something is valid unless it is a kill
checkpoint with outputs left. -/
theorem readBack_valid_iff (id : Txid20) (s : SubnetState) {rest : List TxOut} (hd : m.Drafted)
    (hu : m.unstakes.length ≤ 255) (hpays : ∀ o ∈ rest, PaysAddress o)
    (hvalue : ∀ o ∈ rest, o.value ≠ 0)
    (hle : m.unstakes.length + m.transferOutputs ≤ rest.length) :
    (m.readBack id s rest).validate = .ok () ↔
      (m.isKillCheckpoint = true → m.unstakes.length + m.transferOutputs = rest.length) := by
  obtain ⟨hchange, hsome⟩ := readBack_change m id s hpays
  rw [validate_eq_ok]
  constructor
  · intro h hkill
    have hno : ¬ (m.readBack id s rest).changeAddress.isSome = true :=
      fun hs => h.kill ⟨hkill, hs⟩
    rw [hsome] at hno
    omega
  · intro hkill
    refine ⟨hd.height, ?_, ?_, hd.withdrawals_le, hd.withdrawals, ?_, Nat.zero_le _, hchange, ?_⟩
    · have h₁ := List.length_filterMap_le (readUnstake s) (rest.take m.unstakes.length)
      have h₂ := List.length_take_le m.unstakes.length rest
      exact le_trans h₁ (le_trans h₂ hu)
    · intro u hmem
      obtain ⟨o, ho, hr⟩ := List.mem_filterMap.mp hmem
      obtain ⟨hamount, hvalid, -⟩ := readUnstake_eq_some hr
      refine ⟨?_, hvalid⟩
      rw [hamount]
      exact hvalue o (List.mem_of_mem_take ho)
    · intro t ht
      cases ht
    · rintro ⟨hk, hs⟩
      have heq := hkill hk
      rw [hsome] at hs
      omega

/-- A checkpoint that was built is read and valid exactly when the announced outputs are
there. -/
theorem accepted_iff_readable {db : HeedDb} {s : SubnetState} {t : Txid20} {psbt : Psbt}
    {tx : Transaction} (hX : TransactionLaws X) (hd : m.Drafted) (hid : m.subnetId = .fromTxid20 t)
    (hs : db.getSubnetState X (.fromTxid20 t) = some s)
    (hpsbt : m.toCheckpointPsbt X σ committee next feeRate unspent = .ok psbt)
    (htx : tx.output = psbt.unsignedTx.output) :
    (∃ m', fromCheckpointTx X db tx = .ok m' ∧ m'.validate = .ok ()) ↔
      m.Readable (m.leavesChange X σ committee next feeRate unspent) := by
  obtain ⟨id, batch, us, change, htxid, hmade, hraised, -, haddr, hchange, hleaves, hout⟩ :=
    layout_of_toCheckpointPsbt hpsbt
  have hbatch := batchLayout_of_batchOutputs hmade
  rw [hid, SubnetId.txid20_fromTxid20] at htxid
  cases htxid
  rw [← hleaves]
  have hpays := paysAddress_rest hbatch hraised haddr (fun o ho => (hchange o ho).1)
  have hvalue : ∀ o ∈ batch ++ us ++ change.toList, o.value ≠ 0 := by
    intro o ho
    rcases List.mem_append.mp ho with ho | ho
    · rcases List.mem_append.mp ho with ho | ho
      · exact value_batch hX hd.transfers hmade o ho
      · exact value_raised hd.unstakes hraised o ho
    · exact (hchange o (Option.mem_toList.mp ho)).2.2
  have hlen := length_rest change hbatch hraised
  have hsat := length_saturated m
  have hle : m.saturated.unstakes.length ≤ 255 := by
    rw [hsat]
    exact Nat.min_le_right _ _
  have hd' : m.saturated.Drafted :=
    { hd with unstakes := fun u hu => hd.unstakes u (List.mem_of_mem_take hu) }
  have hout' : tx.output = ⟨(metadataOut X m t feeRate).value,
      makeOpReturnScript (m.saturated.metadata t)⟩ ::
        (m.saturated.withdrawals.map withdrawalOut ++ (batch ++ us ++ change.toList)) := by
    rw [htx, hout, metadata_saturated]
    rfl
  have hparse := fromCheckpointTx_laidOut (m := m.saturated) hout' hd.withdrawals_le hle
    hd.height_lt hd.number_lt (fun w hw => (hd.withdrawals w hw).2) hpays hs
  have hiff := fun h => readBack_valid_iff t s hd' hle hpays hvalue h
  have hoff : m.saturated.transferOutputs = m.transferOutputs := rfl
  rw [hsat, hlen, hoff] at hparse hiff
  constructor
  · rintro ⟨m', hm', hvalid⟩
    rw [hparse] at hm'
    split_ifs at hm' with henough
    · cases hm'
      exact ⟨henough, (hiff henough).mp hvalid⟩
    · cases hm'
  · intro h
    rw [if_pos h.enough] at hparse
    exact ⟨_, hparse, (hiff h.enough).mpr h.kill⟩

end Values

end IpcCheckpointSubnetMsg

end Messages

namespace Monitor

open Faults Bytes Chain Messages Crates Multisig Db Grouping Commits OrderedTable Provider

variable {X : Library} {db : HeedDb} {t : Txid20}

/-- A planned message on a reachable database pays out amounts. -/
theorem drafted_of_plan (laws : DisplayLaws X) (hreach : Reachable X db) {r : CheckpointRequest}
    {s : SubnetState} {m : IpcCheckpointSubnetMsg} {next : SubnetCommittee}
    (hs : db.getSubnetState X (.fromTxid20 t) = some s) (hid : r.subnetId = .fromTxid20 t)
    (htaken : TakenFrom r m) (hplan : Plan X db s m next) (hheight : r.checkpointHeight < 2 ^ 64)
    (hnumber : r.nextCommitteeConfigurationNumber < 2 ^ 64) : m.Drafted := by
  have hv := htaken.valid
  have hsound := sound_of_reachable laws hreach
  have hholding := holding_of_reachable laws hreach
  refine ⟨htaken.height_eq ▸ hv.height, htaken.height_eq ▸ hheight, htaken.number_eq ▸ hnumber,
    htaken.withdrawals_eq ▸ hv.withdrawals_le, htaken.withdrawals_eq ▸ hv.withdrawals, ?_, ?_⟩
  · intro a ha
    obtain ⟨b, hb, heq⟩ := htaken.amounts a ha
    rw [← heq]
    exact hv.transfers b hb
  · intro u hu
    cases hplan with
    | kill _ hunst =>
      rw [hunst] at hu
      obtain ⟨v, hmem, rfl⟩ := List.mem_map.mp hu
      exact hholding.stored t _ (.active hs) v hmem
    | rotate _ _ _ hunst =>
      rw [hunst, htaken.subnetId_eq, hid] at hu
      obtain ⟨c, hc, hmade⟩ := List.mem_filterMap.mp hu
      have hget := (hsound.mem_getAllStakeChanges laws).mp (List.mem_of_mem_filter hc)
      split at hmade
      · next hchange =>
        cases hmade
        exact hholding.withdrawn_ne hget hchange
      · cases hmade
    | keep _ _ hunst =>
      rw [hunst] at hu
      cases hu

section Processing

variable (cfg : Config) (ctx : BlockContext) {tx : Transaction} {m : IpcCheckpointSubnetMsg}

/-- No parser of a funding message takes the metadata of a checkpoint. -/
theorem fundingFromTx_metadata (tag : String) {id : Txid20} {value : Amount} {rest : List TxOut}
    (hout : tx.output = ⟨value, makeOpReturnScript (m.metadata id)⟩ :: rest) :
    ∃ e, fundingFromTx tag tx = raise e := by
  have hlen := IpcCheckpointSubnetMsg.length_metadata m id
  have hpush := firstPush_makeOpReturnScript (m.metadata id)
    (by rw [hlen]; decide) (by rw [hlen]; decide)
  have hfirst : tx.output[0]? = some ⟨value, makeOpReturnScript (m.metadata id)⟩ := by
    rw [hout]
    rfl
  have hne : ¬ (m.metadata id).length = ipcTagLength + SubnetId.innerLen + ethAddrLen := by
    rw [hlen]
    decide
  unfold fundingFromTx
  by_cases hle : 2 ≤ tx.output.length
  · rw [ensure_pos hle, ok_bind, opReturnData, index_eq_ok.mpr hfirst, ok_bind,
      okOr_eq_ok.mpr hpush, ok_bind, ensure_neg hne]
    exact ⟨_, rfl⟩
  · rw [ensure_neg hle]
    exact ⟨_, rfl⟩

theorem processTransaction_of_no_witness (hw : witnessMessages X tx = []) :
    processTransaction X cfg ctx tx db = processOutputs X cfg ctx tx db := by
  unfold processTransaction
  rw [hw]
  rfl

/-- A checkpoint is the first message that is found in its transaction. -/
theorem found_checkpoint {id : Txid20} {value : Amount} {rest : List TxOut}
    {m' : IpcCheckpointSubnetMsg}
    (hout : tx.output = ⟨value, makeOpReturnScript (m'.metadata id)⟩ :: rest)
    (hm : IpcCheckpointSubnetMsg.fromCheckpointTx X db tx = .ok m) :
    (firstParsed (outputParsers X ctx db tx) : Outcome MonitorError _) =
      .ok (some (.checkpointSubnet m)) := by
  obtain ⟨e₁, h₁⟩ := fundingFromTx_metadata ipcPrefundSubnetTag hout
  obtain ⟨e₂, h₂⟩ := fundingFromTx_metadata ipcFundSubnetTag hout
  simp only [outputParsers, IpcPrefundSubnetMsg.fromTx, h₁, IpcFundSubnetMsg.fromTx, h₂, hm]
  rfl

/-- A transaction with one message, in its outputs, is processed as this message. -/
theorem processTransaction_of_found {a : IpcMessage} (hw : witnessMessages X tx = [])
    (hfound : (firstParsed (outputParsers X ctx db tx) : Outcome MonitorError _) = .ok (some a)) :
    processTransaction X cfg ctx tx db = handleMsg X cfg ctx tx a db := by
  rw [processTransaction_of_no_witness cfg ctx hw]
  simp only [processOutputs, Proc.read_bind, hfound, Proc.lift_ok_bind]

theorem commits_of_found {a : IpcMessage} (hw : witnessMessages X tx = [])
    (hfound : (firstParsed (outputParsers X ctx db tx) : Outcome MonitorError _) = .ok (some a)) :
    (processTransaction X cfg ctx tx db).commits = (processIpcMsg X cfg ctx tx a db).commits := by
  rw [processTransaction_of_found cfg ctx hw hfound]
  simp only [handleMsg, Proc.handle]
  split <;> rfl

theorem commits_of_checkpoint {id : Txid20} {value : Amount} {rest : List TxOut}
    {m' : IpcCheckpointSubnetMsg} (hw : witnessMessages X tx = [])
    (hout : tx.output = ⟨value, makeOpReturnScript (m'.metadata id)⟩ :: rest)
    (hm : IpcCheckpointSubnetMsg.fromCheckpointTx X db tx = .ok m) :
    (processTransaction X cfg ctx tx db).commits =
      (processCheckpointSubnet X cfg ctx tx m db).commits :=
  commits_of_found cfg ctx hw (found_checkpoint ctx hout hm)

theorem sameButRewards_of_trail {l : List (Event × HeedDb)} {d : HeedDb}
    (h : Trail RewardStep d l) : SameButRewards d (lastStore d l) := by
  induction l generalizing d with
  | nil => exact ⟨_, _, rfl⟩
  | cons a rest ih =>
    obtain ⟨⟨-, c, r, hsame⟩, hrest⟩ := h
    obtain ⟨c', r', hlast⟩ := ih hrest
    exact ⟨c', r', by rw [lastStore_cons, hlast, hsame]⟩

/-- An accepted checkpoint is committed first, then its transaction, then the rewards. -/
theorem store_of_accepted {id : Txid20} {value : Amount} {rest : List TxOut}
    {m' : IpcCheckpointSubnetMsg} {saved : HeedDb × SubnetCheckpoint}
    (hw : witnessMessages X tx = [])
    (hout : tx.output = ⟨value, makeOpReturnScript (m'.metadata id)⟩ :: rest)
    (hm : IpcCheckpointSubnetMsg.fromCheckpointTx X db tx = .ok m) (hv : m.validate = .ok ())
    (hs : m.saveToDb X db ctx.blockHeight ctx.blockHash (X.computeTxid tx) = .ok saved) :
    (processTransaction X cfg ctx tx db).commits.head? = some saved.1 ∧
      SameButRewards (saved.1.saveTransaction X tx)
        ((processTransaction X cfg ctx tx db).store db) := by
  have hrest : Steps RewardStep (do
      importCommittee X m saved.2
      rewardCheckpoint X cfg ctx m saved.2 : MonitorProc Unit) :=
    Steps.bind (fun d => ⟨[], trivial, (importCommittee_commits m saved.2 d).symm⟩)
      (fun _ => steps_rewardCheckpoint m saved.2)
  obtain ⟨l, hl, hc⟩ := hrest (saved.1.saveTransaction X tx)
  have hcommits : (processTransaction X cfg ctx tx db).commits =
      saved.1 :: saved.1.saveTransaction X tx :: l.map Prod.snd := by
    rw [commits_of_checkpoint cfg ctx hw hout hm, hc]
    simp [processCheckpointSubnet, orMsgInvalid, orProcessing, hs, hv]
  have hstore : (processTransaction X cfg ctx tx db).store db =
      lastStore (saved.1.saveTransaction X tx) l := by
    rw [Trace.store, hcommits, lastStore]
    cases hl : l.map Prod.snd <;> rfl
  rw [hcommits, hstore]
  exact ⟨rfl, sameButRewards_of_trail hl⟩

/-- After an accepted checkpoint the subnets are as it saved them. -/
theorem getSubnetState_of_accepted {id : Txid20} {value : Amount} {rest : List TxOut}
    {m' : IpcCheckpointSubnetMsg} {saved : HeedDb × SubnetCheckpoint}
    (hw : witnessMessages X tx = [])
    (hout : tx.output = ⟨value, makeOpReturnScript (m'.metadata id)⟩ :: rest)
    (hm : IpcCheckpointSubnetMsg.fromCheckpointTx X db tx = .ok m) (hv : m.validate = .ok ())
    (hs : m.saveToDb X db ctx.blockHeight ctx.blockHash (X.computeTxid tx) = .ok saved)
    (u : SubnetId) :
    ((processTransaction X cfg ctx tx db).store db).getSubnetState X u =
      saved.1.getSubnetState X u := by
  obtain ⟨-, c, r, hstore⟩ := store_of_accepted cfg ctx hw hout hm hv hs
  rw [hstore]
  rfl

end Processing

section Refused

variable (laws : DisplayLaws X)
include laws

/-- Without a checkpoint the active committee of a subnet stays. -/
theorem committee_of_trail {l : List (Event × HeedDb)} {s : SubnetState} (hsound : Sound X db)
    (hl : Trail (Commit X) db l) (hnone : ∀ a ∈ messages l, ∀ m, a.2.2 ≠ .checkpointSubnet m)
    (hs : db.getSubnetState X (.fromTxid20 t) = some s) :
    ∃ s', (lastStore db l).getSubnetState X (.fromTxid20 t) = some s' ∧
      s'.committee = s.committee := by
  induction l generalizing db s with
  | nil => exact ⟨s, hs, rfl⟩
  | cons a rest ih =>
    obtain ⟨e, d⟩ := a
    have hrest : ∀ a ∈ messages rest, ∀ m, a.2.2 ≠ .checkpointSubnet m := by
      intro a ha
      obtain ⟨b, hb, hab⟩ := List.mem_filterMap.mp ha
      exact hnone a (List.mem_filterMap.mpr ⟨b, List.mem_cons_of_mem _ hb, hab⟩)
    obtain ⟨s₁, hs₁, hc₁⟩ : ∃ s₁, d.getSubnetState X (.fromTxid20 t) = some s₁ ∧
        s₁.committee = s.committee := by
      cases committeeStep_of_commit laws hsound hl.1 t with
      | other _ hkeeps _ =>
        cases hkeeps with
        | same hstate _ =>
          rw [hs, Option.map_some] at hstate
          obtain ⟨s₁, hs₁, heq⟩ := Option.map_eq_some_iff.mp hstate
          exact ⟨s₁, hs₁, (Prod.mk.inj (Prod.mk.inj heq).2).1⟩
        | starts hnone _ _ _ _ =>
          rw [hs] at hnone
          cases hnone
      | checkpoint _ _ _ =>
        exact absurd rfl (hnone (_, _, _)
          (List.mem_filterMap.mpr ⟨_, List.mem_cons_self, rfl⟩) _)
    obtain ⟨s', hs', hc'⟩ := ih (hsound.commit laws hl.1) hl.2 hrest hs₁
    exact ⟨s', by rw [lastStore_cons]; exact hs', hc'.trans hc₁⟩

/-- A transaction without an accepted checkpoint leaves the active committee as it was. -/
theorem committee_of_refused (cfg : Config) (ctx : BlockContext) {tx : Transaction}
    {m' : IpcCheckpointSubnetMsg} {id : Txid20} {value : Amount} {rest : List TxOut}
    {s : SubnetState} (hsound : Sound X db) (hw : witnessMessages X tx = [])
    (hout : tx.output = ⟨value, makeOpReturnScript (m'.metadata id)⟩ :: rest)
    (hs : db.getSubnetState X (.fromTxid20 t) = some s)
    (hno : ∀ m, IpcCheckpointSubnetMsg.fromCheckpointTx X db tx = .ok m → m.validate = .ok () →
      ∀ saved, m.saveToDb X db ctx.blockHeight ctx.blockHash (X.computeTxid tx) ≠ .ok saved) :
    ∃ s', ((processTransaction X cfg ctx tx db).store db).getSubnetState X (.fromTxid20 t) =
      some s' ∧ s'.committee = s.committee := by
  cases hm : IpcCheckpointSubnetMsg.fromCheckpointTx X db tx with
  | ok m =>
    have hcommits := commits_of_checkpoint cfg ctx hw hout hm
    have hnil : (processCheckpointSubnet X cfg ctx tx m db).commits = [] := by
      unfold processCheckpointSubnet
      cases hv : m.validate with
      | error e => cases e <;> rfl
      | ok u =>
        cases hsave : m.saveToDb X db ctx.blockHeight ctx.blockHash (X.computeTxid tx) with
        | error e => cases e <;> simp [orMsgInvalid, orProcessing, mapErr, hsave]
        | ok saved => exact absurd hsave (hno m hm hv saved)
    rw [hnil] at hcommits
    exact ⟨s, by rw [Trace.store, hcommits]; exact hs, rfl⟩
  | error e =>
    obtain ⟨found, hfound, ms, ⟨l, hl, hc, hmsgs, -⟩, hsub⟩ :=
      handlesOnce_processOutputs (X := X) cfg ctx tx db
    have hstore : (processTransaction X cfg ctx tx db).store db = lastStore db l := by
      rw [processTransaction_of_no_witness cfg ctx hw, Trace.store, ← hc]
      rfl
    rw [hstore]
    refine committee_of_trail laws hsound hl ?_ hs
    rintro a ha m heq
    rw [hmsgs] at ha
    obtain ⟨m₁, hm₁, rfl⟩ := List.mem_map.mp ha
    dsimp only at heq
    subst heq
    -- what is saved as a checkpoint was found as one
    cases hf : found with
    | none =>
      rw [hf] at hsub
      cases hsub
      cases hm₁
    | some m₂ =>
      rw [hf] at hsub
      have hsaved : SavedAs m₂ (.checkpointSubnet m) := by
        cases hsub with
        | nil => cases hm₁
        | cons hab hrest =>
          cases hrest
          rw [← List.mem_singleton.mp hm₁] at hab
          exact hab
        | cons_right hrest =>
          cases hrest
          cases hm₁
      have hparsed := (hfound m₂ hf).1
      cases m₂ with
      | checkpointSubnet m₃ =>
        rw [show IpcCheckpointSubnetMsg.fromCheckpointTx X db tx = .ok m₃ from hparsed] at hm
        cases hm
      | _ => cases hsaved

end Refused

end Monitor
