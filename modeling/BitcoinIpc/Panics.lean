import BitcoinIpc.RequestAcceptance
import BitcoinIpc.Rebuilds

/-!
# Transactions that stop the monitor

A message that is rejected for what it says is passed over. The monitor stops
where it computes a committee without power, or with more than its 32 bits
hold, where a sum of amounts leaves its 64 bits, and where a stake is too low
for a minimum that was raised after the validator joined. Nothing else that
stands in a transaction stops it. Sums and products of machine integers are taken
to panic when they overflow, as in a build with overflow checks; a build without
them wraps around instead, while the operators of `Amount` panic in every build.
-/

namespace Monitor

open Faults Bytes Chain Messages Crates Multisig Db Grouping Commits Rewards OrderedTable

variable {X : Library}

/-- The computation ends with a result or with an error. -/
abbrev Ends {ε α : Type} (x : Outcome ε α) : Prop := Endures (fun _ => True) x

theorem ends_ensure {ε : Type} {p : Prop} [Decidable p] (e : ε) : Ends (ensure p e) :=
  endures_ensure.mpr (fun _ => trivial)

theorem ends_okOr {ε α : Type} (o : Option α) (e : ε) : Ends (okOr o e) := endures_okOr trivial

theorem ends_forEach {ε α : Type} {l : List α} {check : α → Outcome ε Unit}
    (h : ∀ a ∈ l, Ends (check a)) : Ends (forEach l check) := by
  induction l with
  | nil => trivial
  | cons a rest ih =>
    refine (h a List.mem_cons_self).bind (fun _ _ => ?_)
    exact ih (fun b hb => h b (List.mem_cons_of_mem a hb))

theorem ends_index {ε α : Type} {l : List α} {i : Nat} (h : i < l.length) :
    Ends (index l i : Outcome ε α) := by
  rw [index_of_lt h]
  trivial

theorem ends_slice {ε α : Type} {l : List α} {lo hi : Nat} (h : lo ≤ hi) (hl : hi ≤ l.length) :
    Ends (slice l lo hi : Outcome ε (List α)) := by
  rw [slice_of_le h hl]
  trivial

section Parsers

variable {tx : Transaction} {db : HeedDb}

theorem ends_opReturnData {tag noData badLength : String} {n : Nat} (h : 0 < tx.output.length) :
    Ends (opReturnData tag noData badLength n tx) := by
  refine (ends_index h).bind (fun out _ => ?_)
  refine (ends_okOr _ _).bind (fun data _ => ?_)
  exact (ends_ensure _).bind (fun _ _ => trivial)

theorem length_opReturnData {tag noData badLength : String} {n : Nat} {data : List UInt8}
    (h : opReturnData tag noData badLength n tx = .ok data) : data.length = n := by
  obtain ⟨_, -, h⟩ := bind_eq_ok.mp h
  obtain ⟨_, -, h⟩ := bind_eq_ok.mp h
  obtain ⟨_, hlen, h⟩ := bind_eq_ok.mp h
  cases h
  exact ensure_eq_ok.mp hlen

theorem ends_fundingFromTx (tag : String) (tx : Transaction) : Ends (fundingFromTx tag tx) := by
  refine (ends_ensure _).bind (fun _ htwo => ?_)
  rw [ensure_eq_ok] at htwo
  refine (ends_opReturnData (by omega)).bind (fun data hdata => ?_)
  have hlen := length_opReturnData hdata
  refine (ends_ensure _).bind (fun _ _ => (ends_okOr _ _).bind (fun id _ => ?_))
  have haddress : ((data.drop ipcTagLength).drop SubnetId.innerLen).length = 20 := by
    rw [List.length_drop, List.length_drop, hlen]
    rfl
  rw [FixedBytes.ofList?_eq_some (a := ⟨_, haddress⟩) |>.mpr rfl]
  exact (ends_index (by omega)).bind (fun _ _ => trivial)

theorem ends_taggedData {tag tooFew : String} {n : Nat} : Ends (taggedData tag tooFew n tx) := by
  refine (ends_ensure _).bind (fun _ htwo => ?_)
  rw [ensure_eq_ok] at htwo
  refine (ends_opReturnData (by omega)).bind (fun data _ => ?_)
  exact (ends_ensure _).bind (fun _ _ => trivial)

theorem taggedData_spec {tag tooFew : String} {n : Nat} {data : List UInt8}
    (h : taggedData tag tooFew n tx = .ok data) : 2 ≤ tx.output.length ∧ data.length = n := by
  obtain ⟨_, htwo, h⟩ := bind_eq_ok.mp h
  obtain ⟨d, hd, h⟩ := bind_eq_ok.mp h
  obtain ⟨_, -, h⟩ := bind_eq_ok.mp h
  cases h
  exact ⟨ensure_eq_ok.mp htwo, length_opReturnData hd⟩

theorem ends_payedSubnet {tag notFound : String} (h : 2 ≤ tx.output.length) :
    Ends (payedSubnet tag notFound db tx) := by
  refine Endures.bind ?_ (fun _ _ => ends_okOr _ _)
  exact (ends_index (by omega)).bind (fun _ _ => ends_okOr _ _)

theorem ends_firstPrevTxid {tag : String} : Ends (firstPrevTxid tag tx) :=
  (ends_okOr _ _).bind (fun _ _ => trivial)

theorem ends_signingValidator {s : SubnetState} {signature : Signature}
    {digest : XOnlyPublicKey → Outcome IpcLibError X.Digest} (h : ∀ k, Ends (digest k)) :
    Ends (signingValidator X s signature digest) := by
  refine Endures.bind ?_ (fun _ _ => ends_okOr _ _)
  exact endures_findFirst (fun v _ => (h v.pubkey).bind (fun _ _ => trivial))

theorem ends_parseMetadata {data : List UInt8}
    (h : data.length = IpcCheckpointSubnetMsg.dataLen) :
    Ends (IpcCheckpointSubnetMsg.parseMetadata data) := by
  have hlen : data.length = 78 := h
  refine (ends_slice (by decide) (by rw [hlen]; decide)).bind (fun _ _ => ?_)
  refine (ends_ensure _).bind (fun _ _ => ?_)
  refine (ends_slice (by decide) (by rw [hlen]; decide)).bind (fun _ _ => ?_)
  refine (ends_okOr _ _).bind (fun _ _ => ?_)
  refine (ends_slice (by decide) (by rw [hlen]; decide)).bind (fun _ _ => ?_)
  refine (ends_okOr _ _).bind (fun _ _ => ?_)
  refine (ends_slice (by decide) (by rw [hlen]; decide)).bind (fun _ _ => ?_)
  refine (ends_index (by rw [hlen]; decide)).bind (fun _ _ => ?_)
  refine (ends_index (by rw [hlen]; decide)).bind (fun _ _ => ?_)
  refine (ends_index (by rw [hlen]; decide)).bind (fun _ _ => ?_)
  refine (ends_slice (by decide) (by rw [hlen]; decide)).bind (fun _ _ => ?_)
  exact (ends_index (by rw [hlen]; decide)).bind (fun _ _ => trivial)

theorem ends_parseWithdrawal (out : TxOut) : Ends (IpcCheckpointSubnetMsg.parseWithdrawal out) :=
  (ends_okOr _ _).bind (fun _ _ => trivial)

theorem ends_parseUnstake (s : SubnetState) (out : TxOut) :
    Ends (IpcCheckpointSubnetMsg.parseUnstake s out) :=
  (ends_okOr _ _).bind (fun _ _ => trivial)

theorem ends_parseTransferOutput (out : TxOut) :
    Ends (IpcCheckpointSubnetMsg.parseTransferOutput out) :=
  (ends_okOr _ _).bind (fun _ _ => trivial)

theorem ends_fromCheckpointTx (db : HeedDb) (tx : Transaction) :
    Ends (IpcCheckpointSubnetMsg.fromCheckpointTx X db tx) := by
  refine (ends_ensure _).bind (fun _ hne => ?_)
  rw [ensure_eq_ok] at hne
  refine (ends_opReturnData (List.length_pos_iff.mpr hne)).bind (fun data hdata => ?_)
  refine (ends_parseMetadata (length_opReturnData hdata)).bind (fun d _ => ?_)
  refine (ends_ensure _).bind (fun _ hexpected => ?_)
  rw [ensure_eq_ok, IpcCheckpointSubnetMsg.expectedOutputs] at hexpected
  refine (ends_okOr _ _).bind (fun s _ => ?_)
  refine (ends_slice (by omega) (by omega)).bind (fun _ _ => ?_)
  refine (endures_traverseList (fun out _ => ends_parseWithdrawal out)).bind (fun _ _ => ?_)
  refine (ends_slice (by omega) (by omega)).bind (fun _ _ => ?_)
  refine (endures_traverseList (fun out _ => ends_parseUnstake s out)).bind (fun _ _ => ?_)
  have hchange : Ends (IpcCheckpointSubnetMsg.parseChange tx.output
      (IpcCheckpointSubnetMsg.expectedOutputs d.withdrawalsCount d.transfersCount
        d.unstakesCount)) := by
    unfold IpcCheckpointSubnetMsg.parseChange
    split_ifs with hmore
    · exact (ends_index (by omega)).bind (fun _ _ => (ends_okOr _ _).bind (fun _ _ => trivial))
    · trivial
  dsimp only
  split_ifs with hpos
  · rw [if_pos hpos] at hexpected
    refine (ends_slice (by omega) (by omega)).bind (fun _ _ => ?_)
    refine (ends_forEach (fun out _ => ends_parseTransferOutput out)).bind (fun _ _ => ?_)
    exact hchange.bind (fun _ _ => trivial)
  · exact hchange.bind (fun _ _ => trivial)

theorem ends_batchFromTx (native erc : HashOrder Txid20) (db : HeedDb) (tx : Transaction) :
    Ends (IpcBatchTransferMsg.fromTx X native erc db tx) := by
  refine (ends_ensure _).bind (fun _ hone => ?_)
  rw [ensure_eq_ok] at hone
  refine (ends_index (by omega)).bind (fun i _ => ?_)
  refine (ends_ensure _).bind (fun _ hne => ?_)
  rw [ensure_eq_ok] at hne
  refine (ends_index (List.length_pos_iff.mpr hne)).bind (fun item _ => ?_)
  refine (ends_okOr _ _).bind (fun data _ => ?_)
  refine (endures_mapErr.mpr ((ends_ensure _).bind (fun _ _ => ends_okOr _ _))).bind
    (fun wire _ => ?_)
  exact (ends_ensure _).bind (fun _ _ => trivial)

theorem ends_stakeFromTx (db : HeedDb) (tx : Transaction) :
    Ends (IpcStakeCollateralMsg.fromTx X db tx) := by
  refine ends_taggedData.bind (fun data hdata => ?_)
  obtain ⟨htwo, -⟩ := taggedData_spec hdata
  refine (ends_okOr _ _).bind (fun _ _ => ?_)
  refine (ends_index (by omega)).bind (fun _ _ => ?_)
  exact (ends_payedSubnet htwo).bind (fun _ _ => trivial)

theorem Sound.id_of_payed (hsound : Sound X db) {tag notFound : String} {s : SubnetState}
    (h : payedSubnet tag notFound db tx = .ok s) : ∃ t, s.id = .fromTxid20 t := by
  obtain ⟨a, -, h⟩ := bind_eq_ok.mp h
  have hmem := List.mem_of_find?_eq_some (okOr_eq_ok.mp h)
  obtain ⟨e, he, rfl⟩ := List.mem_map.mp hmem
  obtain ⟨t, -, hid, -⟩ := (hsound.states e (List.mem_filter.mp he).1).keyed
  exact ⟨t, hid⟩

theorem ends_unstakeFromTx (hsound : Sound X db) (tx : Transaction) :
    Ends (IpcUnstakeCollateralMsg.fromTx X db tx) := by
  refine ends_taggedData.bind (fun data hdata => ?_)
  obtain ⟨htwo, hlen⟩ := taggedData_spec hdata
  have hslice : ipcTagLength + schnorrSignatureSize ≤ data.length := by
    rw [hlen]
    decide
  refine Endures.bind ?_ (fun p _ => ?_)
  · refine (ends_slice (by decide) hslice).bind (fun _ _ => ?_)
    exact (ends_okOr _ _).bind (fun _ _ => (ends_okOr _ _).bind (fun _ _ => trivial))
  refine (ends_payedSubnet htwo).bind (fun s hs => ?_)
  obtain ⟨t, ht⟩ := hsound.id_of_payed hs
  refine ends_firstPrevTxid.bind (fun prev _ => ?_)
  refine (ends_signingValidator (fun k => ?_)).bind (fun _ _ => trivial)
  rw [IpcUnstakeCollateralMsg.makeSignatureMsg, ht, SubnetId.txid20_fromTxid20]
  trivial

theorem ends_killFromTx (hsound : Sound X db) (tx : Transaction) :
    Ends (IpcKillSubnetMsg.fromTx X db tx) := by
  refine ends_taggedData.bind (fun data hdata => ?_)
  obtain ⟨htwo, hlen⟩ := taggedData_spec hdata
  have hslice : ipcTagLength + schnorrSignatureSize ≤ data.length := by
    rw [hlen]
    decide
  refine (ends_slice (by decide) hslice).bind (fun _ _ => (ends_okOr _ _).bind (fun _ _ => ?_))
  refine (ends_payedSubnet htwo).bind (fun s hs => ?_)
  obtain ⟨t, ht⟩ := hsound.id_of_payed hs
  refine ends_firstPrevTxid.bind (fun prev _ => ?_)
  refine (ends_signingValidator (fun k => ?_)).bind (fun _ _ => trivial)
  rw [IpcKillSubnetMsg.makeSignatureMsg, ht, SubnetId.txid20_fromTxid20]
  trivial

/-- On a sound database no parser panics. -/
theorem ends_outputParsers (hsound : Sound X db) (ctx : BlockContext) (tx : Transaction) :
    ∀ x ∈ outputParsers X ctx db tx, Ends x := by
  have hprefund : Ends (IpcPrefundSubnetMsg.fromTx tx) :=
    (ends_fundingFromTx _ tx).bind (fun _ _ => trivial)
  have hfund : Ends (IpcFundSubnetMsg.fromTx tx) :=
    (ends_fundingFromTx _ tx).bind (fun _ _ => trivial)
  intro x hx
  simp only [outputParsers, List.mem_cons, List.not_mem_nil, or_false] at hx
  rcases hx with rfl | rfl | rfl | rfl | rfl | rfl | rfl
  · exact endures_map.mpr hprefund
  · exact endures_map.mpr hfund
  · exact endures_map.mpr (ends_fromCheckpointTx db tx)
  · exact endures_map.mpr (ends_batchFromTx ctx.native ctx.erc db tx)
  · exact endures_map.mpr (ends_stakeFromTx db tx)
  · exact endures_map.mpr (ends_unstakeFromTx hsound tx)
  · exact endures_map.mpr (ends_killFromTx hsound tx)

theorem firstParsed_of_ends {ε : Type} {l : List (Outcome IpcLibError IpcMessage)}
    (h : ∀ x ∈ l, Ends x) : ∃ found, (firstParsed l : Outcome ε (Option IpcMessage)) = .ok found := by
  induction l with
  | nil => exact ⟨none, rfl⟩
  | cons x rest ih =>
    match x, h with
    | .ok m, _ => exact ⟨some m, rfl⟩
    | .error (.error e), h => exact ih (fun y hy => h y (List.mem_cons_of_mem _ hy))
    | .error .panic, h => exact absurd (h _ List.mem_cons_self) id

end Parsers

def Ignorable (e : MonitorError) : Prop := handleIpcMsgError e = .ok ()

/-- The errors of a handler that reject the message. -/
def Rejection (e : IpcLibError) : Prop := Ignorable (.ipcMsgProcessingError e)

theorem rejection_iff {e : IpcLibError} : Rejection e ↔ ∃ v, e = .ipcValidateError v := by
  cases e with
  | ipcValidateError v => exact ⟨fun _ => ⟨v, rfl⟩, fun _ => rfl⟩
  | _ =>
    refine ⟨fun h => ?_, fun ⟨v, hv⟩ => by cases hv⟩
    cases h

theorem not_rejection_dbError (e : DbError) : ¬ Rejection (.dbError e) := by
  rw [rejection_iff]
  rintro ⟨v, hv⟩
  cases hv

theorem not_rejection_multisigError (e : MultisigError) : ¬ Rejection (.multisigError e) := by
  rw [rejection_iff]
  rintro ⟨v, hv⟩
  cases hv

theorem endures_orMsgInvalid {α : Type} {x : Outcome IpcValidateError α} :
    Endures Ignorable (orMsgInvalid x) ↔ Ends x := by
  rw [orMsgInvalid, endures_mapErr]
  exact ⟨fun h => h.imp (fun _ _ => trivial), fun h => h.imp (fun _ _ => rfl)⟩

theorem endures_orInvalid {α : Type} {x : Outcome IpcValidateError α} :
    Endures Rejection (orInvalid x) ↔ Ends x := by
  rw [orInvalid, endures_mapErr]
  exact ⟨fun h => h.imp (fun _ _ => trivial), fun h => h.imp (fun _ _ => rfl)⟩

theorem rejects_okOr {α : Type} {o : Option α} {v : IpcValidateError} :
    Endures Rejection (okOr o (.ipcValidateError v)) := endures_okOr rfl

theorem rejects_ensure {p : Prop} [Decidable p] {v : IpcValidateError} :
    Endures Rejection (ensure p (.ipcValidateError v)) := endures_ensure.mpr (fun _ => rfl)

/-- A handler that checks the message and then saves it. -/
theorem endures_save {v : Outcome IpcValidateError Unit}
    {y : HeedDb → Outcome IpcLibError HeedDb} {db : HeedDb} :
    Endures Ignorable ((do
      Proc.lift (orMsgInvalid v)
      let db ← Proc.read
      let db' ← Proc.lift (orProcessing (y db))
      Proc.commit db' : MonitorProc Unit) db).outcome ↔
      Ends v ∧ (v = .ok () → Endures Rejection (y db)) := by
  rw [Proc.endures_bind, Proc.lift_apply, endures_orMsgInvalid]
  refine and_congr_right (fun _ => ?_)
  have hinner : Endures Ignorable ((do
      let db ← Proc.read
      let db' ← Proc.lift (orProcessing (y db))
      Proc.commit db' : MonitorProc Unit) db).outcome ↔ Endures Rejection (y db) := by
    rw [Proc.read_bind, Proc.endures_bind, Proc.lift_apply, orProcessing, endures_mapErr]
    exact ⟨fun h => h.1, fun h => ⟨h, fun _ _ => trivial⟩⟩
  constructor
  · intro h hv
    exact hinner.mp (h () (by rw [hv]; rfl))
  · intro h u hu
    exact hinner.mpr (h (mapErr_eq_ok.mp hu))

theorem ends_create_validate (m : IpcCreateSubnetMsg) : Ends m.validate := by
  refine (ends_ensure _).bind (fun _ _ => (ends_ensure _).bind (fun _ _ => ?_))
  exact (ends_ensure _).bind (fun _ _ => (ends_ensure _).bind (fun _ _ => ends_ensure _))

theorem ends_join_validate (m : IpcJoinSubnetMsg) : Ends m.validate :=
  (ends_ensure _).bind (fun _ _ => (ends_ensure _).bind (fun _ _ => ends_ensure _))

theorem ends_join_validateForSubnet (m : IpcJoinSubnetMsg) (g : SubnetGenesisInfo)
    (s : Option SubnetState) : Ends (m.validateForSubnet g s) := by
  cases s with
  | none => exact (ends_ensure _).bind (fun _ _ => (ends_ensure _).bind (fun _ _ => ends_ensure _))
  | some s =>
    refine (ends_ensure _).bind (fun _ _ => (ends_ensure _).bind (fun _ _ => ?_))
    exact (ends_ensure _).bind (fun _ _ => (ends_ensure _).bind (fun _ _ => ends_ensure _))

theorem ends_checkpoint_validate (m : IpcCheckpointSubnetMsg) : Ends m.validate := by
  have hpayment : ∀ f t a amount address, Ends (ensurePayment f t a amount address) :=
    fun _ _ _ _ _ => (ends_ensure _).bind (fun _ _ => ends_ensure _)
  refine (ends_ensure _).bind (fun _ _ => (ends_ensure _).bind (fun _ _ => ?_))
  refine (ends_forEach (fun _ _ => hpayment _ _ _ _ _)).bind (fun _ _ => ?_)
  refine (ends_ensure _).bind (fun _ _ => ?_)
  refine (ends_forEach (fun _ _ => hpayment _ _ _ _ _)).bind (fun _ _ => ?_)
  refine (ends_forEach (fun _ _ => ends_ensure _)).bind (fun _ _ => ?_)
  refine (ends_ensure _).bind (fun _ _ => ?_)
  exact (ends_forEach (fun _ _ => ends_ensure _)).bind (fun _ _ => ends_ensure _)

theorem ends_batch_validate (m : IpcBatchTransferMsg) : Ends m.validate := by
  refine (ends_ensure _).bind (fun _ _ => (ends_ensure _).bind (fun _ _ => ?_))
  refine (ends_forEach (fun _ _ => (ends_ensure _).bind (fun _ _ => ends_ensure _))).bind
    (fun _ _ => ?_)
  have hthree : ∀ {p q r : Prop} [Decidable p] [Decidable q] [Decidable r] (a b c d e f : String),
      Ends (do ensureField p a b; ensureField q c d; ensureField r e f) := by
    intros
    exact (ends_ensure _).bind (fun _ _ => (ends_ensure _).bind (fun _ _ => ends_ensure _))
  exact (ends_forEach (fun _ _ => hthree _ _ _ _ _ _)).bind
    (fun _ _ => ends_forEach (fun _ _ => hthree _ _ _ _ _ _))

theorem ends_staking_validate (s : SubnetId) (a : Amount) :
    Ends (do ensureSubnetId s; ensureStakeAmount a) :=
  (ends_ensure _).bind (fun _ _ => ends_ensure _)

section Harmless

variable {cfg : Config} {ctx : BlockContext} {tx : Transaction} {db : HeedDb}

theorem endures_processPrefundSubnet (m : IpcPrefundSubnetMsg) :
    Endures Ignorable (processPrefundSubnet X ctx tx m db).outcome := by
  refine endures_save.mpr ⟨ends_ensure _, fun _ => ?_⟩
  refine rejects_okOr.bind (fun g _ => ?_)
  exact (endures_orInvalid.mpr (ends_ensure _)).bind (fun _ _ => trivial)

theorem endures_processFundSubnet (m : IpcFundSubnetMsg) :
    Endures Ignorable (processFundSubnet X ctx tx m db).outcome := by
  refine endures_save.mpr ⟨ends_ensure _, fun _ => ?_⟩
  refine rejects_okOr.bind (fun s _ => ?_)
  exact (endures_orInvalid.mpr (ends_ensure _)).bind (fun _ _ => trivial)

theorem endures_rotation (m : IpcCheckpointSubnetMsg) (s : SubnetState) :
    Endures Rejection (m.rotation X db s) := by
  unfold IpcCheckpointSubnetMsg.rotation
  dsimp only
  split_ifs
  · trivial
  · exact rejects_ensure.bind (fun _ _ => rejects_okOr.bind (fun _ _ => trivial))

theorem endures_saveCheckpoint (m : IpcCheckpointSubnetMsg) (h : Nat) (b : BlockHash) (i : Txid) :
    Endures Rejection (m.saveToDb X db h b i) := by
  refine rejects_okOr.bind (fun s _ => ?_)
  refine (endures_rotation m s).bind (fun change _ => ?_)
  cases change <;> trivial

theorem ends_updateAfterCheckpoint (c : RewardConfig) (h : Nat) (s : SubnetId)
    (r : SubnetCheckpoint) : Ends (updateAfterCheckpoint X c h s r db).outcome := by
  unfold updateAfterCheckpoint
  cases c.snapshotBoundariesFromHeight h with
  | none => trivial
  | some b =>
    obtain ⟨snapshot, start, stop⟩ := b
    dsimp only
    split_ifs
    · trivial
    · trivial
    · trivial
    · unfold rotateRewards
      rw [Proc.read_bind]
      cases db.getRewardCandidateInfo X snapshot s with
      | none => trivial
      | some info =>
        dsimp only
        split_ifs
        · trivial
        · refine Proc.endures_bind.mpr ⟨?_, fun _ _ => trivial⟩
          refine Endures.bind ?_ (fun _ _ => (ends_okOr _ _).bind (fun _ _ => trivial))
          unfold getOrInitRewardAmounts
          cases info.rewardedAmounts with
          | some l => trivial
          | none => exact (ends_okOr _ _).bind (fun _ _ => trivial)

/-- An error of the reward tracker is swallowed. -/
theorem outcome_rewardCheckpoint (m : IpcCheckpointSubnetMsg) (r : SubnetCheckpoint) :
    (rewardCheckpoint X cfg ctx m r db).outcome = .ok () := by
  unfold rewardCheckpoint
  cases cfg.rewardTracker with
  | none => rfl
  | some c =>
    dsimp only
    rw [Proc.handle_eq_ok]
    exact (ends_updateAfterCheckpoint c ctx.blockHeight m.subnetId r).imp (fun _ _ => rfl)

theorem endures_rewardCheckpoint (m : IpcCheckpointSubnetMsg) (r : SubnetCheckpoint) :
    Endures Ignorable (rewardCheckpoint X cfg ctx m r db).outcome := by
  rw [outcome_rewardCheckpoint]
  trivial

theorem endures_importCommittee (laws : DisplayLaws X) (hsound : Sound X db)
    (m : IpcCheckpointSubnetMsg) (r : SubnetCheckpoint) :
    Endures Ignorable (importCommittee X m r db).outcome := by
  unfold importCommittee
  split_ifs
  · rw [Proc.read_bind, Proc.endures_bind, Proc.lift_apply]
    refine ⟨endures_okOr rfl, fun s hs => ?_⟩
    obtain ⟨t, -, -, hgood, -⟩ := hsound.state laws (okOr_eq_ok.mp hs)
    rw [Proc.endures_bind, Proc.lift_apply,
      Address.requireNetwork_eq_ok.mpr ⟨hgood.derived.address_valid, rfl⟩]
    exact ⟨trivial, fun _ _ => trivial⟩
  · trivial

theorem endures_processCheckpointSubnet (laws : DisplayLaws X) (hsound : Sound X db)
    {m : IpcCheckpointSubnetMsg} (hp : Parsed X ctx db tx (.checkpointSubnet m)) :
    Endures Ignorable (processCheckpointSubnet X cfg ctx tx m db).outcome := by
  unfold processCheckpointSubnet
  rw [Proc.endures_bind, Proc.lift_apply, endures_orMsgInvalid]
  refine ⟨ends_checkpoint_validate m, fun u hv => ?_⟩
  have hvalid : m.validate = .ok () := mapErr_eq_ok.mp hv
  have hstore : (⟨[], orMsgInvalid m.validate⟩ : Trace HeedDb MonitorError Unit).store db = db := rfl
  rw [hstore, Proc.read_bind, Proc.endures_bind, Proc.lift_apply, orProcessing, endures_mapErr]
  refine ⟨endures_saveCheckpoint m _ _ _, fun saved hsave => ?_⟩
  have hsaved := mapErr_eq_ok.mp hsave
  rw [Proc.endures_bind, Proc.commit_apply]
  refine ⟨trivial, fun _ _ => ?_⟩
  rw [Proc.read_bind, Proc.endures_bind, Proc.commit_apply]
  refine ⟨trivial, fun _ _ => ?_⟩
  have hsound' : Sound X (saved.1.saveTransaction X tx) :=
    Sound.commit laws (Sound.commit laws hsound (.checkpointSubnet hp hvalid hsaved)) .transaction
  rw [Proc.endures_bind]
  exact ⟨endures_importCommittee laws hsound' m saved.2, fun _ _ => endures_rewardCheckpoint m _⟩

theorem ends_extractMarkers (out : TxOut) :
    Ends (IpcCheckpointSubnetMsg.extractMarkersFromMetadataTxOut out) := by
  refine (ends_okOr _ _).bind (fun data _ => (ends_ensure _).bind (fun _ hlen => ?_))
  have hlen : data.length = 78 := ensure_eq_ok.mp hlen
  refine (ends_index (by rw [hlen]; decide)).bind (fun _ _ => ?_)
  refine (ends_index (by rw [hlen]; decide)).bind (fun _ _ => ?_)
  refine (ends_index (by rw [hlen]; decide)).bind (fun _ _ => ?_)
  exact (ends_index (by rw [hlen]; decide)).bind (fun _ _ => trivial)

theorem ends_validateForCheckpoint (m : IpcBatchTransferMsg) (checkpointTx : Transaction) :
    Ends (m.validateForCheckpoint X checkpointTx) := by
  refine (ends_ensure _).bind (fun _ _ => (ends_ensure _).bind (fun _ _ => ?_))
  refine (ends_okOr _ _).bind (fun out _ => ?_)
  exact (endures_mapErr.mpr (ends_extractMarkers out)).bind (fun _ _ => ends_ensure _)

theorem endures_checkBatch (m : IpcBatchTransferMsg) :
    Endures Ignorable (checkBatch X db m) := by
  refine (endures_orMsgInvalid.mpr (ends_batch_validate m)).bind (fun _ _ => ?_)
  refine Endures.bind (endures_okOr rfl) (fun checkpointTx _ => ?_)
  refine Endures.bind (endures_mapErr.mpr ?_) (fun checkpoint _ => ?_)
  · exact (ends_fromCheckpointTx db checkpointTx).imp (fun _ _ => rfl)
  refine (endures_orMsgInvalid.mpr (ends_checkpoint_validate checkpoint)).bind (fun _ _ => ?_)
  exact (endures_orMsgInvalid.mpr (ends_validateForCheckpoint m checkpointTx)).bind
    (fun _ _ => trivial)

theorem endures_applyTransfer (o : IpcBatchTransferMsg.Origin) (source : SubnetId) (db : HeedDb)
    (e : IpcCrossSubnetErcTransfer) :
    Endures Rejection (IpcBatchTransferMsg.applyTransfer X o source db e) := by
  unfold IpcBatchTransferMsg.applyTransfer
  split_ifs
  · trivial
  · exact rejects_okOr.bind (fun _ _ => trivial)

theorem endures_applyRecords (m : IpcBatchTransferMsg) (o : IpcBatchTransferMsg.Origin)
    (committed db : HeedDb) : Endures Rejection (m.applyRecords X o committed db) := by
  refine Endures.bind (endures_foldlM (fun b a => ?_) _ _) (fun _ _ => ?_)
  · exact rejects_okOr.bind (fun _ _ => trivial)
  · exact endures_foldlM (fun b e => endures_applyTransfer o m.subnetId b e) _ _

theorem endures_saveBatch (m : IpcBatchTransferMsg) (o : IpcBatchTransferMsg.Origin) :
    Endures Rejection (m.saveToDb X db o) := by
  refine rejects_okOr.bind (fun s _ => rejects_okOr.bind (fun number _ => ?_))
  refine rejects_okOr.bind (fun checkpoint _ => ?_)
  refine (endures_orInvalid.mpr ?_).bind (fun _ _ => ?_)
  · exact (endures_iff_calm (fun _ => trivial)).mpr (calm_validateErcBatchData _ _ _ _ _)
  · exact (endures_applyRecords m o _ _).bind (fun _ _ => trivial)

theorem endures_processBatchTransfer (m : IpcBatchTransferMsg) :
    Endures Ignorable (processBatchTransfer X ctx tx m db).outcome := by
  unfold processBatchTransfer
  rw [Proc.read_bind]
  refine Proc.endures_bind.mpr ⟨endures_checkBatch m, fun m' _ => ?_⟩
  refine Proc.endures_bind.mpr ⟨?_, fun _ _ => trivial⟩
  exact endures_mapErr.mpr (endures_saveBatch m' _)

end Harmless

section Committees

variable {P : IpcLibError → Prop} {c : SubnetCommittee} {t : Txid20} {v : SubnetValidator}

theorem raises_panicked {ε α : Type} {Q : ε → Prop} : Raises Q (panicked : Outcome ε α) := by
  rintro e ⟨⟩

theorem raises_sumPower {ε : Type} {Q : ε → Prop} (l : List Power) :
    Raises Q (sumPower l : Outcome ε Power) := by
  unfold sumPower
  split_ifs
  · exact raises_ok _
  · exact raises_panicked

theorem raises_multisigThreshold {ε : Type} {Q : ε → Prop} (total : Power) :
    Raises Q (multisigThreshold total : Outcome ε Power) := by
  unfold multisigThreshold
  split_ifs
  · exact raises_ok _
  · exact raises_panicked

theorem raises_threshold {ε : Type} {Q : ε → Prop} (vs : List SubnetValidator) :
    Raises Q (SubnetValidators.threshold vs) :=
  (raises_sumPower _).bind raises_multisigThreshold

theorem raises_expectOk {ε ε' α : Type} {Q : ε → Prop} (x : Outcome ε' α) :
    Raises Q (expectOk x : Outcome ε α) := by
  cases x with
  | ok a => exact raises_ok a
  | error e => exact raises_panicked

/-- A committee is computed from validators with power, and else the program panics. -/
theorem endures_toCommittee {vs : List SubnetValidator} {n : Nat} :
    Endures P (SubnetValidators.toCommittee X vs (.fromTxid20 t) n) ↔ Viable vs := by
  have hraises : Raises (fun e => ¬ P e)
      (SubnetValidators.toCommittee X vs (.fromTxid20 t) n : Outcome IpcLibError _) := by
    refine (raises_threshold vs).bind (fun _ => Raises.bind ?_ (fun _ => raises_ok _))
    exact (raises_threshold vs).bind (fun _ => raises_expectOk _)
  rw [hraises.endures_iff_ok]
  constructor
  · rintro ⟨c, hc⟩
    obtain ⟨rfl, -, hd⟩ := toCommittee_eq_ok hc
    exact hd.viable
  · intro hv
    exact ⟨_, toCommittee_of_viable t n hv⟩

theorem joinNewValidator_iff (hnew : c.isValidator v.pubkey = false) :
    (∃ c', c.joinNewValidator X (.fromTxid20 t) v = .ok c') ↔ Viable (c.validators ++ [v]) := by
  have hadd : SubnetValidators.addValidator c.validators v = .ok (c.validators ++ [v]) := by
    rw [SubnetValidators.addValidator, ensure_pos]
    · rfl
    · rw [← Bool.not_eq_true] at hnew
      exact hnew
  unfold SubnetCommittee.joinNewValidator
  rw [hadd, ok_bind]
  constructor
  · rintro ⟨c', hc'⟩
    exact ((SubnetCommittee.rebuilt_eq_ok (c := c)).mp hc').1
  · intro hv
    exact ⟨_, (SubnetCommittee.rebuilt_eq_ok (c := c)).mpr ⟨hv, rfl⟩⟩

end Committees

section Joins

variable {ctx : BlockContext} {tx : Transaction} {db : HeedDb}

/-- Every whitelisted key has weight one. -/
theorem endures_whitelistAddress {ε : Type} {P : ε → Prop} {g : SubnetGenesisInfo} {t : Txid20}
    (hid : g.subnetId = .fromTxid20 t)
    (hmin : g.createSubnetMsg.minValidators ≤ g.createSubnetMsg.whitelist.length) :
    Endures P (g.multisigAddress X) ↔ g.createSubnetMsg.whitelist.length < powerBound := by
  have hsum : ((g.createSubnetMsg.whitelist.map (fun k => (k, 1))).map Prod.snd).sum =
      g.createSubnetMsg.whitelist.length := by
    simp [Function.comp_def]
  have hpower : (sumPower ((g.createSubnetMsg.whitelist.map (fun k => (k, 1))).map Prod.snd) :
      Outcome MultisigError Power) = if g.createSubnetMsg.whitelist.length < powerBound
        then .ok g.createSubnetMsg.whitelist.length else panicked := by
    simp only [sumPower, hsum]
  unfold SubnetGenesisInfo.multisigAddress createSubnetMultisigAddress createMultisigScript
  rw [hpower, hid]
  split_ifs with hlt
  · rw [ok_bind, ensure_pos hmin]
    simp [expectOk, hlt]
  · exact iff_of_false id hlt

theorem endures_processCreateSubnet (m : IpcCreateSubnetMsg) :
    Endures Ignorable (processCreateSubnet X ctx tx m db).outcome ↔
      (m.validate = .ok () → m.whitelist.length < powerBound) := by
  have haddress : m.validate = .ok () →
      (Endures Ignorable ((m.genesisInfo ctx.blockHeight (X.computeTxid tx)).multisigAddress X) ↔
        m.whitelist.length < powerBound) := by
    intro hvalid
    obtain ⟨_, -, hvalid⟩ := bind_eq_ok.mp hvalid
    obtain ⟨_, hle, -⟩ := bind_eq_ok.mp hvalid
    exact endures_whitelistAddress rfl (ensure_eq_ok.mp hle)
  unfold processCreateSubnet
  rw [Proc.endures_bind, Proc.lift_apply, endures_orMsgInvalid]
  constructor
  · rintro ⟨-, h⟩ hvalid
    have hrest := h () (mapErr_eq_ok.mpr hvalid)
    rw [Proc.read_bind, Proc.endures_bind] at hrest
    have haddr := (Proc.endures_bind.mp (hrest.2 () rfl)).1
    exact (haddress hvalid).mp haddr
  · intro h
    refine ⟨ends_create_validate m, fun u hu => ?_⟩
    rw [Proc.read_bind, Proc.endures_bind]
    refine ⟨trivial, fun _ _ => Proc.endures_bind.mpr ⟨?_, fun _ _ => trivial⟩⟩
    have hvalid : m.validate = .ok () := mapErr_eq_ok.mp hu
    exact (haddress hvalid).mpr (h hvalid)

variable (X) in
/-- The validators of the committee that a join leads to, if it leads to one: those of the
latest committee, or those of the genesis when they are enough. -/
def joinedValidators (db : HeedDb) (m : IpcJoinSubnetMsg) (txid : Txid) :
    Option (List SubnetValidator) :=
  let v := m.newValidator X (powerOf m.collateral) txid
  match db.getSubnetState X m.subnetId with
  | some s => some (s.latestCommittee.validators ++ [v])
  | none => (db.getSubnetGenesisInfo X m.subnetId).bind fun g =>
    let g := { g with genesisValidators := g.genesisValidators ++ [v] }
    if g.enoughToBootstrap then some g.genesisValidators else none

theorem checkJoin_spec {m m' : IpcJoinSubnetMsg} (h : checkJoin X tx db m = .ok m') :
    ∃ g, db.getSubnetGenesisInfo X m'.subnetId = some g ∧
      m'.validateForSubnet g (db.getSubnetState X m'.subnetId) = .ok () := by
  obtain ⟨out, -, h⟩ := bind_eq_ok.mp h
  obtain ⟨g, hg, h⟩ := bind_eq_ok.mp h
  obtain ⟨_, hvalid, h⟩ := bind_eq_ok.mp h
  obtain ⟨_, -, h⟩ := bind_eq_ok.mp h
  cases h
  exact ⟨g, okOr_eq_ok.mp hg, mapErr_eq_ok.mp hvalid⟩

theorem endures_checkJoin (m : IpcJoinSubnetMsg) : Endures Ignorable (checkJoin X tx db m) := by
  refine Endures.bind (endures_okOr rfl) (fun out _ => ?_)
  refine Endures.bind (endures_okOr rfl) (fun g _ => ?_)
  refine (endures_orMsgInvalid.mpr (ends_join_validateForSubnet _ g _)).bind (fun _ _ => ?_)
  exact (endures_orMsgInvalid.mpr (ends_join_validate _)).bind (fun _ _ => trivial)

theorem minStake_of_validateForSubnet {m : IpcJoinSubnetMsg} {g : SubnetGenesisInfo}
    {s : Option SubnetState} (h : m.validateForSubnet g s = .ok ()) :
    g.createSubnetMsg.minValidatorStake ≤ m.collateral := by
  cases s with
  | none =>
    obtain ⟨_, hmin, -⟩ := bind_eq_ok.mp h
    exact ensure_eq_ok.mp hmin
  | some s =>
    obtain ⟨_, -, h⟩ := bind_eq_ok.mp h
    obtain ⟨_, -, h⟩ := bind_eq_ok.mp h
    obtain ⟨_, hmin, -⟩ := bind_eq_ok.mp h
    exact ensure_eq_ok.mp hmin

/-- A join that passes the checks of a running subnet is of a new validator. -/
theorem not_isValidator_of_validateForSubnet {m : IpcJoinSubnetMsg} {g : SubnetGenesisInfo}
    {s : SubnetState} (h : m.validateForSubnet g (some s) = .ok ()) :
    s.committee.isValidator m.pubkey = false ∧
      s.latestCommittee.isValidator m.pubkey = false := by
  obtain ⟨_, -, h⟩ := bind_eq_ok.mp h
  obtain ⟨_, -, h⟩ := bind_eq_ok.mp h
  obtain ⟨_, -, h⟩ := bind_eq_ok.mp h
  obtain ⟨_, hcurrent, hwaiting⟩ := bind_eq_ok.mp h
  rw [ensure_eq_ok, Bool.not_eq_true] at hcurrent hwaiting
  refine ⟨hcurrent, ?_⟩
  unfold SubnetState.latestCommittee
  cases hw : s.waitingCommittee with
  | none => exact hcurrent
  | some w =>
    rw [hw] at hwaiting
    exact hwaiting

theorem endures_savePostBootstrap {m : IpcJoinSubnetMsg} {g : SubnetGenesisInfo} {s : SubnetState}
    {t : Txid20} (hid : s.id = .fromTxid20 t) (hvalid : m.validateForSubnet g (some s) = .ok ())
    {power : Power} {h : Nat} {b : BlockHash} {i : Txid} :
    Endures Rejection (m.savePostBootstrap X db s (m.newValidator X power i) h b i) ↔
      Viable (s.latestCommittee.validators ++ [m.newValidator X power i]) := by
  obtain ⟨hcurrent, hlatest⟩ := not_isValidator_of_validateForSubnet hvalid
  have hjoin := joinNewValidator_iff (X := X) (t := t) (c := s.latestCommittee)
    (v := m.newValidator X power i) hlatest
  rw [← hjoin, ← hid]
  unfold IpcJoinSubnetMsg.savePostBootstrap
  rw [ensure_pos (by rw [SubnetState.isValidator, hcurrent]; decide), ok_bind,
    ensure_pos (by rw [hlatest]; decide), ok_bind, endures_bind, endures_mapErr,
    endures_iff_ok not_rejection_dbError]
  exact ⟨fun h => h.1, fun h => ⟨h, fun _ _ => trivial⟩⟩

theorem endures_toSubnet {P : IpcLibError → Prop} {g : SubnetGenesisInfo} {t : Txid20}
    (hid : g.subnetId = .fromTxid20 t) : Endures P (g.toSubnet X) ↔ Viable g.genesisValidators := by
  unfold SubnetGenesisInfo.toSubnet
  rw [hid, endures_bind, endures_toCommittee]
  exact ⟨fun h => h.1, fun h => ⟨h, fun _ _ => trivial⟩⟩

/-- What is saved for a join that passed its checks. -/
theorem endures_saveJoin (laws : DisplayLaws X) (hsound : Sound X db) {m : IpcJoinSubnetMsg}
    {g : SubnetGenesisInfo} (hg : db.getSubnetGenesisInfo X m.subnetId = some g)
    (hvalid : m.validateForSubnet g (db.getSubnetState X m.subnetId) = .ok ())
    {h : Nat} {b : BlockHash} {i : Txid} :
    Endures Rejection (m.saveToDb X db h b i) ↔
      ∀ vs, joinedValidators X db m i = some vs → Viable vs := by
  obtain ⟨hgid, ⟨t, ht⟩, -⟩ := hsound.genesis m.subnetId g hg
  have hpower := collateralToPower_of_le (minStake_of_validateForSubnet hvalid)
  unfold IpcJoinSubnetMsg.saveToDb joinedValidators
  rw [okOr_eq_ok.mpr hg, ok_bind]
  dsimp only
  rw [orInvalid, hvalid, mapErr_ok, ok_bind, hpower, mapErr_ok, ok_bind]
  cases hs : db.getSubnetState X m.subnetId with
  | some s =>
    obtain ⟨u, -, hid, -⟩ := hsound.state laws hs
    rw [hs] at hvalid
    dsimp only
    rw [endures_bind, endures_savePostBootstrap hid hvalid]
    simp only [Option.some.injEq, forall_eq']
    exact ⟨fun h => h.1, fun h => ⟨h, fun _ _ => trivial⟩⟩
  | none =>
    dsimp only
    rw [hg, Option.bind_some]
    unfold IpcJoinSubnetMsg.savePreBootstrap
    dsimp only
    split_ifs with henough
    · have hto : ∀ g' : SubnetGenesisInfo, g'.subnetId = g.subnetId →
          (Endures Rejection (g'.toSubnet X) ↔ Viable g'.genesisValidators) :=
        fun g' hg' => endures_toSubnet (hg'.trans (hgid.trans ht))
      rw [endures_bind]
      simp only [Option.some.injEq, forall_eq']
      constructor
      · rintro ⟨hto', -⟩
        rw [hto] at hto'
        · exact hto'
        · rfl
      · intro hv
        refine ⟨?_, fun _ _ => trivial⟩
        rw [hto]
        · exact hv
        · rfl
    · simp

theorem address_valid_of_saveJoin (hsound : Sound X db) {m : IpcJoinSubnetMsg} {h : Nat}
    {b : BlockHash} {i : Txid} {db' : HeedDb} {s : SubnetState}
    (hsave : m.saveToDb X db h b i = .ok (db', some s)) :
    s.committee.multisigAddress.isValidForNetwork = true := by
  obtain ⟨g, hg, hsave⟩ := bind_eq_ok.mp hsave
  obtain ⟨hgid, ⟨t, ht⟩, -⟩ := hsound.genesis m.subnetId g (okOr_eq_ok.mp hg)
  obtain ⟨_, -, hsave⟩ := bind_eq_ok.mp hsave
  obtain ⟨power, -, hsave⟩ := bind_eq_ok.mp hsave
  cases hs : db.getSubnetState X m.subnetId with
  | some s' =>
    rw [hs] at hsave
    obtain ⟨_, -, hsave⟩ := bind_eq_ok.mp hsave
    cases hsave
  | none =>
    rw [hs] at hsave
    dsimp only [IpcJoinSubnetMsg.savePreBootstrap] at hsave
    split_ifs at hsave
    · obtain ⟨s', hs', hsave⟩ := bind_eq_ok.mp hsave
      cases hsave
      obtain ⟨committee, hc, hs'⟩ := bind_eq_ok.mp hs'
      cases hs'
      dsimp only at hc
      rw [hgid, ht] at hc
      exact (toCommittee_eq_ok hc).2.2.address_valid
    · cases hsave

theorem endures_processJoinSubnet (laws : DisplayLaws X) (hsound : Sound X db)
    (m : IpcJoinSubnetMsg) :
    Endures Ignorable (processJoinSubnet X ctx tx m db).outcome ↔
      ∀ m', checkJoin X tx db m = .ok m' →
        ∀ vs, joinedValidators X db m' (X.computeTxid tx) = some vs → Viable vs := by
  have hsaved : ∀ m', checkJoin X tx db m = .ok m' →
      (Endures Rejection (m'.saveToDb X db ctx.blockHeight ctx.blockHash (X.computeTxid tx)) ↔
        ∀ vs, joinedValidators X db m' (X.computeTxid tx) = some vs → Viable vs) := by
    intro m' hm'
    obtain ⟨g, hg, hvalid⟩ := checkJoin_spec hm'
    exact endures_saveJoin laws hsound hg hvalid
  unfold processJoinSubnet
  rw [Proc.read_bind, Proc.endures_bind, Proc.lift_apply]
  constructor
  · rintro ⟨-, h⟩ m' hm'
    have hsave : Endures Ignorable (orProcessing
        (m'.saveToDb X db ctx.blockHeight ctx.blockHash (X.computeTxid tx))) :=
      (Proc.endures_bind.mp (h m' hm')).1
    rw [orProcessing, endures_mapErr] at hsave
    exact (hsaved m' hm').mp hsave
  · intro h
    refine ⟨endures_checkJoin m, fun m' hm' => ?_⟩
    refine Proc.endures_bind.mpr ⟨endures_mapErr.mpr ((hsaved m' hm').mpr (h m' hm')), ?_⟩
    rintro ⟨db', started⟩ hsave
    refine Proc.endures_bind.mpr ⟨trivial, fun _ _ => ?_⟩
    cases started with
    | none => trivial
    | some s =>
      have hvalid := address_valid_of_saveJoin hsound (mapErr_eq_ok.mp hsave)
      refine Proc.endures_bind.mpr ⟨?_, fun _ _ => trivial⟩
      rw [Proc.lift_apply, Address.requireNetwork_eq_ok.mpr ⟨hvalid, rfl⟩]
      trivial

end Joins

section Stakes

variable {ctx : BlockContext} {tx : Transaction} {db : HeedDb}
variable {h : Nat} {b : BlockHash} {i : Txid}

/-- Collateral of the committee that signs. -/
def stakedCollateral (s : SubnetState) : Nat := (s.committee.validators.map (·.collateral)).sum

theorem totalCollateral_eq {ε : Type} (s : SubnetState) :
    (s.totalCollateral : Outcome ε Amount) =
      if stakedCollateral s < amountBound then .ok (stakedCollateral s) else panicked := rfl

/-- What is saved for a subnet that is found, past a check of the subnet. -/
theorem endures_found {α : Type} {og : Option SubnetGenesisInfo} {os : Option SubnetState}
    {e e' : IpcValidateError}
    (check : SubnetGenesisInfo → SubnetState → Outcome IpcValidateError Unit)
    {rest : SubnetGenesisInfo → SubnetState → Outcome IpcLibError α} {x : Outcome IpcLibError α}
    (hx : x = (do
      let g ← okOr og (.ipcValidateError e)
      let s ← okOr os (.ipcValidateError e')
      orInvalid (check g s)
      rest g s)) :
    Endures Rejection x ↔ ∀ g ∈ og, ∀ s ∈ os,
      Ends (check g s) ∧ (check g s = .ok () → Endures Rejection x) := by
  constructor
  · intro h g hg s hs
    refine ⟨?_, fun _ => h⟩
    rw [hx, okOr_eq_ok.mpr hg, ok_bind, okOr_eq_ok.mpr hs, ok_bind, endures_bind] at h
    exact endures_orInvalid.mp h.1
  · intro h
    rw [hx]
    refine rejects_okOr.bind (fun g hg => rejects_okOr.bind (fun s hs => ?_))
    obtain ⟨hends, hrest⟩ := h g (okOr_eq_ok.mp hg) s (okOr_eq_ok.mp hs)
    refine (endures_orInvalid.mpr hends).bind (fun u hu => ?_)
    have hsaved := hrest (mapErr_eq_ok.mp hu)
    rw [hx, hg, ok_bind, hs, ok_bind, hu, ok_bind] at hsaved
    exact hsaved

theorem raises_addAmount {ε : Type} {Q : ε → Prop} (a c : Amount) :
    Raises Q (addAmount a c : Outcome ε Amount) := by
  unfold addAmount
  split_ifs
  · exact raises_ok _
  · exact raises_panicked

theorem ends_stake_validateForSubnet {m : IpcStakeCollateralMsg} {s : SubnetState}
    (hid : s.id = m.subnetId) :
    Ends (m.validateForSubnet s) ↔
      (s.isKilledOrPending = false → s.latestCommittee.isValidator m.pubkey = true →
        stakedCollateral s + m.amount < amountBound) := by
  unfold IpcStakeCollateralMsg.validateForSubnet
  rw [ensure_pos hid, ok_bind]
  constructor
  · intro hends hkilled hmember
    rw [ensure_pos (by rw [hkilled]; decide), ok_bind, ensure_pos hmember, ok_bind,
      totalCollateral_eq] at hends
    split_ifs at hends with hsum
    · by_contra hbig
      rw [ok_bind, addAmount, if_neg hbig] at hends
      exact hends
    · exact hends.elim
  · intro hlt
    refine (ends_ensure _).bind (fun _ hkilled => (ends_ensure _).bind (fun _ hmember => ?_))
    rw [ensure_eq_ok, Bool.not_eq_true] at hkilled
    have hsum := hlt hkilled (ensure_eq_ok.mp hmember)
    rw [totalCollateral_eq, if_pos (lt_of_le_of_lt (Nat.le_add_right _ _) hsum), ok_bind,
      addAmount_eq_ok.mpr ⟨hsum, rfl⟩, ok_bind]
    exact ends_ensure _

variable (X) in
/-- A stake with which the sums stay within their bounds, and which reaches the minimum. -/
def StakeTolerable (db : HeedDb) (m : IpcStakeCollateralMsg) : Prop :=
  ∀ g ∈ db.getSubnetGenesisInfo X m.subnetId, ∀ s ∈ db.getSubnetState X m.subnetId,
    s.isKilledOrPending = false → ∀ v ∈ s.latestCommittee.findValidator m.pubkey,
      stakedCollateral s + m.amount < amountBound ∧
      (m.validateForSubnet s = .ok () →
        m.amount + v.collateral < amountBound ∧
        g.createSubnetMsg.minValidatorStake ≤ m.amount + v.collateral ∧
        powerAfter s.latestCommittee v (powerOf (m.amount + v.collateral)) * 2 < powerBound)

theorem raises_dbError {α : Type} (x : Outcome DbError α) :
    Raises (fun e => ¬ Rejection e) (mapErr .dbError x) :=
  raises_mapErr (fun e _ => not_rejection_dbError e)

theorem raises_multisigError {α : Type} (x : Outcome MultisigError α) :
    Raises (fun e => ¬ Rejection e) (mapErr .multisigError x) :=
  raises_mapErr (fun e _ => not_rejection_multisigError e)

/-- Past the check, a stake is saved or the monitor stops. -/
theorem raises_saveStake {m : IpcStakeCollateralMsg} {g : SubnetGenesisInfo} {s : SubnetState}
    {v : SubnetValidator} (hg : db.getSubnetGenesisInfo X m.subnetId = some g)
    (hs : db.getSubnetState X m.subnetId = some s) (hvalid : m.validateForSubnet s = .ok ())
    (hv : s.latestCommittee.findValidator m.pubkey = some v) :
    Raises (fun e => ¬ Rejection e) (m.saveToDb X db h b i) := by
  unfold IpcStakeCollateralMsg.saveToDb
  rw [okOr_eq_ok.mpr hg, ok_bind, okOr_eq_ok.mpr hs, ok_bind, orInvalid, hvalid, mapErr_ok,
    ok_bind, okOr_eq_ok.mpr hv, ok_bind]
  refine (raises_addAmount _ _).bind (fun _ => (raises_multisigError _).bind (fun _ => ?_))
  exact (raises_dbError _).bind (fun _ => raises_ok _)

theorem endures_saveStake (laws : DisplayLaws X) (hsound : Sound X db)
    (m : IpcStakeCollateralMsg) :
    Endures Rejection (m.saveToDb X db h b i) ↔ StakeTolerable X db m := by
  refine (endures_found (x := m.saveToDb X db h b i) (fun _ s => m.validateForSubnet s)
    rfl).trans ?_
  refine forall₂_congr (fun g hg => forall₂_congr (fun s hs => ?_))
  obtain ⟨t, ht, hid, -, -⟩ := hsound.state laws hs
  have hgood := hsound.latest laws (ht ▸ hs)
  rw [ends_stake_validateForSubnet (hid.trans ht.symm)]
  constructor
  · rintro ⟨hsum, hsave⟩ hkilled v hv
    refine ⟨hsum hkilled (Provider.isValidator_iff_find.mpr ⟨v, hv⟩), fun hvalid => ?_⟩
    rw [← IpcStakeCollateralMsg.saves_iff ht hgood hg hs hvalid hv]
    exact (raises_saveStake hg hs hvalid hv).endures_iff_ok.mp (hsave hvalid)
  · intro htol
    refine ⟨fun hkilled hmember => ?_, fun hvalid => ?_⟩
    · obtain ⟨v, hv⟩ := Provider.isValidator_iff_find.mp hmember
      exact (htol hkilled v hv).1
    · obtain ⟨hkilled, v, hv⟩ : s.isKilledOrPending = false ∧
          ∃ v, s.latestCommittee.findValidator m.pubkey = some v := by
        obtain ⟨_, -, hvalid⟩ := bind_eq_ok.mp hvalid
        obtain ⟨_, hkilled, hvalid⟩ := bind_eq_ok.mp hvalid
        obtain ⟨_, hmember, -⟩ := bind_eq_ok.mp hvalid
        rw [ensure_eq_ok, Bool.not_eq_true] at hkilled
        exact ⟨hkilled, Provider.isValidator_iff_find.mp (ensure_eq_ok.mp hmember)⟩
      rw [(raises_saveStake hg hs hvalid hv).endures_iff_ok,
        IpcStakeCollateralMsg.saves_iff ht hgood hg hs hvalid hv]
      exact (htol hkilled v hv).2 hvalid

theorem ends_unstake_validateForSubnet {m : IpcUnstakeCollateralMsg} {g : SubnetGenesisInfo}
    {s : SubnetState} (hs : s.id = m.subnetId) (hg : g.subnetId = m.subnetId) :
    Ends (m.validateForSubnet g s) ↔
      (s.isKilledOrPending = false → ∀ k ∈ m.pubkey, s.latestCommittee.isValidator k = true →
        stakedCollateral s < amountBound) := by
  unfold IpcUnstakeCollateralMsg.validateForSubnet
  rw [ensure_pos (by simp [hs, hg]), ok_bind]
  constructor
  · intro hends hkilled k hk hmember
    rw [ensure_pos (by rw [hkilled]; decide), ok_bind, okOr_eq_ok.mpr hk, ok_bind,
      ensure_pos hmember, ok_bind, totalCollateral_eq] at hends
    by_contra hbig
    rw [if_neg hbig] at hends
    exact hends
  · intro hlt
    refine (ends_ensure _).bind (fun _ hkilled => (ends_okOr _ _).bind (fun k hk => ?_))
    refine (ends_ensure _).bind (fun _ hmember => ?_)
    rw [ensure_eq_ok, Bool.not_eq_true] at hkilled
    rw [totalCollateral_eq, if_pos (hlt hkilled k (okOr_eq_ok.mp hk) (ensure_eq_ok.mp hmember)),
      ok_bind]
    refine (ends_ensure _).bind (fun _ _ => (ends_okOr _ _).bind (fun v _ => ?_))
    refine (ends_ensure _).bind (fun _ _ => Endures.bind ?_ (fun p _ => ends_ensure _))
    rw [endures_mapErr, IpcUnstakeCollateralMsg.remainingPower_eq]
    split_ifs <;> trivial

variable (X) in
/-- An unstake that leaves power in the committee. -/
def UnstakeTolerable (db : HeedDb) (m : IpcUnstakeCollateralMsg) : Prop :=
  ∀ g ∈ db.getSubnetGenesisInfo X m.subnetId, ∀ s ∈ db.getSubnetState X m.subnetId,
    s.isKilledOrPending = false → ∀ k ∈ m.pubkey, ∀ v ∈ s.latestCommittee.findValidator k,
      stakedCollateral s < amountBound ∧
      (m.validateForSubnet g s = .ok () →
        0 < powerAfter s.latestCommittee v (powerOf (v.collateral - m.amount)))

/-- Past the check, an unstake is saved or the monitor stops. -/
theorem raises_saveUnstake {m : IpcUnstakeCollateralMsg} {g : SubnetGenesisInfo}
    {s : SubnetState} {v : SubnetValidator}
    (hg : db.getSubnetGenesisInfo X m.subnetId = some g)
    (hs : db.getSubnetState X m.subnetId = some s) (hvalid : m.validateForSubnet g s = .ok ())
    (hpk : m.pubkey = some v.pubkey)
    (hv : s.latestCommittee.findValidator v.pubkey = some v) (hle : m.amount ≤ v.collateral) :
    Raises (fun e => ¬ Rejection e) (m.saveToDb X db h b i) := by
  unfold IpcUnstakeCollateralMsg.saveToDb
  rw [okOr_eq_ok.mpr hg, ok_bind, okOr_eq_ok.mpr hs, ok_bind, orInvalid, hvalid, mapErr_ok,
    ok_bind, hpk, expect_eq_ok.mpr rfl, ok_bind, okOr_eq_ok.mpr hv, ok_bind, ensure_pos hle,
    ok_bind]
  refine (raises_multisigError _).bind (fun _ => (raises_dbError _).bind (fun _ => raises_ok _))

theorem endures_saveUnstake (laws : DisplayLaws X) (hsound : Sound X db)
    (m : IpcUnstakeCollateralMsg) :
    Endures Rejection (m.saveToDb X db h b i) ↔ UnstakeTolerable X db m := by
  refine (endures_found (x := m.saveToDb X db h b i) m.validateForSubnet rfl).trans ?_
  refine forall₂_congr (fun g hg => forall₂_congr (fun s hs => ?_))
  obtain ⟨t, ht, hid, -, -⟩ := hsound.state laws hs
  have hgood := hsound.latest laws (ht ▸ hs)
  rw [ends_unstake_validateForSubnet (hid.trans ht.symm) (hsound.genesis _ g hg).1]
  constructor
  · rintro ⟨hsum, hsave⟩ hkilled k hk v hv
    refine ⟨hsum hkilled k hk (Provider.isValidator_iff_find.mpr ⟨v, hv⟩), fun hvalid => ?_⟩
    obtain ⟨v', hpk, hv', hle, -⟩ := IpcUnstakeCollateralMsg.validator_of_validateForSubnet hvalid
    obtain rfl : k = v'.pubkey := Option.some.inj (hk.symm.trans hpk)
    obtain rfl : v = v' := Option.some.inj (hv.symm.trans hv')
    rw [← IpcUnstakeCollateralMsg.saves_iff ht hgood hg hs hvalid hpk hv]
    exact (raises_saveUnstake hg hs hvalid hpk hv hle).endures_iff_ok.mp (hsave hvalid)
  · intro htol
    refine ⟨fun hkilled k hk hmember => ?_, fun hvalid => ?_⟩
    · obtain ⟨v, hv⟩ := Provider.isValidator_iff_find.mp hmember
      exact (htol hkilled k hk v hv).1
    · obtain ⟨v, hpk, hv, hle, -⟩ := IpcUnstakeCollateralMsg.validator_of_validateForSubnet hvalid
      have hkilled : s.isKilledOrPending = false := by
        obtain ⟨_, -, hvalid⟩ := bind_eq_ok.mp hvalid
        obtain ⟨_, hkilled, -⟩ := bind_eq_ok.mp hvalid
        exact Bool.not_eq_true _ ▸ ensure_eq_ok.mp hkilled
      rw [(raises_saveUnstake hg hs hvalid hpk hv hle).endures_iff_ok,
        IpcUnstakeCollateralMsg.saves_iff ht hgood hg hs hvalid hpk hv]
      exact (htol hkilled v.pubkey hpk v hv).2 hvalid

theorem ends_kill_validateForSubnet (m : IpcKillSubnetMsg) (g : SubnetGenesisInfo)
    (s : SubnetState) : Ends (m.validateForSubnet g s) :=
  (ends_ensure _).bind (fun _ _ => (ends_okOr _ _).bind (fun _ _ => ends_ensure _))

variable (X) in
/-- A request to kill with which the powers that request it can be added up. -/
def KillTolerable (db : HeedDb) (blockHeight : Nat) (m : IpcKillSubnetMsg) : Prop :=
  ∀ g ∈ db.getSubnetGenesisInfo X m.subnetId, ∀ s ∈ db.getSubnetState X m.subnetId,
    ∀ k ∈ m.pubkey, ∀ v ∈ s.latestCommittee.findValidator k,
      ¬ (db.getValidKillRequests X m.subnetId blockHeight).any (fun r => r.validatorXpk = k) →
        killVotes s.latestCommittee (db.getValidKillRequests X m.subnetId blockHeight) + v.power <
          powerBound

theorem kill_validateForSubnet_iff {m : IpcKillSubnetMsg} {g : SubnetGenesisInfo}
    {s : SubnetState} (hs : s.id = m.subnetId) (hg : g.subnetId = m.subnetId) :
    m.validateForSubnet g s = .ok () ↔
      ∃ v, m.pubkey = some v.pubkey ∧ s.latestCommittee.findValidator v.pubkey = some v := by
  unfold IpcKillSubnetMsg.validateForSubnet
  rw [ensure_pos (by simp [hs, hg]), ok_bind]
  constructor
  · intro hvalid
    obtain ⟨k, hk, hmember⟩ := bind_eq_ok.mp hvalid
    obtain ⟨v, hv⟩ := Provider.isValidator_iff_find.mp (ensure_eq_ok.mp hmember)
    obtain ⟨-, rfl⟩ := SubnetCommittee.findValidator_eq_some hv
    exact ⟨v, okOr_eq_ok.mp hk, hv⟩
  · rintro ⟨v, hpk, hv⟩
    rw [okOr_eq_ok.mpr hpk, ok_bind]
    exact ensure_eq_ok.mpr (Provider.isValidator_iff_find.mpr ⟨v, hv⟩)

/-- Past the check, a request to kill is a second one, or is saved, or stops the monitor. -/
theorem endures_saveKill_of_valid {m : IpcKillSubnetMsg} {g : SubnetGenesisInfo} {s : SubnetState}
    {v : SubnetValidator} {t : Txid20} (hgood : Good X t s.latestCommittee)
    (hg : db.getSubnetGenesisInfo X m.subnetId = some g)
    (hs : db.getSubnetState X m.subnetId = some s) (hvalid : m.validateForSubnet g s = .ok ())
    (hpk : m.pubkey = some v.pubkey)
    (hv : s.latestCommittee.findValidator v.pubkey = some v) :
    Endures Rejection (m.saveToDb X db h b i) ↔
      (¬ (db.getValidKillRequests X m.subnetId h).any (fun r => r.validatorXpk = v.pubkey) →
        killVotes s.latestCommittee (db.getValidKillRequests X m.subnetId h) + v.power <
          powerBound) := by
  by_cases hfresh : (db.getValidKillRequests X m.subnetId h).any
      (fun r => r.validatorXpk = v.pubkey) = true
  · refine iff_of_true ?_ (fun h => absurd hfresh h)
    unfold IpcKillSubnetMsg.saveToDb
    rw [okOr_eq_ok.mpr hg, ok_bind, okOr_eq_ok.mpr hs, ok_bind, orInvalid, hvalid, mapErr_ok,
      ok_bind, hpk, expect_eq_ok.mpr rfl, ok_bind, okOr_eq_ok.mpr hv, ok_bind]
    exact rejects_ensure.bind (fun _ hfirst => absurd hfresh (ensure_eq_ok.mp hfirst))
  · have hraises : Raises (fun e => ¬ Rejection e) (m.saveToDb X db h b i) := by
      unfold IpcKillSubnetMsg.saveToDb
      rw [okOr_eq_ok.mpr hg, ok_bind, okOr_eq_ok.mpr hs, ok_bind, orInvalid, hvalid, mapErr_ok,
        ok_bind, hpk, expect_eq_ok.mpr rfl, ok_bind, okOr_eq_ok.mpr hv, ok_bind]
      dsimp only
      rw [ensure_pos hfresh, ok_bind]
      refine (raises_sumPower _).bind (fun _ => (raises_sumPower _).bind (fun _ => ?_))
      refine (raises_multisigThreshold _).bind (fun _ => ?_)
      split_ifs <;> exact raises_ok _
    rw [hraises.endures_iff_ok, IpcKillSubnetMsg.saves_iff hgood hg hs hvalid hpk hv hfresh]
    exact ⟨fun hlt _ => hlt, fun hlt => hlt hfresh⟩

theorem endures_saveKill (laws : DisplayLaws X) (hsound : Sound X db) (m : IpcKillSubnetMsg) :
    Endures Rejection (m.saveToDb X db h b i) ↔ KillTolerable X db h m := by
  refine (endures_found (x := m.saveToDb X db h b i) m.validateForSubnet rfl).trans ?_
  refine forall₂_congr (fun g hg => forall₂_congr (fun s hs => ?_))
  obtain ⟨t, ht, hid, -, -⟩ := hsound.state laws hs
  have hgood := hsound.latest laws (ht ▸ hs)
  rw [and_iff_right (ends_kill_validateForSubnet m g s)]
  have hspec := kill_validateForSubnet_iff (hid.trans ht.symm) (hsound.genesis _ g hg).1
  constructor
  · intro hsave k hk v hv
    obtain ⟨-, rfl⟩ := SubnetCommittee.findValidator_eq_some hv
    have hvalid := hspec.mpr ⟨v, hk, hv⟩
    exact (endures_saveKill_of_valid hgood hg hs hvalid hk hv).mp (hsave hvalid)
  · intro htol hvalid
    obtain ⟨v, hpk, hv⟩ := hspec.mp hvalid
    exact (endures_saveKill_of_valid hgood hg hs hvalid hpk hv).mpr (htol v.pubkey hpk v hv)

end Stakes

section Transactions

variable (X) in
/-- The messages that do not stop the monitor on a database. -/
def Tolerable (ctx : BlockContext) (tx : Transaction) (db : HeedDb) : IpcMessage → Prop
  | .createSubnet m => m.validate = .ok () → m.whitelist.length < powerBound
  | .joinSubnet m => ∀ m', checkJoin X tx db m = .ok m' →
      ∀ vs, joinedValidators X db m' (X.computeTxid tx) = some vs → Viable vs
  | .stakeCollateral m => m.validate = .ok () → StakeTolerable X db m
  | .unstakeCollateral m => m.validate = .ok () → UnstakeTolerable X db m
  | .killSubnet m => m.validate = .ok () → KillTolerable X db ctx.blockHeight m
  | _ => True

variable {cfg : Config} {ctx : BlockContext} {tx : Transaction} {db : HeedDb}

/-- The monitor goes on after a message exactly when the message is tolerable. -/
theorem handleMsg_iff (laws : DisplayLaws X) (hsound : Sound X db) {m : IpcMessage}
    (hp : Parsed X ctx db tx m) :
    (handleMsg X cfg ctx tx m db).outcome = .ok () ↔ Tolerable X ctx tx db m := by
  rw [handleMsg, Proc.handle_eq_ok]
  cases m with
  | createSubnet m => exact endures_processCreateSubnet m
  | joinSubnet m => exact endures_processJoinSubnet laws hsound m
  | prefundSubnet m => exact iff_of_true (endures_processPrefundSubnet m) trivial
  | fundSubnet m => exact iff_of_true (endures_processFundSubnet m) trivial
  | checkpointSubnet m => exact iff_of_true (endures_processCheckpointSubnet laws hsound hp) trivial
  | batchTransfer m => exact iff_of_true (endures_processBatchTransfer m) trivial
  | stakeCollateral m =>
    refine endures_save.trans ?_
    rw [endures_saveStake laws hsound]
    exact and_iff_right (ends_staking_validate _ _)
  | unstakeCollateral m =>
    refine endures_save.trans ?_
    rw [endures_saveUnstake laws hsound]
    exact and_iff_right (ends_staking_validate _ _)
  | killSubnet m =>
    refine endures_save.trans ?_
    rw [endures_saveKill laws hsound]
    exact and_iff_right (ends_ensure _)

theorem sound_handleMsg (laws : DisplayLaws X) (hsound : Sound X db) {m : IpcMessage}
    (hp : Parsed X ctx db tx m) : Sound X ((handleMsg X cfg ctx tx m db).store db) := by
  obtain ⟨saved, ⟨l, hl, hc, -⟩, -⟩ := handlesOnce_handleMsg cfg hp
  have hlast : lastStore db l = (handleMsg X cfg ctx tx m db).store db := by
    rw [lastStore, hc]
    rfl
  rw [← hlast]
  exact sound_of_trail laws hsound hl

theorem processOutputs_iff (laws : DisplayLaws X) (hsound : Sound X db) :
    (processOutputs X cfg ctx tx db).outcome = .ok () ↔
      ∀ m, (firstParsed (outputParsers X ctx db tx) : Outcome MonitorError _) = .ok (some m) →
        Tolerable X ctx tx db m := by
  unfold processOutputs
  rw [Proc.read_bind]
  obtain ⟨found, hfound⟩ : ∃ found,
      (firstParsed (outputParsers X ctx db tx) : Outcome MonitorError _) = .ok found :=
    firstParsed_of_ends (ends_outputParsers hsound ctx tx)
  rw [hfound]
  cases found with
  | none => exact iff_of_true rfl (fun m hm => by cases hm)
  | some m =>
    obtain ⟨hp, -⟩ := parsed_of_mem_outputParsers (mem_of_firstParsed hfound)
    have hiff : (handleMsg X cfg ctx tx m db).outcome = .ok () ↔ Tolerable X ctx tx db m :=
      handleMsg_iff laws hsound hp
    refine hiff.trans ?_
    simp

variable (X) in
/-- The database after the messages in the witnesses of a transaction. -/
def afterWitnesses (cfg : Config) (ctx : BlockContext) (tx : Transaction) (db : HeedDb) : HeedDb :=
  (Proc.each (handleMsg X cfg ctx tx) (witnessMessages X tx) db).store db

variable (X) in
/-- Each message of the transaction is tolerable on the database it is handled on. -/
structure Harmless (cfg : Config) (ctx : BlockContext) (tx : Transaction) (db : HeedDb) : Prop where
  witnesses : Proc.Along (Tolerable X ctx tx) (handleMsg X cfg ctx tx) db (witnessMessages X tx)
  outputs : ∀ m, (firstParsed (outputParsers X ctx (afterWitnesses X cfg ctx tx db) tx) :
    Outcome MonitorError _) = .ok (some m) → Tolerable X ctx tx (afterWitnesses X cfg ctx tx db) m

/-- On every database that is reached, a transaction stops the monitor exactly when one of its
messages is not tolerable. -/
theorem processTransaction_iff_harmless (laws : DisplayLaws X) (hreach : Reachable X db)
    (cfg : Config) (ctx : BlockContext) (tx : Transaction) :
    (processTransaction X cfg ctx tx db).outcome = .ok () ↔ Harmless X cfg ctx tx db := by
  have hsound := sound_of_reachable laws hreach
  have hkeeps : ∀ m ∈ witnessMessages X tx, ∀ db, Sound X db →
      Sound X ((handleMsg X cfg ctx tx m db).store db) :=
    fun m hm db hs => sound_handleMsg laws hs (parsed_of_mem_witnessMessages hm db)
  have hiff : ∀ m ∈ witnessMessages X tx, ∀ db, Sound X db →
      ((handleMsg X cfg ctx tx m db).outcome = .ok () ↔ Tolerable X ctx tx db m) :=
    fun m hm db hs => handleMsg_iff laws hs (parsed_of_mem_witnessMessages hm db)
  have heach := Proc.each_eq_ok.trans (Proc.along_iff hkeeps hiff hsound)
  have hafter : Sound X (afterWitnesses X cfg ctx tx db) := Proc.each_keeps hkeeps hsound
  unfold processTransaction
  cases hout : (Proc.each (handleMsg X cfg ctx tx) (witnessMessages X tx) db).outcome with
  | error e =>
    rw [Proc.bind_error hout]
    refine iff_of_false (fun h => by cases h) (fun h => ?_)
    rw [heach.mpr h.witnesses] at hout
    cases hout
  | ok u =>
    rw [Proc.bind_ok hout]
    refine (processOutputs_iff laws hafter).trans ⟨fun h => ⟨heach.mp hout, h⟩, fun h => h.outputs⟩

end Transactions

open Solo

/-- A join that reaches the minimum stake. -/
theorem join_goes_on :
    Reachable (library 10000 []) ((run (library 10000 []) [createTx]).store HeedDb.empty) ∧
      Harmless (library 10000 []) ⟨none⟩ context (joinTx 100000)
        ((run (library 10000 []) [createTx]).store HeedDb.empty) := by
  refine ⟨reachable_run [createTx], ?_⟩
  refine (processTransaction_iff_harmless (displayLaws_ideal _) (reachable_run [createTx]) _ _
    _).mp ?_
  exact of_decide_eq_true (by decide +kernel)

/-- A subnet may ask for less stake than one unit of power is worth. The join of its
validator then stops the monitor. -/
theorem powerless_join_panics :
    Reachable (library 1 []) ((run (library 1 []) [createTx]).store HeedDb.empty) ∧
      (processTransaction (library 1 []) ⟨none⟩ context (joinTx 5000)
        ((run (library 1 []) [createTx]).store HeedDb.empty)).outcome = panicked :=
  ⟨reachable_run [createTx], of_decide_eq_true (by decide +kernel)⟩

end Monitor
