import BitcoinIpc.MultisigSpend
import BitcoinIpc.PassedOver

/-!
# Creating and joining a subnet through the provider

The messages that create and join a subnet are too long for an output, so they
travel in a witness: a commit transaction pays to the script that holds the
data, and a reveal transaction spends it and pays the final address. The monitor
passes the commit over. In the reveal it finds the message, and nothing else.
-/

namespace Provider

open Faults Bytes Chain Messages Crates Multisig Db Monitor Commits Grouping

/-- The encoders of the two messages. -/
structure WitnessCodec where
  encodeCreateSubnet : IpcCreateSubnetMsg → Option (List UInt8)
  encodeJoinSubnet : IpcJoinSubnetMsg → Option (List UInt8)

/-- What is encoded is read back, except for the collateral of a join, which is skipped. -/
structure WitnessCodecLaws (X : Library) (E : WitnessCodec) : Prop where
  create : ∀ m bytes, E.encodeCreateSubnet m = some bytes → X.decodeCreateSubnet bytes = some m
  join : ∀ m bytes, E.encodeJoinSubnet m = some bytes →
    X.decodeJoinSubnet bytes = some { m with collateral := 0 }

section Handlers

variable (X : Library) (E : WitnessCodec) (w : Wallet)

/-- The value that is sent is raised to the least output of the commit script. The commit pays
the fee of the reveal on top of it. -/
def createCommitRevealTxs (finalAddress : Address) (data : List UInt8)
    (amountToSend : Option Amount) : Outcome RpcError (Transaction × Transaction) := do
  let commitScript := makePushDataScript data
  let commitScriptPubkey := Address.p2trScript (X.taprootOutputKey (.leaf commitScript))
  let value := max (X.minimalNonDustCustom commitScriptPubkey w.feeRate) (amountToSend.getD 0)
  let witness := [commitScript, X.controlBlock commitScript]
  let revealOut : TxOut := ⟨value, finalAddress.scriptPubkey⟩
  let reveal := IpcCheckpointSubnetMsg.revealTransaction ⟨FixedBytes.zeros 32, 0⟩ witness revealOut
  let fee ← okOr (X.feeWu w.feeRate (X.weight reveal)) (.internalError "\x7b\x7d")
  let commitValue ← addAmount value fee
  let commit ← submit w (createTxFromTxouts [⟨commitValue, commitScriptPubkey⟩])
  return (commit,
    IpcCheckpointSubnetMsg.revealTransaction ⟨X.computeTxid commit, 0⟩ witness revealOut)

/-- What a handler of the commit-reveal scheme submits, with the id it answers. -/
structure Submitted (α : Type) where
  answer : α
  commit : Transaction
  reveal : Transaction

/-- The return address is a new address of the wallet. -/
def createSubnet (returnAddress : Address) (m : IpcCreateSubnetMsg) :
    Outcome RpcError (Submitted SubnetId) := do
  orInvalidParams "\x7b\x7d" m.validate
  let bytes ← okOr (E.encodeCreateSubnet m) (.internalError "\x7b\x7d")
  let (commit, reveal) ← createCommitRevealTxs X w returnAddress
    (tagBytes ipcCreateSubnetTag ++ bytes) none
  return ⟨.fromTxid (X.computeTxid reveal), commit, reveal⟩

/-- A join pays to the address of the whitelist, also after the bootstrap. -/
def joinSubnet (db : HeedDb) (m : IpcJoinSubnetMsg) : Outcome RpcError (Submitted Txid) := do
  orInvalidParams "\x7b\x7d" m.validate
  let g ← readGenesis X db m.subnetId
  orInvalidParams "\x7b\x7d" (m.validateForSubnet g (db.getSubnetState X m.subnetId))
  let a ← g.multisigAddress X
  let bytes ← okOr (E.encodeJoinSubnet m) (.internalError "\x7b\x7d")
  let (commit, reveal) ← createCommitRevealTxs X w a (tagBytes ipcJoinSubnetTag ++ bytes)
    (some m.collateral)
  return ⟨X.computeTxid reveal, commit, reveal⟩

/-- The release address is a new address of the wallet. -/
def prefundSubnet (db : HeedDb) (release : Address) (m : IpcPrefundSubnetMsg) :
    Outcome RpcError Transaction := do
  orInvalidParams "\x7b\x7d" m.validate
  let g ← readGenesis X db m.subnetId
  orInvalidParams "\x7b\x7d" (IpcPrefundSubnetMsg.validateForGenesisInfo g)
  let a ← g.multisigAddress X
  submit w (← m.toTx X w.feeRate a release)

end Handlers

section Scheme

variable {X : Library} {w : Wallet} {data : List UInt8} {a : Address} {amount : Option Amount}
  {commit reveal : Transaction}

/-- The least value that the commit script can hold. -/
def commitDust (X : Library) (w : Wallet) (data : List UInt8) : Amount :=
  X.minimalNonDustCustom
    (Address.p2trScript (X.taprootOutputKey (.leaf (makePushDataScript data)))) w.feeRate

/-- A reveal of data spends the first output of its commit, which holds the value of the reveal
and its fee. -/
structure RevealOf (X : Library) (w : Wallet) (data : List UInt8) (a : Address) (value : Amount)
    (commit reveal : Transaction) : Prop where
  reveal_eq : reveal = IpcCheckpointSubnetMsg.revealTransaction ⟨X.computeTxid commit, 0⟩
    [makePushDataScript data, X.controlBlock (makePushDataScript data)] ⟨value, a.scriptPubkey⟩
  commit_output : ∃ fee change, X.feeWu w.feeRate (X.weight reveal) = some fee ∧
    commit.output = ⟨value + fee,
      Address.p2trScript (X.taprootOutputKey (.leaf (makePushDataScript data)))⟩ :: change
  plain : Plain commit

/-- A transaction that reveals the data behind one output and pays one address. -/
def RevealsData (X : Library) (data : List UInt8) (tx : Transaction) : Prop :=
  ∃ outpoint value, ∃ a : Address, tx = IpcCheckpointSubnetMsg.revealTransaction outpoint
    [makePushDataScript data, X.controlBlock (makePushDataScript data)] ⟨value, a.scriptPubkey⟩

theorem RevealOf.revealsData {value : Amount} (h : RevealOf X w data a value commit reveal) :
    RevealsData X data reveal :=
  ⟨_, value, a, h.reveal_eq⟩

theorem createCommitRevealTxs_eq_ok (hweight : WeightLaws X) (hw : WalletLaws w)
    (h : createCommitRevealTxs X w a data amount = .ok (commit, reveal)) :
    RevealOf X w data a (max (commitDust X w data) (amount.getD 0)) commit reveal := by
  obtain ⟨fee, hfee, h⟩ := bind_eq_ok.mp h
  obtain ⟨value, hvalue, h⟩ := bind_eq_ok.mp h
  obtain ⟨tx, hsubmit, h⟩ := bind_eq_ok.mp h
  cases h
  obtain ⟨⟨change, hout⟩, hplain⟩ := submit_eq_ok hw hsubmit
  obtain ⟨-, rfl⟩ := addAmount_eq_ok.mp hvalue
  refine ⟨rfl, ⟨fee, change, ?_, hout⟩, hplain⟩
  rw [IpcCheckpointSubnetMsg.weight_revealTransaction hweight _ ⟨FixedBytes.zeros 32, 0⟩]
  exact okOr_eq_ok.mp hfee

/-- The output of a commit is a taproot key, so the monitor passes it over. -/
theorem RevealOf.commit_passed_over {value : Amount} (h : RevealOf X w data a value commit reveal)
    (cfg : Config) (ctx : BlockContext) (db : HeedDb) :
    processTransaction X cfg ctx commit db = ⟨[], .ok ()⟩ := by
  obtain ⟨fee, change, -, hout⟩ := h.commit_output
  exact processTransaction_of_noData cfg ctx h.plain (noData_of_p2tr hout) db

/-- The witness of a reveal holds the data, and no message beside it. -/
theorem RevealsData.witnessMessages_eq (hX : TransactionLaws X) (h : RevealsData X data reveal) :
    witnessMessages X reveal = (fromWitness X data).toList := by
  obtain ⟨e, he⟩ := concatenateOpPushData_controlBlock hX (makePushDataScript data)
  have hscript : witnessMessage X (makePushDataScript data) = fromWitness X data := by
    have hne : makePushDataScript data ≠ [] := by simp [makePushDataScript]
    unfold witnessMessage
    rw [if_neg hne, concatenateOpPushData_make]
  have hblock : witnessMessage X (X.controlBlock (makePushDataScript data)) = none := by
    unfold witnessMessage
    split_ifs
    · rfl
    · rw [he]
  have hitems : witnessMessages X reveal = [makePushDataScript data,
      X.controlBlock (makePushDataScript data)].filterMap (witnessMessage X) := by
    obtain ⟨outpoint, value, a, rfl⟩ := h
    simp [witnessMessages, IpcCheckpointSubnetMsg.revealTransaction]
  rw [hitems]
  cases hm : fromWitness X data <;> simp [hscript, hblock, hm]

/-- The data of another message than a batch transfer is not read as one. -/
theorem RevealsData.batchFromTx (h : RevealsData X data reveal)
    (htag : data.take ipcTagLength ≠ tagBytes ipcTransferTag) (native erc : HashOrder Txid20)
    (db : HeedDb) : ∃ e, IpcBatchTransferMsg.fromTx X native erc db reveal = raise e := by
  have hwire : ∃ e, IpcBatchTransferMsg.witnessToWireData X data = raise e := by
    have hbad : ¬ ¬ (data.length < ipcTagLength ∨
        data.take ipcTagLength ≠ tagBytes ipcTransferTag) := not_not_intro (Or.inr htag)
    unfold IpcBatchTransferMsg.witnessToWireData
    rw [ensure_neg hbad]
    exact ⟨_, rfl⟩
  obtain ⟨e, he⟩ := hwire
  obtain ⟨outpoint, value, a, rfl⟩ := h
  unfold IpcBatchTransferMsg.fromTx IpcCheckpointSubnetMsg.revealTransaction
  rw [ensure_pos (by rfl), ok_bind, index_eq_ok.mpr rfl, ok_bind,
    ensure_pos (List.cons_ne_nil _ _), ok_bind, index_eq_ok.mpr rfl, ok_bind,
    concatenateOpPushData_make]
  simp only [Except.toOption, okOr, ok_bind, he, mapErr]
  exact ⟨_, rfl⟩

/-- The monitor handles the message of a reveal, and finds nothing in its outputs. -/
theorem RevealsData.processTransaction_eq {m : IpcMessage} (hX : TransactionLaws X)
    (h : RevealsData X data reveal) (hm : fromWitness X data = some m)
    (htag : data.take ipcTagLength ≠ tagBytes ipcTransferTag) (cfg : Config) (ctx : BlockContext)
    (db : HeedDb) :
    processTransaction X cfg ctx reveal db = handleMsg X cfg ctx reveal m db := by
  obtain ⟨value, a, hout⟩ : ∃ value, ∃ a : Address, reveal.output = [⟨value, a.scriptPubkey⟩] := by
    obtain ⟨outpoint, value, a, rfl⟩ := h
    exact ⟨value, a, rfl⟩
  have hmsgs : witnessMessages X reveal = [m] := by
    rw [h.witnessMessages_eq hX, hm]
    rfl
  have hfound : ∀ d, (firstParsed (outputParsers X ctx d reveal) : Outcome MonitorError _) =
      .ok none :=
    fun d => firstParsed_of_noData ctx d (noData_of_address hout)
      (h.batchFromTx htag ctx.native ctx.erc d)
  have hrest : ∀ d, processOutputs X cfg ctx reveal d = ⟨[], .ok ()⟩ := by
    intro d
    simp only [processOutputs, Proc.read_bind, hfound, Proc.lift_ok_bind]
    rfl
  unfold processTransaction
  rw [hmsgs]
  cases hhandled : (handleMsg X cfg ctx reveal m db).outcome with
  | error e =>
    have hone : (Proc.each (handleMsg X cfg ctx reveal) [m] db).outcome = .error e := by
      rw [Proc.each_singleton, hhandled]
    rw [Proc.bind_error hone, Proc.each_singleton, ← hhandled]
  | ok u =>
    have hone : (Proc.each (handleMsg X cfg ctx reveal) [m] db).outcome = .ok () := by
      rw [Proc.each_singleton, hhandled]
    rw [Proc.bind_ok hone, Proc.each_singleton, hrest, List.append_nil, ← hhandled]

end Scheme

section Create

variable {X : Library} {E : WitnessCodec} {w : Wallet} {returnAddress : Address}
  {m : IpcCreateSubnetMsg} {sent : Submitted SubnetId}

theorem fromWitness_create {bytes : List UInt8} (h : X.decodeCreateSubnet bytes = some m) :
    fromWitness X (tagBytes ipcCreateSubnetTag ++ bytes) = some (.createSubnet m) := by
  have htag : (tagBytes ipcCreateSubnetTag).length = ipcTagLength := by decide
  have hread : IpcTag.fromBytes (tagBytes ipcCreateSubnetTag) = some .createSubnet := by decide
  have hlong : ¬ (tagBytes ipcCreateSubnetTag ++ bytes).length < ipcTagLength := by
    rw [List.length_append, htag]
    omega
  rw [fromWitness, if_neg hlong, List.take_left' htag, List.drop_left' htag, hread]
  exact congrArg (Option.map IpcMessage.createSubnet) h

theorem take_createTag_ne (bytes : List UInt8) :
    (tagBytes ipcCreateSubnetTag ++ bytes).take ipcTagLength ≠ tagBytes ipcTransferTag := by
  rw [List.take_left' (by decide)]
  decide

theorem createSubnet_eq_ok (hweight : WeightLaws X) (hw : WalletLaws w)
    (h : createSubnet X E w returnAddress m = .ok sent) :
    m.validate = .ok () ∧ ∃ bytes, E.encodeCreateSubnet m = some bytes ∧
      sent.answer = .fromTxid (X.computeTxid sent.reveal) ∧
      RevealOf X w (tagBytes ipcCreateSubnetTag ++ bytes) returnAddress
        (max (commitDust X w (tagBytes ipcCreateSubnetTag ++ bytes)) 0) sent.commit sent.reveal := by
  obtain ⟨_, hvalid, h⟩ := bind_eq_ok.mp h
  obtain ⟨bytes, hbytes, h⟩ := bind_eq_ok.mp h
  obtain ⟨⟨commit, reveal⟩, htxs, h⟩ := bind_eq_ok.mp h
  cases h
  exact ⟨mapErr_eq_ok.mp hvalid, bytes, okOr_eq_ok.mp hbytes, rfl,
    createCommitRevealTxs_eq_ok hweight hw htxs⟩

/-- The address of a new subnet is computed unless the keys are too many to be counted. -/
theorem multisigAddress_genesisInfo {ε : Type} (hvalid : m.validate = .ok ()) (height : Nat)
    (txid : Txid) :
    (∃ a, ((m.genesisInfo height txid).multisigAddress X : Outcome ε Address) = .ok a) ↔
      m.whitelist.length < powerBound := by
  have hsum : ((m.whitelist.map (fun k => (k, 1) : XOnlyPublicKey → WeightedKey)).map
      Prod.snd).sum = m.whitelist.length := by
    simp [Function.comp_def]
  obtain ⟨_, -, hrest⟩ := bind_eq_ok.mp hvalid
  obtain ⟨_, hle, -⟩ := bind_eq_ok.mp hrest
  constructor
  · rintro ⟨a, ha⟩
    obtain ⟨script, hscript, -⟩ := bind_eq_ok.mp (expectOk_eq_ok.mp ha)
    exact hsum ▸ (MultisigSpend.createMultisigScript_eq_ok.mp hscript).1
  · intro hsmall
    obtain ⟨script, hscript⟩ : ∃ script, createMultisigScript
        (m.whitelist.map (fun k => (k, 1))) m.minValidators = .ok script :=
      ⟨_, MultisigSpend.createMultisigScript_eq_ok.mpr
        ⟨hsum ▸ hsmall, hsum ▸ ensure_eq_ok.mp hle, rfl⟩⟩
    have haddress : createSubnetMultisigAddress X (.fromTxid txid)
        (m.whitelist.map (fun k => (k, 1))) m.minValidators = .ok (Address.p2tr
          (X.taprootOutputKey (.branch (.leaf script)
            (.leaf (createUnspendableSubnetIdScript (Txid20.fromTxid txid)))))) := by
      rw [createSubnetMultisigAddress, hscript, ok_bind, SubnetId.fromTxid,
        SubnetId.txid20_fromTxid20]
      rfl
    exact ⟨_, expectOk_eq_ok.mpr haddress⟩

/-- A reveal of the data of a valid message registers the subnet with the id of the reveal. The
monitor goes on unless the keys of the whitelist are too many to be counted. -/
theorem process_creation {bytes : List UInt8} {tx : Transaction} (hX : TransactionLaws X)
    (hE : WitnessCodecLaws X E) (hvalid : m.validate = .ok ())
    (hbytes : E.encodeCreateSubnet m = some bytes)
    (hreveals : RevealsData X (tagBytes ipcCreateSubnetTag ++ bytes) tx) (cfg : Config)
    (ctx : BlockContext) (db : HeedDb) :
    (processTransaction X cfg ctx tx db).commits =
      [db.saveSubnetGenesisInfo X (.fromTxid (X.computeTxid tx))
        (m.genesisInfo ctx.blockHeight (X.computeTxid tx))] ∧
    ((processTransaction X cfg ctx tx db).outcome = .ok () ↔ m.whitelist.length < powerBound) := by
  have hm := fromWitness_create (hE.create m bytes hbytes)
  rw [hreveals.processTransaction_eq hX hm (take_createTag_ne bytes),
    ← multisigAddress_genesisInfo (X := X) (ε := MonitorError) hvalid ctx.blockHeight
      (X.computeTxid tx)]
  unfold handleMsg Proc.handle
  cases haddress : ((m.genesisInfo ctx.blockHeight (X.computeTxid tx)).multisigAddress X :
    Outcome MonitorError Address) with
  | ok a =>
    have hhandled : processIpcMsg X cfg ctx tx (.createSubnet m) db =
        ⟨[db.saveSubnetGenesisInfo X (.fromTxid (X.computeTxid tx))
          (m.genesisInfo ctx.blockHeight (X.computeTxid tx))], .ok ()⟩ := by
      simp [processIpcMsg, processCreateSubnet, orMsgInvalid, hvalid,
        IpcCreateSubnetMsg.saveToDb, haddress]
    rw [hhandled]
    exact ⟨rfl, iff_of_true rfl ⟨a, rfl⟩⟩
  | error e =>
    obtain rfl : e = .panic := by
      unfold SubnetGenesisInfo.multisigAddress expectOk at haddress
      split at haddress
      · cases haddress
      · exact (Except.error.inj haddress).symm
    have hhandled : processIpcMsg X cfg ctx tx (.createSubnet m) db =
        ⟨[db.saveSubnetGenesisInfo X (.fromTxid (X.computeTxid tx))
          (m.genesisInfo ctx.blockHeight (X.computeTxid tx))], panicked⟩ := by
      simp [processIpcMsg, processCreateSubnet, orMsgInvalid, hvalid,
        IpcCreateSubnetMsg.saveToDb, haddress]
      rfl
    rw [hhandled]
    refine ⟨rfl, iff_of_false ?_ ?_⟩
    · intro hok
      cases hok
    · rintro ⟨a, ha⟩
      cases ha

/-- Whatever the monitor has stored when it sees them, it passes over the commit of an answered
creation, and its reveal registers the subnet under the answered id, with the message of the
request. It goes on unless the keys of the whitelist are too many to be counted. -/
theorem created_subnet_registered (hX : TransactionLaws X) (hweight : WeightLaws X)
    (hE : WitnessCodecLaws X E) (hw : WalletLaws w)
    (h : createSubnet X E w returnAddress m = .ok sent) (cfg : Config) (ctx : BlockContext)
    (db : HeedDb) :
    sent.reveal.input.map TxIn.previousOutput = [⟨X.computeTxid sent.commit, 0⟩] ∧
    processTransaction X cfg ctx sent.commit db = ⟨[], .ok ()⟩ ∧
    (processTransaction X cfg ctx sent.reveal db).commits = [db.saveSubnetGenesisInfo X sent.answer
      ⟨sent.answer, m, ctx.blockHeight, false, none, [], []⟩] ∧
    ((processTransaction X cfg ctx sent.reveal db).outcome = .ok () ↔
      m.whitelist.length < powerBound) := by
  obtain ⟨hvalid, bytes, hbytes, hid, hreveal⟩ := createSubnet_eq_ok hweight hw h
  refine ⟨by rw [hreveal.reveal_eq]; rfl, hreveal.commit_passed_over cfg ctx db, ?_⟩
  rw [hid]
  exact process_creation hX hE hvalid hbytes hreveal.revealsData cfg ctx db

end Create

section Single

open Solo

/-- The encoders of the messages that the library can read. -/
def soloCodec : WitnessCodec where
  encodeCreateSubnet := placeOf [createMsg 10000]
  encodeJoinSubnet m := placeOf [joinMsg] { m with collateral := 0 }

theorem witnessCodecLaws_solo : WitnessCodecLaws (library 10000 []) soloCodec where
  create _ _ h := atPlace_of_placeOf h
  join _ _ h := atPlace_of_placeOf h

/-- A subnet for one validator, created on an empty database. -/
theorem solo_subnet_registered : ∃ sent,
    createSubnet (library 10000 []) soloCodec onePaymentWallet backup (createMsg 10000) =
      .ok sent ∧
    (processTransaction (library 10000 []) ⟨none⟩ context sent.commit HeedDb.empty).commits = [] ∧
    (processTransaction (library 10000 []) ⟨none⟩ context sent.reveal HeedDb.empty).outcome =
      .ok () := by
  obtain ⟨sent, hsent⟩ := exists_ok_of_isSome (by decide +kernel :
    (createSubnet (library 10000 []) soloCodec onePaymentWallet backup
      (createMsg 10000)).toOption.isSome = true)
  obtain ⟨-, hcommit, -, hgoes⟩ := created_subnet_registered (transactionLaws_ideal _)
    (weightLaws_ideal _) witnessCodecLaws_solo walletLaws_onePayment hsent ⟨none⟩ context
    HeedDb.empty
  exact ⟨sent, hsent, congrArg Trace.commits hcommit, hgoes.mpr (by decide)⟩

end Single

end Provider
