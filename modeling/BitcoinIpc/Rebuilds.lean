import BitcoinIpc.IdealCrates
import BitcoinIpc.TokenChecks

/-!
# Rebuilding the database

A batch transfer is read from maps whose iteration order is not determined. The
order shows neither in the outcome of its checks nor in the tables it is saved
to: messages to different subnets stand in queues of their own, and the balances
depend on the sums of the transfers. So the blocks determine what the monitor
commits.
-/

namespace Monitor

open Faults Bytes Chain Messages Crates Multisig Db Grouping Commits OrderedTable
open IpcBatchTransferMsg TokenLedger

variable {X : Library}

/-- Two readings of one batch transfer: the maps of its transfers are listed in two
orders. -/
structure Reordered (X : Library) (db : HeedDb) (m m' : IpcBatchTransferMsg) : Prop where
  native : ∃ g g' : List (Txid20 × List (EthAddress × Amount)), g.Perm g' ∧
    (g.map Prod.fst).Nodup ∧ m.transfers = g.flatMap (nativeTransfers X db) ∧
    m'.transfers = g'.flatMap (nativeTransfers X db)
  erc : ∃ g g' : List (Txid20 × List IpcCrossSubnetErcTransferWire), g.Perm g' ∧
    (g.map Prod.fst).Nodup ∧ m.tokenTransfers = g.flatMap ercTransfers ∧
    m'.tokenTransfers = g'.flatMap ercTransfers
  rest : m' = { m with transfers := m'.transfers, tokenTransfers := m'.tokenTransfers }

theorem Reordered.transfers_perm {db : HeedDb} {m m' : IpcBatchTransferMsg}
    (h : Reordered X db m m') : m.transfers.Perm m'.transfers := by
  obtain ⟨g, g', hperm, -, hg, hg'⟩ := h.native
  rw [hg, hg']
  exact hperm.flatMap_right _

theorem Reordered.tokenTransfers_perm {db : HeedDb} {m m' : IpcBatchTransferMsg}
    (h : Reordered X db m m') : m.tokenTransfers.Perm m'.tokenTransfers := by
  obtain ⟨g, g', hperm, -, hg, hg'⟩ := h.erc
  rw [hg, hg']
  exact hperm.flatMap_right _

/-- A transaction is read as the same batch transfer, whatever the orders of its maps. -/
theorem agree_fromTx (native erc native' erc' : HashOrder Txid20) (db : HeedDb)
    (tx : Transaction) :
    Agree (Reordered X db) (fromTx X native erc db tx) (fromTx X native' erc' db tx) := by
  unfold fromTx
  refine (agree_refl _).bind ?_
  rintro _ _ rfl
  refine (agree_refl _).bind ?_
  rintro i _ rfl
  refine (agree_refl _).bind ?_
  rintro _ _ rfl
  refine (agree_refl _).bind ?_
  rintro item _ rfl
  refine (agree_refl _).bind ?_
  rintro data _ rfl
  refine (agree_refl _).bind ?_
  rintro wire _ rfl
  have hnative : ((latest native wire.transfers).flatMap (nativeTransfers X db)).Perm
      ((latest native' wire.transfers).flatMap (nativeTransfers X db)) :=
    (latest_perm native native' _).flatMap_right _
  have herc : ((latest erc wire.tokenTransfers).flatMap ercTransfers).Perm
      ((latest erc' wire.tokenTransfers).flatMap ercTransfers) :=
    (latest_perm erc erc' _).flatMap_right _
  refine (agree_ensure ?_ _ _).bind ?_
  · rw [eq_nil_iff_of_perm hnative, eq_nil_iff_of_perm herc]
  · rintro _ _ rfl
    exact .ok ⟨⟨_, _, latest_perm native native' _, keys_latest_nodup native _, rfl, rfl⟩,
      ⟨_, _, latest_perm erc erc' _, keys_latest_nodup erc _, rfl, rfl⟩, rfl⟩

section Queues

variable (laws : DisplayLaws X)
include laws

/-- Messages to two subnets stand in different queues. -/
theorem enqueue_comm {t u : Txid20} (h : t ≠ u) (f g : Nat → RootnetMessage) (db : HeedDb) :
    enqueue X (enqueue X db (.fromTxid20 t) f) (.fromTxid20 u) g =
      enqueue X (enqueue X db (.fromTxid20 u) g) (.fromTxid20 t) f := by
  have hnonce : ∀ {t u : Txid20}, t ≠ u → ∀ m : RootnetMessage,
      (db.addRootnetMsg X (.fromTxid20 u) m).getNextRootnetMsgNonce X (.fromTxid20 t) =
        db.getNextRootnetMsgNonce X (.fromTxid20 t) := by
    intro t u htu m
    rw [HeedDb.getNextRootnetMsgNonce_eq, HeedDb.getNextRootnetMsgNonce_eq,
      HeedDb.getAllRootnetMsgs_add_other db laws htu]
  unfold enqueue
  rw [hnonce h.symm, hnonce h]
  set a := f (db.getNextRootnetMsgNonce X (.fromTxid20 t))
  set b := g (db.getNextRootnetMsgNonce X (.fromTxid20 u))
  have hkey : rootnetMsgsKey X (.fromTxid20 t) a.nonce ≠ rootnetMsgsKey X (.fromTxid20 u) b.nonce :=
    fun heq => h (SubnetId.fromTxid20_injective (numberedKey_inj laws heq).1)
  simp only [HeedDb.addRootnetMsg, Table.put_comm db.rootnetMsgsDb hkey a b]

/-- The fund messages of the native transfers. -/
theorem natives_eq {m m' : IpcBatchTransferMsg} {committed : HeedDb}
    (h : Reordered X committed m m') (o : Origin) (db : HeedDb) :
    m.transfers.foldl (applyNative X o) db = m'.transfers.foldl (applyNative X o) db := by
  obtain ⟨g, g', hperm, hnodup, hg, hg'⟩ := h.native
  rw [hg, hg']
  refine foldl_flatMap_perm ?_ hperm hnodup db
  intro e e' hne a ha b hb db
  have hdestination : ∀ (e : Txid20 × List (EthAddress × Amount)),
      ∀ a ∈ nativeTransfers X committed e, a.destinationSubnetId = .fromTxid20 e.1 := by
    intro e a ha
    unfold nativeTransfers at ha
    split at ha
    · cases ha
    · obtain ⟨_, -, rfl⟩ := List.mem_map.mp ha
      rfl
  rw [applyNative, applyNative, applyNative, applyNative, hdestination e a ha,
    hdestination e' b hb]
  exact enqueue_comm laws hne _ _ db

/-- The message of a token transfer. -/
def tell (X : Library) (o : Origin) (db : HeedDb) (e : IpcCrossSubnetErcTransfer) : HeedDb :=
  enqueue X db e.destinationSubnetId fun nonce =>
    .ercTransfer e o.blockHeight o.blockHash nonce o.txid

theorem tells_eq {m m' : IpcBatchTransferMsg} {committed : HeedDb}
    (h : Reordered X committed m m') (o : Origin) (db : HeedDb) :
    m.tokenTransfers.foldl (tell X o) db = m'.tokenTransfers.foldl (tell X o) db := by
  obtain ⟨g, g', hperm, hnodup, hg, hg'⟩ := h.erc
  rw [hg, hg']
  refine foldl_flatMap_perm ?_ hperm hnodup db
  intro e e' hne a ha b hb db
  obtain ⟨_, -, rfl⟩ := List.mem_map.mp ha
  obtain ⟨_, -, rfl⟩ := List.mem_map.mp hb
  exact enqueue_comm laws hne _ _ db

end Queues

section Transfers

variable {o : Origin} {source : SubnetId} {db db' : HeedDb}

/-- The key is one of the two balances that a transfer writes. -/
def Touches (X : Library) (source : SubnetId) (k : Key) (e : IpcCrossSubnetErcTransfer) : Prop :=
  k = tokenBalanceKey X e.homeSubnetId e.homeTokenAddress source ∨
    k = tokenBalanceKey X e.homeSubnetId e.homeTokenAddress e.destinationSubnetId

/-- A positive transfer writes its two balances and its message. -/
theorem applyTransfer_writes {e : IpcCrossSubnetErcTransfer} (hpos : e.amount ≠ 0)
    (h : applyTransfer X o source db e = .ok db') :
    (∀ k, (db'.tokenBalancesDb.get k).isSome ↔
      (db.tokenBalancesDb.get k).isSome ∨ Touches X source k e) ∧
    (∀ k, ¬ Touches X source k e → db'.tokenBalancesDb.get k = db.tokenBalancesDb.get k) ∧
    db'.rootnetMsgsDb = (tell X o db e).rootnetMsgsDb := by
  simp only [applyTransfer, hpos, if_false] at h
  obtain ⟨left, -, h⟩ := bind_eq_ok.mp h
  obtain rfl := Except.ok.inj h
  refine ⟨?_, ?_, rfl⟩
  · intro k
    change (((db.tokenBalancesDb.put _ _).put _ _).get k).isSome ↔ _
    rw [Table.get_put, Table.get_put]
    split_ifs with hd hs
    · exact iff_of_true rfl (Or.inr (Or.inr hd))
    · exact iff_of_true rfl (Or.inr (Or.inl hs))
    · exact ⟨Or.inl, fun hor => hor.resolve_right (fun ht => ht.elim hs hd)⟩
  · intro k hk
    change ((db.tokenBalancesDb.put _ _).put _ _).get k = _
    rw [Table.get_put, Table.get_put, if_neg (fun hd => hk (Or.inr hd)),
      if_neg (fun hs => hk (Or.inl hs))]

/-- The queues after messages depend on the queues before. -/
theorem queues_tell_congr {d d' : HeedDb} (l : List IpcCrossSubnetErcTransfer)
    (h : d.rootnetMsgsDb = d'.rootnetMsgsDb) :
    (l.foldl (tell X o) d).rootnetMsgsDb = (l.foldl (tell X o) d').rootnetMsgsDb := by
  induction l generalizing d d' with
  | nil => exact h
  | cons e rest ih =>
    have hnonce : d.getNextRootnetMsgNonce X e.destinationSubnetId =
        d'.getNextRootnetMsgNonce X e.destinationSubnetId := by
      rw [HeedDb.getNextRootnetMsgNonce_eq, HeedDb.getNextRootnetMsgNonce_eq,
        HeedDb.getAllRootnetMsgs, HeedDb.getAllRootnetMsgs, h]
    apply ih
    rw [tell, tell, enqueue, enqueue, hnonce]
    exact congrArg (fun t : Table Key RootnetMessage => t.put _ _) h

/-- What positive transfers write, one after the other. -/
theorem applyTransfers_write {l : List IpcCrossSubnetErcTransfer} (hpos : ∀ e ∈ l, e.amount ≠ 0)
    (h : l.foldlM (applyTransfer X o source) db = .ok db') :
    (∀ k, (db'.tokenBalancesDb.get k).isSome ↔
      (db.tokenBalancesDb.get k).isSome ∨ ∃ e ∈ l, Touches X source k e) ∧
    (∀ k, (∀ e ∈ l, ¬ Touches X source k e) →
      db'.tokenBalancesDb.get k = db.tokenBalancesDb.get k) ∧
    db'.rootnetMsgsDb = (l.foldl (tell X o) db).rootnetMsgsDb := by
  induction l generalizing db with
  | nil =>
    rw [List.foldlM_nil] at h
    obtain rfl := Except.ok.inj h
    simp
  | cons e rest ih =>
    rw [List.foldlM_cons] at h
    obtain ⟨d, hd, h⟩ := bind_eq_ok.mp h
    obtain ⟨hsome, hsame, hqueue⟩ := applyTransfer_writes (hpos e List.mem_cons_self) hd
    obtain ⟨hsome', hsame', hqueue'⟩ := ih (fun e he => hpos e (List.mem_cons_of_mem _ he)) h
    refine ⟨?_, ?_, hqueue'.trans (queues_tell_congr rest hqueue)⟩
    · intro k
      rw [hsome' k, hsome k, or_assoc, List.exists_mem_cons_iff]
    · intro k hk
      obtain ⟨he, hrest⟩ := List.forall_mem_cons.mp hk
      rw [hsame' k hrest, hsame k he]

theorem sameButRecords_transfers {l : List IpcCrossSubnetErcTransfer}
    (h : l.foldlM (applyTransfer X o source) db = .ok db') : SameButRecords db db' :=
  foldlM_rel SameButRecords.refl (fun _ _ _ => SameButRecords.trans)
    (fun _ _ _ hd => sameButRecords_applyTransfer hd) h

/-- Transfers that the source can pay lead to the same balances in every order. -/
theorem balances_transferred_perm (laws : DisplayLaws X) {l l' : List IpcCrossSubnetErcTransfer}
    {d d' : HeedDb} (hperm : l.Perm l') (hpos : ∀ e ∈ l, e.amount ≠ 0)
    (h : l.foldlM (applyTransfer X o source) db = .ok d)
    (h' : l'.foldlM (applyTransfer X o source) db = .ok d') :
    d.tokenBalancesDb = d'.tokenBalancesDb := by
  have hpos' : ∀ e ∈ l', e.amount ≠ 0 := fun e he => hpos e (hperm.mem_iff.mpr he)
  obtain ⟨hsome, hsame, -⟩ := applyTransfers_write hpos h
  obtain ⟨hsome', hsame', -⟩ := applyTransfers_write hpos' h'
  have hbalance : ∀ home token holder,
      d.getTokenBalance X home token holder = d'.getTokenBalance X home token holder := by
    intro home token holder
    obtain ⟨hother, hsource⟩ := balance_foldlM_applyTransfer laws h home token holder
    obtain ⟨hother', hsource'⟩ := balance_foldlM_applyTransfer laws h' home token holder
    rw [sent_perm hperm, received_perm hperm] at hsource
    rw [received_perm hperm] at hother
    apply Fin.ext
    change balance X d home token holder = balance X d' home token holder
    by_cases hs : holder = source
    · have h₁ := hsource hs
      have h₂ := hsource' hs
      omega
    · rw [hother hs, hother' hs]
  apply Table.ext_get
  intro k
  by_cases htouched : ∃ e ∈ l, Touches X source k e
  · obtain ⟨e, he, hk⟩ := htouched
    obtain ⟨v, hv⟩ := Option.isSome_iff_exists.mp ((hsome k).mpr (Or.inr ⟨e, he, hk⟩))
    obtain ⟨v', hv'⟩ := Option.isSome_iff_exists.mp
      ((hsome' k).mpr (Or.inr ⟨e, hperm.mem_iff.mp he, hk⟩))
    have hread : ∃ home token holder, k = tokenBalanceKey X home token holder := by
      rcases hk with hk | hk
      · exact ⟨_, _, _, hk⟩
      · exact ⟨_, _, _, hk⟩
    obtain ⟨home, token, holder, rfl⟩ := hread
    have heq := hbalance home token holder
    rw [HeedDb.getTokenBalance, HeedDb.getTokenBalance, hv, hv'] at heq
    rw [hv, hv']
    exact congrArg some heq
  · have hnone : ∀ e ∈ l, ¬ Touches X source k e := fun e he hk => htouched ⟨e, he, hk⟩
    rw [hsame k hnone, hsame' k (fun e he => hnone e (hperm.mem_iff.mpr he))]

end Transfers

section Batches

variable (laws : DisplayLaws X) {db : HeedDb} {m m' : IpcBatchTransferMsg}
include laws

/-- Records that pass the checks are applied, to the same database in both orders. -/
theorem exists_applied (h : Reordered X db m m') (o : Origin) (d : HeedDb)
    (hsame : d.tokenBalancesDb = db.tokenBalancesDb)
    (hvalid : validateErcBatchData X m.subnetId m.tokenRegistrations m.tokenSupplyAdjustments
      m.tokenTransfers db = .ok ()) :
    ∃ saved, m.applyRecords X o db d = .ok saved ∧ m'.applyRecords X o db d = .ok saved := by
  have hfunded : (m.transfers.foldl (applyNative X o) d).tokenBalancesDb = db.tokenBalancesDb :=
    (tokenBalances_natives m.transfers).trans hsame
  obtain ⟨d₁, hd₁, hpos, hpayable⟩ := exists_payable laws (o := o) db.getAllSubnets hfunded hvalid
  have hperm := h.tokenTransfers_perm
  obtain ⟨saved, hsaved⟩ := exists_transferred laws (o := o) hpayable
  obtain ⟨saved', hsaved'⟩ : ∃ d', m'.tokenTransfers.foldlM
      (applyTransfer X o m.subnetId) d₁ = .ok d' := by
    refine exists_transferred laws ?_
    intro home token
    rw [← sent_perm hperm]
    exact hpayable home token
  have hpos' : ∀ e ∈ m'.tokenTransfers, e.amount ≠ 0 := fun e he => hpos e (hperm.mem_iff.mpr he)
  have hqueues : saved.rootnetMsgsDb = saved'.rootnetMsgsDb := by
    rw [(applyTransfers_write hpos hsaved).2.2, (applyTransfers_write hpos' hsaved').2.2,
      tells_eq laws h]
  have heq : saved = saved' := by
    have hbalances := balances_transferred_perm laws hperm hpos hsaved hsaved'
    obtain ⟨_, _, rfl⟩ := sameButRecords_transfers hsaved
    obtain ⟨_, _, rfl⟩ := sameButRecords_transfers hsaved'
    simp only at hqueues hbalances
    rw [hqueues, hbalances]
  refine ⟨saved, bind_eq_ok.mpr ⟨d₁, hd₁, hsaved⟩, ?_⟩
  rw [heq, h.rest]
  refine bind_eq_ok.mpr ⟨d₁, ?_, hsaved'⟩
  rw [← natives_eq laws h]
  exact hd₁

omit laws in
theorem calm_validateErcBatchData (source : SubnetId)
    (registrations : List IpcErcTokenRegistration) (adjustments : List IpcErcSupplyAdjustment)
    (l : List IpcCrossSubnetErcTransfer) (db : HeedDb) :
    Calm (validateErcBatchData X source registrations adjustments l db) := by
  have hburn : ∀ b a, Calm (checkBurn X db source b a) := by
    intro b a
    unfold checkBurn
    split_ifs
    · exact (calm_okOr _ _).bind (fun _ _ => calm_ok _)
    · exact calm_ok b
  refine (calm_foldlM ?_ _ _).bind (fun _ _ => ?_)
  · exact fun b r => (calm_ensure _).bind (fun _ _ => (calm_ensure _).bind (fun _ _ => calm_ok _))
  · refine (calm_foldlM hburn _ _).bind (fun _ _ => (calm_foldlM ?_ _ _).bind (fun _ _ => calm_ok _))
    exact fun b e => (calm_ensure _).bind (fun _ _ => (calm_okOr _ _).bind (fun _ _ => calm_ok _))

/-- A batch transfer is saved to the same database in both orders, or rejected in both. -/
theorem agree_saveToDb (h : Reordered X db m m') (o : Origin) :
    Agree Eq (m.saveToDb X db o) (m'.saveToDb X db o) := by
  have hperm := h.tokenTransfers_perm
  have hsubnet : m'.subnetId = m.subnetId := by
    rw [h.rest]
  have hregistrations : m'.tokenRegistrations = m.tokenRegistrations := by
    rw [h.rest]
  have hadjustments : m'.tokenSupplyAdjustments = m.tokenSupplyAdjustments := by
    rw [h.rest]
  have hiff : validateErcBatchData X m.subnetId m.tokenRegistrations m.tokenSupplyAdjustments
      m.tokenTransfers db = .ok () ↔ validateErcBatchData X m.subnetId m.tokenRegistrations
        m.tokenSupplyAdjustments m'.tokenTransfers db = .ok () :=
    ⟨validateErcBatchData_perm laws hperm, validateErcBatchData_perm laws hperm.symm⟩
  unfold saveToDb
  rw [hsubnet, hregistrations, hadjustments]
  refine (agree_refl _).bind ?_
  rintro s _ rfl
  refine (agree_refl _).bind ?_
  rintro number _ rfl
  refine (agree_refl _).bind ?_
  rintro checkpoint _ rfl
  have hagree := agree_of_ok_iff (calm_validateErcBatchData _ _ _ _ _)
    (calm_validateErcBatchData _ _ _ _ _) hiff
  refine hagree.mapErr.bind_of_ok ?_
  rintro _ _ hvalid rfl
  obtain ⟨saved, hsaved, hsaved'⟩ := exists_applied laws h o
    (db.saveCheckpoint X m.subnetId { checkpoint with
      batchTransferTxid := some o.txid, batchTransferBlockHeight := some o.blockHeight }
      (number + 1)) rfl (mapErr_eq_ok.mp hvalid)
  dsimp only
  rw [hsaved, hsaved']
  exact .ok rfl

omit laws in
theorem agree_forEach_perm {ε α : Type} {l l' : List α} {check : α → Outcome ε Unit}
    (hcalm : ∀ a, Calm (check a)) (hperm : l.Perm l') :
    Agree Eq (forEach l check) (forEach l' check) := by
  have hall : ∀ l, Calm (forEach l check) := by
    intro l
    induction l with
    | nil => exact calm_ok ()
    | cons a rest ih => exact (hcalm a).bind (fun _ _ => ih)
  refine agree_of_ok_iff (hall l) (hall l') ?_
  rw [forEach_eq_ok, forEach_eq_ok]
  exact forall_congr' fun a => by rw [hperm.mem_iff]

omit laws in
/-- The checks of the fields do not show the orders. -/
theorem agree_validate (h : Reordered X db m m') :
    Agree Eq m.validate m'.validate := by
  have hnative := h.transfers_perm
  have herc := h.tokenTransfers_perm
  have hregistrations : m'.tokenRegistrations = m.tokenRegistrations := by
    rw [h.rest]
  have hadjustments : m'.tokenSupplyAdjustments = m.tokenSupplyAdjustments := by
    rw [h.rest]
  have htxid : m'.checkpointTxid = m.checkpointTxid := by
    rw [h.rest]
  unfold IpcBatchTransferMsg.validate
  rw [hregistrations, hadjustments, htxid]
  refine (agree_refl _).bind (fun _ _ _ => ?_)
  refine (agree_ensure ?_ _ _).bind (fun _ _ _ => ?_)
  · rw [eq_nil_iff_of_perm hnative, eq_nil_iff_of_perm herc]
  refine (agree_forEach_perm ?_ hnative).bind (fun _ _ _ => ?_)
  · exact fun t => (calm_ensure _).bind (fun _ _ => calm_ensure _)
  refine (agree_refl _).bind (fun _ _ _ => ?_)
  refine agree_forEach_perm ?_ herc
  exact fun e => (calm_ensure _).bind (fun _ _ => (calm_ensure _).bind (fun _ _ => calm_ensure _))

omit laws in
/-- The checks against the checkpoint see the number of transfers, not their order. -/
theorem agree_checkBatch (h : Reordered X db m m') :
    Agree (Reordered X db) (checkBatch X db m) (checkBatch X db m') := by
  have htxid : m'.checkpointTxid = m.checkpointTxid := by
    rw [h.rest]
  have hlinks : ∀ tx, m'.validateForCheckpoint X tx = m.validateForCheckpoint X tx := by
    intro tx
    rw [h.rest]
    unfold validateForCheckpoint
    dsimp only
    rw [h.transfers_perm.length_eq]
  unfold checkBatch
  simp only [htxid, hlinks]
  refine (agree_validate h).mapErr.bind (fun _ _ _ => ?_)
  refine (agree_refl _).bind ?_
  rintro tx _ rfl
  refine (agree_refl _).bind ?_
  rintro checkpoint _ rfl
  refine (agree_refl _).bind (fun _ _ _ => ?_)
  refine (agree_refl _).bind (fun _ _ _ => ?_)
  exact .ok ⟨h.native, h.erc, by rw [h.rest]⟩

end Batches

section Handlers

/-- A batch transfer is rejected with an error that the monitor ignores. -/
theorem raises_saveToDb (m : IpcBatchTransferMsg) (db : HeedDb) (o : Origin) :
    Raises (fun e => ∃ v, e = .ipcValidateError v) (m.saveToDb X db o) := by
  have hburn : ∀ d a, Raises (fun e => ∃ v, e = .ipcValidateError v)
      (applyBurn X m.subnetId d a) :=
    fun d a => (raises_okOr _ ⟨_, rfl⟩).bind (fun _ => raises_ok _)
  have htransfer : ∀ d e, Raises (fun e => ∃ v, e = .ipcValidateError v)
      (applyTransfer X o m.subnetId d e) := by
    intro d e
    unfold applyTransfer
    split_ifs
    · exact raises_ok d
    · exact (raises_okOr _ ⟨_, rfl⟩).bind (fun _ => raises_ok _)
  refine (raises_okOr _ ⟨_, rfl⟩).bind (fun s => ?_)
  refine (raises_okOr _ ⟨_, rfl⟩).bind (fun number => ?_)
  refine (raises_okOr _ ⟨_, rfl⟩).bind (fun checkpoint => ?_)
  refine (raises_mapErr (fun e _ => ⟨e, rfl⟩)).bind (fun _ => ?_)
  refine Raises.bind ?_ (fun _ => raises_ok _)
  exact (raises_foldlM hburn _ _).bind (fun d => raises_foldlM htransfer _ _)

/-- The checks and the handler of a batch transfer. -/
def saveBatch (X : Library) (ctx : BlockContext) (tx : Transaction) (db : HeedDb)
    (m : IpcBatchTransferMsg) : Outcome MonitorError (HeedDb × SubnetCheckpoint) := do
  let m ← checkBatch X db m
  orProcessing (m.saveToDb X db ⟨ctx.blockHeight, ctx.blockHash, X.computeTxid tx⟩)

variable {ctx : BlockContext} {tx : Transaction} {db : HeedDb}

theorem processBatchTransfer_apply (m : IpcBatchTransferMsg) :
    processBatchTransfer X ctx tx m db =
      match saveBatch X ctx tx db m with
      | .ok saved => ⟨[saved.1], .ok ()⟩
      | .error e => ⟨[], .error e⟩ := by
  unfold processBatchTransfer saveBatch
  rw [Proc.read_bind]
  cases checkBatch X db m with
  | error e => rfl
  | ok m =>
    rw [Proc.lift_ok_bind, ok_bind]
    cases orProcessing (m.saveToDb X db ⟨ctx.blockHeight, ctx.blockHash, X.computeTxid tx⟩) with
    | error e => rfl
    | ok saved => rfl

theorem raises_saveBatch (ctx : BlockContext) (tx : Transaction) (db : HeedDb)
    (m : IpcBatchTransferMsg) :
    Raises (fun e => handleIpcMsgError e = .ok ()) (saveBatch X ctx tx db m) := by
  have hinvalid : ∀ {α : Type} (x : Outcome IpcValidateError α),
      Raises (fun e => handleIpcMsgError e = .ok ()) (orMsgInvalid x) :=
    fun x => raises_mapErr (fun _ _ => rfl)
  refine Raises.bind ?_ (fun m => ?_)
  · refine (hinvalid _).bind (fun _ => ?_)
    refine Raises.bind (raises_okOr _ rfl) (fun checkpointTx => ?_)
    refine Raises.bind (raises_mapErr (fun _ _ => rfl)) (fun checkpoint => ?_)
    refine (hinvalid _).bind (fun _ => ?_)
    exact (hinvalid _).bind (fun _ => raises_ok _)
  · refine raises_mapErr (fun e he => ?_)
    obtain ⟨v, rfl⟩ := raises_saveToDb m db _ e he
    rfl

/-- The monitor does the same with two readings of a batch transfer. -/
theorem handleMsg_reordered (laws : DisplayLaws X) (cfg : Config) {m m' : IpcBatchTransferMsg}
    (h : Reordered X db m m') :
    handleMsg X cfg ctx tx (.batchTransfer m) db =
      handleMsg X cfg ctx tx (.batchTransfer m') db := by
  have hagree : Agree Eq (saveBatch X ctx tx db m) (saveBatch X ctx tx db m') := by
    refine (agree_checkBatch h).bind (fun a b hab => ?_)
    exact (agree_saveToDb laws hab _).mapErr
  have hignored := raises_saveBatch (X := X) ctx tx db m
  have hignored' := raises_saveBatch (X := X) ctx tx db m'
  simp only [handleMsg, Proc.handle, processIpcMsg, processBatchTransfer_apply]
  generalize saveBatch X ctx tx db m = x at *
  generalize saveBatch X ctx tx db m' = y at *
  cases hagree with
  | ok heq => rw [heq]
  | @error e e' =>
    dsimp only
    rw [hignored e rfl, hignored' e' rfl]
  | panic => rfl

variable {ctx' : BlockContext}

/-- Without a reward tracker a handler reads the height and the hash of its block. -/
theorem handleMsg_congr (hheight : ctx.blockHeight = ctx'.blockHeight)
    (hhash : ctx.blockHash = ctx'.blockHash) (m : IpcMessage) :
    handleMsg X ⟨none⟩ ctx tx m = handleMsg X ⟨none⟩ ctx' tx m := by
  unfold handleMsg
  cases m with
  | createSubnet m => simp only [processIpcMsg, processCreateSubnet, hheight]
  | joinSubnet m => simp only [processIpcMsg, processJoinSubnet, hheight, hhash]
  | prefundSubnet m => simp only [processIpcMsg, processPrefundSubnet, hheight]
  | fundSubnet m => simp only [processIpcMsg, processFundSubnet, hheight, hhash]
  | checkpointSubnet m =>
    simp only [processIpcMsg, processCheckpointSubnet, rewardCheckpoint, hheight, hhash]
  | batchTransfer m => simp only [processIpcMsg, processBatchTransfer, hheight, hhash]
  | stakeCollateral m => simp only [processIpcMsg, processStakeCollateral, hheight, hhash]
  | unstakeCollateral m => simp only [processIpcMsg, processUnstakeCollateral, hheight, hhash]
  | killSubnet m => simp only [processIpcMsg, processKillSubnet, hheight, hhash]

/-- The first message read by one of two lists of parsers that agree. -/
theorem firstParsed_agree {R : IpcMessage → IpcMessage → Prop}
    {l l' : List (Outcome IpcLibError IpcMessage)} (h : List.Forall₂ (Agree R) l l') :
    (firstParsed l : Outcome MonitorError _) = firstParsed l' ∨
      ∃ m m', (firstParsed l : Outcome MonitorError _) = .ok (some m) ∧
        (firstParsed l' : Outcome MonitorError _) = .ok (some m') ∧ R m m' := by
  induction h with
  | nil => exact Or.inl rfl
  | cons hd _ ih =>
    cases hd with
    | ok hab => exact Or.inr ⟨_, _, rfl, rfl, hab⟩
    | error => exact ih
    | panic => exact Or.inl rfl

/-- One message, or one batch transfer read in two orders. -/
def SameReading (X : Library) (db : HeedDb) (m m' : IpcMessage) : Prop :=
  m = m' ∨ ∃ b b', m = .batchTransfer b ∧ m' = .batchTransfer b' ∧ Reordered X db b b'

theorem agree_outputParsers (ctx ctx' : BlockContext) (db : HeedDb) (tx : Transaction) :
    List.Forall₂ (Agree (SameReading X db)) (outputParsers X ctx db tx)
      (outputParsers X ctx' db tx) := by
  have hsame : ∀ x : Outcome IpcLibError IpcMessage, Agree (SameReading X db) x x := by
    intro x
    cases agree_refl x with
    | ok h => exact .ok (Or.inl h)
    | error => exact .error
    | panic => exact .panic
  have hmap : ∀ {x y : Outcome IpcLibError IpcBatchTransferMsg}, Agree (Reordered X db) x y →
      Agree (SameReading X db) (.batchTransfer <$> x) (.batchTransfer <$> y) := by
    intro x y h
    cases h with
    | ok h => exact .ok (Or.inr ⟨_, _, rfl, rfl, h⟩)
    | error => exact .error
    | panic => exact .panic
  have hbatch := hmap (agree_fromTx ctx.native ctx.erc ctx'.native ctx'.erc db tx)
  exact .cons (hsame _) (.cons (hsame _) (.cons (hsame _) (.cons hbatch
    (.cons (hsame _) (.cons (hsame _) (.cons (hsame _) .nil))))))

/-- A transaction is processed alike, whatever the orders of the maps built from it. -/
theorem processTransaction_congr (laws : DisplayLaws X)
    (hheight : ctx.blockHeight = ctx'.blockHeight) (hhash : ctx.blockHash = ctx'.blockHash)
    (tx : Transaction) :
    processTransaction X ⟨none⟩ ctx tx = processTransaction X ⟨none⟩ ctx' tx := by
  have hhandle : handleMsg X ⟨none⟩ ctx tx = handleMsg X ⟨none⟩ ctx' tx :=
    funext (handleMsg_congr hheight hhash)
  have houtputs : processOutputs X ⟨none⟩ ctx tx = processOutputs X ⟨none⟩ ctx' tx := by
    funext db
    unfold processOutputs
    rw [Proc.read_bind, Proc.read_bind]
    obtain heq | ⟨m, m', hm, hm', hread⟩ := firstParsed_agree (agree_outputParsers ctx ctx' db tx)
    · rw [heq, hhandle]
    · rw [hm, hm', Proc.lift_ok_bind, Proc.lift_ok_bind]
      rcases hread with rfl | ⟨b, b', rfl, rfl, hbatch⟩
      · exact congrFun (congrFun hhandle m) db
      · exact (handleMsg_reordered laws ⟨none⟩ hbatch).trans (congrFun (congrFun hhandle _) db)
  unfold processTransaction
  rw [hhandle, houtputs]

end Handlers

/-- The iteration orders of the two maps of a batch transfer, and of the map of the
rewards. -/
structure MapChoices where
  native : HashOrder Txid20
  erc : HashOrder Txid20
  rewards : HashOrder XOnlyPublicKey

/-- A block as one run meets it: the maps built from each of its transactions take an
order of their own. -/
structure MetBlock where
  blockHeight : Nat
  blockHash : BlockHash
  txs : List (Transaction × MapChoices)
  rewards : HashOrder XOnlyPublicKey

/-- What the block itself holds. -/
def MetBlock.block (b : MetBlock) : Nat × BlockHash × List Transaction :=
  (b.blockHeight, b.blockHash, b.txs.map Prod.fst)

def MetBlock.context (b : MetBlock) (c : MapChoices) : BlockContext :=
  ⟨b.blockHeight, b.blockHash, c.native, c.erc, c.rewards⟩

/-- One turn of the synchronisation loop, with an order for each transaction. -/
def syncMet (X : Library) (cfg : Config) (b : MetBlock) : MonitorProc Unit := do
  Proc.each (fun t => processTransaction X cfg (b.context t.2) t.1) b.txs
  let db ← Proc.read
  Proc.commit (db.setLastProcessedBlock b.blockHeight)
  rewardBlock X cfg ⟨b.blockHeight, b.blockHash, .listed _, .listed _, b.rewards⟩

/-- The database after a run over the blocks on an empty database. -/
def rebuilt (X : Library) (cfg : Config) (blocks : List MetBlock) : HeedDb :=
  (Proc.each (syncMet X cfg) blocks HeedDb.empty).store HeedDb.empty

/-- A block whose transactions all take the orders of its context. -/
def MetBlock.uniform (b : BlockContext × List Transaction) : MetBlock :=
  ⟨b.1.blockHeight, b.1.blockHash, b.2.map (fun tx => (tx, ⟨b.1.native, b.1.erc, b.1.rewards⟩)),
    b.1.rewards⟩

theorem each_map {S ε α β : Type} (f : α → Proc S ε Unit) (g : β → α) (l : List β) :
    Proc.each f (l.map g) = Proc.each (fun b => f (g b)) l := by
  induction l with
  | nil => rfl
  | cons b rest ih =>
    rw [List.map_cons, Proc.each_cons, Proc.each_cons, ih]

/-- The synchronisation loop is a run with uniform orders. -/
theorem sync_eq_each_syncMet (cfg : Config) (blocks : List (BlockContext × List Transaction)) :
    sync X cfg blocks = Proc.each (syncMet X cfg) (blocks.map MetBlock.uniform) := by
  rw [each_map]
  have hblock : ∀ b : BlockContext × List Transaction,
      syncBlock X cfg b.1 b.2 = syncMet X cfg (.uniform b) := by
    rintro ⟨ctx, txs⟩
    unfold syncBlock syncMet processBlockData
    rw [MetBlock.uniform, each_map]
    rfl
  simp only [sync, hblock]

/-- Runs of two programs on elements that they do not tell apart. -/
theorem each_congr {S ε α β : Type} {f g : α → Proc S ε Unit} {key : α → β}
    (h : ∀ a b, key a = key b → f a = g b) {l l' : List α} (heq : l.map key = l'.map key) :
    Proc.each f l = Proc.each g l' := by
  induction l generalizing l' with
  | nil =>
    obtain rfl := List.map_eq_nil_iff.mp heq.symm
    rfl
  | cons a rest ih =>
    obtain ⟨b, rest', rfl, hb, hrest⟩ := List.map_eq_cons_iff.mp heq.symm
    rw [Proc.each_cons, Proc.each_cons, h a b hb.symm, ih hrest.symm]

/-- Without a reward tracker two turns over one block do the same. -/
theorem syncMet_congr (laws : DisplayLaws X) (b b' : MetBlock) (h : b.block = b'.block) :
    syncMet X ⟨none⟩ b = syncMet X ⟨none⟩ b' := by
  obtain ⟨hheight, hrest⟩ := Prod.mk.inj h
  obtain ⟨hhash, htxs⟩ := Prod.mk.inj hrest
  have heach : Proc.each (fun t => processTransaction X ⟨none⟩ (b.context t.2) t.1) b.txs =
      Proc.each (fun t => processTransaction X ⟨none⟩ (b'.context t.2) t.1) b'.txs := by
    refine each_congr ?_ htxs
    rintro ⟨tx, c⟩ ⟨tx', c'⟩ heq
    obtain rfl : tx = tx' := heq
    exact processTransaction_congr laws hheight hhash tx
  unfold syncMet
  rw [heach, hheight]
  rfl

/-- The blocks determine the database. Two runs without a reward tracker over the
same blocks on an empty database end with the same tables, whatever the orders that
the maps of each transaction take in the two runs. -/
theorem rebuilt_deterministic (laws : DisplayLaws X) {blocks blocks' : List MetBlock}
    (h : blocks.map MetBlock.block = blocks'.map MetBlock.block) :
    rebuilt X ⟨none⟩ blocks = rebuilt X ⟨none⟩ blocks' := by
  unfold rebuilt
  rw [each_congr (syncMet_congr laws) h]

open Solo

/-- The data of a batch that registers a token, pays users of two other subnets and sends the
token to both. -/
def tokensToTwo : BatchTransferWireData :=
  ⟨[20, 22].map (fun s => (otherSubnet s, [(user, 5000)])), [⟨user, ['T'], ['T'], 18, 100⟩], [],
    [20, 22].map (fun s => (otherSubnet s, [⟨.fromTxid20 subnet, user, 5, user⟩]))⟩

def tokensLibrary : Library :=
  ideal { creates := [createMsg 10000], joins := [joinMsg, otherJoinMsg 20, otherJoinMsg 22]
          batches := [tokensToTwo] }

/-- A checkpoint with a commit output and a transfer to either subnet. -/
def transferringTx : Transaction :=
  let msg := { checkpointMsg 0 with transfers := [20, 22].map (fun s => transferTo (otherSubnet s)) }
  spending (bytes32 14) 0 [] (⟨330, makeOpReturnScript (msg.metadata subnet)⟩ ::
    ⟨1000, (Address.p2tr (bytes32 6)).scriptPubkey⟩ ::
      [20, 22].map (fun s => ⟨5000, (addressOf (otherSubnet s) 10).scriptPubkey⟩))

/-- Three subnets start, and the first one checkpoints. -/
def transferringTxs : List Transaction :=
  twinTxs ++ [otherCreateTx 22, otherJoinTx 23 2, transferringTx]

/-- The reveal of the batch, which spends the commit output of the checkpoint. -/
def tokensTx : Transaction :=
  spending (tokensLibrary.computeTxid transferringTx) 1 (carrying ipcTransferTag)
    [⟨330, backup.scriptPubkey⟩]

/-- A block with the checkpoint and the reveal, in a run that lists the maps in the given order. -/
def tokensBlock (σ : HashOrder Txid20) : MetBlock :=
  ⟨1, bytes32 5, (transferringTxs ++ [tokensTx]).map (fun tx => (tx, ⟨σ, σ, .listed _⟩)), .listed _⟩

/-- The batch as such a run reads it. -/
def tokensMsg (σ : HashOrder Txid20) : Option IpcBatchTransferMsg :=
  (fromTx tokensLibrary σ σ ((run tokensLibrary transferringTxs).store HeedDb.empty) tokensTx).toOption

/-- The two orders give two messages; either is accepted and written into the queues and the
balances of both subnets, and the database is the same. -/
theorem rebuilt_deterministic_of_two_orders :
    tokensMsg (.listed _) ≠ tokensMsg (.reversed _) ∧
      (∀ σ ∈ [HashOrder.listed _, HashOrder.reversed _], ∀ s ∈ [20, 22],
        ((rebuilt tokensLibrary ⟨none⟩ [tokensBlock σ]).getAllRootnetMsgs tokensLibrary
            (.fromTxid20 (otherSubnet s))).length = 3 ∧
          (rebuilt tokensLibrary ⟨none⟩ [tokensBlock σ]).getTokenBalance tokensLibrary
            (.fromTxid20 subnet) user (.fromTxid20 (otherSubnet s)) = 5) ∧
      rebuilt tokensLibrary ⟨none⟩ [tokensBlock (.listed _)] =
        rebuilt tokensLibrary ⟨none⟩ [tokensBlock (.reversed _)] := by
  have hlaws : DisplayLaws tokensLibrary := displayLaws_ideal _
  refine ⟨of_decide_eq_true (by decide +kernel), of_decide_eq_true (by decide +kernel), ?_⟩
  exact rebuilt_deterministic hlaws rfl

end Monitor
