import BitcoinIpc.IdealCrates
import BitcoinIpc.Effects
import Mathlib.Algebra.Order.BigOperators.Group.List

/-!
# Credit and the outputs behind it

Three messages turn the value of outputs into credit: a fund message, the native
transfers of a batch, and a join. The parsers read amounts and do not look at
the scripts behind them. Where the transaction meets the missing checks, the
credit of each message is locked by outputs.
-/

namespace Monitor

open Faults Bytes Chain Messages Crates Multisig Db Grouping Commits

variable (X : Library)

def paidTo (scripts : List Script) (outs : List TxOut) : Amount :=
  ((outs.filter (fun o => o.scriptPubkey ∈ scripts)).map (·.value)).sum

/-- The script of the current committee of a subnet. -/
def committeeScript (db : HeedDb) (s : SubnetId) : Option Script :=
  (db.getSubnetState X s).map (·.committee.multisigAddress.scriptPubkey)

/-- The scripts of a subnet that a join may pay: the one of its whitelist and the one
of its committee. -/
def joinScripts (db : HeedDb) (s : SubnetId) : List Script :=
  ((db.getSubnetGenesisInfo X s).bind fun g =>
    ((g.multisigAddress X : Outcome IpcLibError Address).toOption.map (·.scriptPubkey))).toList ++
    (committeeScript X db s).toList

/-- What the native transfers of a batch credit to a subnet. -/
def creditTo (s : SubnetId) (transfers : List IpcCrossSubnetTransfer) : Amount :=
  ((transfers.filter (fun t => t.destinationSubnetId = s)).map (·.amount)).sum

/-- The collateral of a join of the subnet. -/
def collateralOf (s : SubnetId) : IpcMessage → Option Amount
  | .joinSubnet m => if m.subnetId = s then some m.collateral else none
  | _ => none

/-- The collaterals that the joins of a trail recorded for a subnet. -/
def joinedCollateral (s : SubnetId) (l : List (Event × HeedDb)) : Amount :=
  ((messages l).filterMap (fun a => collateralOf s a.2.2)).sum

/-- Output 1 pays the amount to the committee. -/
def FundBacked (tx : Transaction) (db : HeedDb) (m : IpcFundSubnetMsg) : Prop :=
  ∃ script, committeeScript X db m.subnetId = some script ∧
    tx.output[1]? = some ⟨m.amount, script⟩

/-- The checkpoint transaction pays every destination at least what is credited to it. -/
def BatchBacked (db : HeedDb) (m : IpcBatchTransferMsg) : Prop :=
  ∃ c, db.getTransaction m.checkpointTxid = some c ∧ ∀ t ∈ m.transfers,
    ∃ script, committeeScript X db t.destinationSubnetId = some script ∧
      creditTo t.destinationSubnetId m.transfers ≤ paidTo [script] c.output

/-- The transaction pays the subnet at least what all of its joins record. -/
def JoinBacked (tx : Transaction) (l : List (Event × HeedDb)) (db : HeedDb)
    (m : IpcJoinSubnetMsg) : Prop :=
  joinedCollateral m.subnetId l ≤ paidTo (joinScripts X db m.subnetId) tx.output

/-- Every credit of the trail of a transaction is locked by outputs. -/
def Backed (tx : Transaction) (db : HeedDb) (l : List (Event × HeedDb)) : Prop :=
  AllSteps (fun before e _ =>
    match e with
    | .message _ _ (.fundSubnet m) => FundBacked X tx before m
    | .message _ _ (.batchTransfer m) => BatchBacked X before m
    | .message _ _ (.joinSubnet m) => JoinBacked X tx l before m
    | _ => True) db l

/-- Output 1 of a fund message has the script of the committee. -/
def FundLocked (tx : Transaction) (db : HeedDb) : Prop :=
  ∀ m script, IpcFundSubnetMsg.fromTx tx = .ok m → committeeScript X db m.subnetId = some script →
    tx.output[1]?.map (·.scriptPubkey) = some script

/-- The transfers of a batch have an exact output in the checkpoint transaction. -/
def BatchLocked (ctx : BlockContext) (tx : Transaction) (db : HeedDb) : Prop :=
  ∀ m c, IpcBatchTransferMsg.fromTx X ctx.native ctx.erc db tx = .ok m →
    db.getTransaction m.checkpointTxid = some c → ∀ t ∈ m.transfers, ∀ script,
      committeeScript X db t.destinationSubnetId = some script →
        ⟨creditTo t.destinationSubnetId m.transfers, script⟩ ∈ c.output

/-- The first output of a join has a script of the subnet. -/
def JoinLocked (tx : Transaction) (db : HeedDb) : Prop :=
  ∀ m out, .joinSubnet m ∈ witnessMessages X tx → tx.output.head? = some out →
    out.scriptPubkey ∈ joinScripts X db m.subnetId

structure Locked (ctx : BlockContext) (tx : Transaction) (db : HeedDb) : Prop where
  fund : FundLocked X tx db
  batch : BatchLocked X ctx tx db
  join : JoinLocked X tx db

def joinedSubnet : IpcMessage → Option SubnetId
  | .joinSubnet m => some m.subnetId
  | _ => none

/-- No two joins of a transaction name the same subnet. -/
def JoinsOnce (tx : Transaction) : Prop := ((witnessMessages X tx).filterMap joinedSubnet).Nodup

section Proofs

variable {X} {cfg : Config} {ctx : BlockContext} {tx : Transaction} {db : HeedDb}
  {l : List (Event × HeedDb)}

theorem value_le_paidTo {scripts : List Script} {outs : List TxOut} {out : TxOut}
    (hout : out ∈ outs) (hscript : out.scriptPubkey ∈ scripts) : out.value ≤ paidTo scripts outs := by
  apply List.le_sum_of_mem
  exact List.mem_map_of_mem (List.mem_filter.mpr ⟨hout, by simpa using hscript⟩)

/-- The amount of a fund message is the value of output 1. -/
theorem fromTx_amount {m : IpcFundSubnetMsg} (h : IpcFundSubnetMsg.fromTx tx = .ok m) :
    ∃ out, tx.output[1]? = some out ∧ out.value = m.amount := by
  obtain ⟨⟨s, amount, address⟩, hf, h⟩ := bind_eq_ok.mp h
  cases h
  obtain ⟨_, -, hf⟩ := bind_eq_ok.mp hf
  obtain ⟨_, -, hf⟩ := bind_eq_ok.mp hf
  obtain ⟨_, -, hf⟩ := bind_eq_ok.mp hf
  obtain ⟨_, -, hf⟩ := bind_eq_ok.mp hf
  obtain ⟨_, -, hf⟩ := bind_eq_ok.mp hf
  obtain ⟨out, hout, hf⟩ := bind_eq_ok.mp hf
  cases hf
  exact ⟨out, index_eq_ok.mp hout, rfl⟩

theorem fundBacked_of_locked {m : IpcFundSubnetMsg} {h : Nat} {hash : BlockHash} {txid : Txid}
    {db' : HeedDb} (hlocked : FundLocked X tx db) (hparsed : IpcFundSubnetMsg.fromTx tx = .ok m)
    (hsave : m.saveToDb X db h hash txid = .ok db') : FundBacked X tx db m := by
  obtain ⟨s, hs, -⟩ := IpcFundSubnetMsg.saveToDb_eq_ok hsave
  have hscript : committeeScript X db m.subnetId =
      some s.committee.multisigAddress.scriptPubkey := by
    rw [committeeScript, hs]
    rfl
  obtain ⟨out, hout, hvalue⟩ := fromTx_amount hparsed
  have hlock := hlocked m _ hparsed hscript
  rw [hout, Option.map_some, Option.some.injEq] at hlock
  exact ⟨_, hscript, by rw [hout, ← hvalue, ← hlock]⟩

/-- The transfers of a parsed batch have destinations that exist. -/
theorem committeeScript_of_mem {m : IpcBatchTransferMsg} {t : IpcCrossSubnetTransfer}
    (h : IpcBatchTransferMsg.fromTx X ctx.native ctx.erc db tx = .ok m) (ht : t ∈ m.transfers) :
    ∃ script, committeeScript X db t.destinationSubnetId = some script := by
  obtain ⟨_, -, h⟩ := bind_eq_ok.mp h
  obtain ⟨_, -, h⟩ := bind_eq_ok.mp h
  obtain ⟨_, -, h⟩ := bind_eq_ok.mp h
  obtain ⟨_, -, h⟩ := bind_eq_ok.mp h
  obtain ⟨_, -, h⟩ := bind_eq_ok.mp h
  obtain ⟨wire, -, h⟩ := bind_eq_ok.mp h
  obtain ⟨_, -, h⟩ := bind_eq_ok.mp h
  cases h
  obtain ⟨entry, -, hentry⟩ := List.mem_flatMap.mp ht
  unfold IpcBatchTransferMsg.nativeTransfers at hentry
  cases hs : db.getSubnetState X (.fromTxid20 entry.1) with
  | none => simp [hs] at hentry
  | some s =>
    rw [hs] at hentry
    obtain ⟨p, -, rfl⟩ := List.mem_map.mp hentry
    exact ⟨s.committee.multisigAddress.scriptPubkey, by rw [committeeScript, hs]; rfl⟩

theorem batchBacked_of_locked {m₀ m : IpcBatchTransferMsg} (hlocked : BatchLocked X ctx tx db)
    (hparsed : IpcBatchTransferMsg.fromTx X ctx.native ctx.erc db tx = .ok m₀)
    (hcheck : checkBatch X db m₀ = .ok m) : BatchBacked X db m := by
  have hm := checkBatch_eq hcheck
  have htxid : m.checkpointTxid = m₀.checkpointTxid := by rw [hm]
  have htransfers : m.transfers = m₀.transfers := by rw [hm]
  obtain ⟨_, -, hcheck⟩ := bind_eq_ok.mp hcheck
  obtain ⟨c, hc, -⟩ := bind_eq_ok.mp hcheck
  rw [okOr_eq_ok] at hc
  refine ⟨c, by rw [htxid, hc], ?_⟩
  rw [htransfers]
  intro t ht
  obtain ⟨script, hscript⟩ := committeeScript_of_mem hparsed ht
  refine ⟨script, hscript, ?_⟩
  have hout := hlocked m₀ c hparsed hc t ht script hscript
  exact value_le_paidTo hout (List.mem_singleton.mpr rfl)

theorem joinedSubnet_savedAs {m m' : IpcMessage} (h : SavedAs m m') :
    joinedSubnet m' = joinedSubnet m := by
  cases m with
  | joinSubnet m =>
    cases m' with
    | joinSubnet m' =>
      have hm : m' = { m with collateral := m'.collateral } := h
      have hs : m'.subnetId = m.subnetId := by rw [hm]
      simp only [joinedSubnet, hs]
    | _ => cases h
  | batchTransfer m =>
    cases m' with
    | batchTransfer m' => rfl
    | _ => cases h
  | _ => cases h; rfl

/-- Of joins that name different subnets, at most one is of a given subnet. -/
theorem sum_collateralOf {ms : List IpcMessage} (hnodup : (ms.filterMap joinedSubnet).Nodup)
    {m : IpcJoinSubnetMsg} (hm : .joinSubnet m ∈ ms) :
    (ms.filterMap (collateralOf m.subnetId)).sum = m.collateral := by
  induction ms with
  | nil => cases hm
  | cons a rest ih =>
    have hother : ∀ l : List IpcMessage, m.subnetId ∉ l.filterMap joinedSubnet →
        l.filterMap (collateralOf m.subnetId) = [] := by
      intro l hl
      rw [List.filterMap_eq_nil_iff]
      intro b hb
      cases b with
      | joinSubnet j =>
        have hne : j.subnetId ≠ m.subnetId := by
          intro heq
          exact hl (List.mem_filterMap.mpr ⟨_, hb, by rw [joinedSubnet, heq]⟩)
        simp [collateralOf, hne]
      | _ => rfl
    rcases List.mem_cons.mp hm with rfl | hrest
    · have hfresh : m.subnetId ∉ rest.filterMap joinedSubnet := (List.nodup_cons.mp hnodup).1
      simp [collateralOf, hother rest hfresh]
    · cases a with
      | joinSubnet j =>
        obtain ⟨hfresh, hnodup⟩ := List.nodup_cons.mp hnodup
        have hne : j.subnetId ≠ m.subnetId := fun heq =>
          hfresh (List.mem_filterMap.mpr ⟨_, hrest, by rw [joinedSubnet, heq]⟩)
        have hnone : collateralOf m.subnetId (.joinSubnet j) = none := by simp [collateralOf, hne]
        rw [List.filterMap_cons_none hnone]
        exact ih hnodup hrest
      | _ => exact ih hnodup hrest

/-- The joins of a transaction without two joins of one subnet record at most the
collateral of one of them. -/
theorem joinedCollateral_eq (ht : TransactionTrail X cfg ctx tx db l) (honce : JoinsOnce X tx)
    {m : IpcJoinSubnetMsg} (hm : (ctx, tx, .joinSubnet m) ∈ messages l) :
    joinedCollateral m.subnetId l = m.collateral := by
  obtain ⟨ms, found, hms, hfound, hsub⟩ := ht.once
  have hmem : .joinSubnet m ∈ ms := by
    rw [hms] at hm
    obtain ⟨m', hm', heq⟩ := List.mem_map.mp hm
    cases heq
    exact hm'
  have hnone : found.toList.filterMap joinedSubnet = [] := by
    cases hf : found with
    | none => rfl
    | some a =>
      have hout := hfound a hf
      cases a with
      | joinSubnet j => cases hout
      | _ => rfl
  have hnodup : (ms.filterMap joinedSubnet).Nodup := by
    apply (SublistForall₂.filterMap (fun _ _ h => joinedSubnet_savedAs h) hsub).nodup
    rw [List.filterMap_append, hnone, List.append_nil]
    exact honce
  rw [joinedCollateral, hms, List.filterMap_map]
  exact sum_collateralOf hnodup hmem

theorem checkJoin_collateral {m₀ m : IpcJoinSubnetMsg} (h : checkJoin X tx db m₀ = .ok m) :
    ∃ out, tx.output.head? = some out ∧ m.collateral = out.value := by
  obtain ⟨out, hout, h⟩ := bind_eq_ok.mp h
  obtain ⟨_, -, h⟩ := bind_eq_ok.mp h
  obtain ⟨_, -, h⟩ := bind_eq_ok.mp h
  obtain ⟨_, -, h⟩ := bind_eq_ok.mp h
  cases h
  exact ⟨out, okOr_eq_ok.mp hout, rfl⟩

theorem joinBacked_of_locked {m₀ m : IpcJoinSubnetMsg}
    (ht : TransactionTrail X cfg ctx tx db l) (honce : JoinsOnce X tx) {before : HeedDb}
    (hlocked : JoinLocked X tx before) (hparsed : .joinSubnet m₀ ∈ witnessMessages X tx)
    (hcheck : checkJoin X tx before m₀ = .ok m) (hm : (ctx, tx, .joinSubnet m) ∈ messages l) :
    JoinBacked X tx l before m := by
  obtain ⟨out, hout, hvalue⟩ := checkJoin_collateral hcheck
  have hs : m.subnetId = m₀.subnetId := by rw [checkJoin_eq hcheck]
  rw [JoinBacked, joinedCollateral_eq ht honce hm, hvalue, hs]
  exact value_le_paidTo (List.mem_of_mem_head? hout) (hlocked m₀ out hparsed hout)

/-- The events of a transaction carry its messages. -/
theorem TransactionTrail.event_eq (ht : TransactionTrail X cfg ctx tx db l)
    {ctx' : BlockContext} {tx' : Transaction} {m : IpcMessage} {db' : HeedDb}
    (h : (.message ctx' tx' m, db') ∈ l) : ctx' = ctx ∧ tx' = tx ∧ (ctx, tx, m) ∈ messages l := by
  obtain ⟨ms, found, hms, -, -⟩ := ht.once
  have hmem : (ctx', tx', m) ∈ messages l := List.mem_filterMap.mpr ⟨_, h, rfl⟩
  have hmem' := hmem
  rw [hms] at hmem'
  obtain ⟨m', -, heq⟩ := List.mem_map.mp hmem'
  cases heq
  exact ⟨rfl, rfl, hmem⟩

/-- Credit is backed where the transaction meets the missing checks. -/
theorem credit_is_backed (ht : TransactionTrail X cfg ctx tx db l) (honce : JoinsOnce X tx)
    (hlocked : AllSteps (fun before _ _ => Locked X ctx tx before) db l) : Backed X tx db l := by
  refine allSteps_of_trail ?_ ht.trail hlocked
  rintro ⟨e, after⟩ hmem before hstep hlock
  cases hstep with
  | fundSubnet hparsed _ hsave =>
    obtain ⟨rfl, rfl, -⟩ := ht.event_eq hmem
    exact fundBacked_of_locked hlock.fund hparsed hsave
  | batchTransfer hparsed hcheck _ =>
    obtain ⟨rfl, rfl, -⟩ := ht.event_eq hmem
    exact batchBacked_of_locked hlock.batch hparsed hcheck
  | joinSubnet hparsed hcheck _ =>
    obtain ⟨rfl, rfl, hm⟩ := ht.event_eq hmem
    exact joinBacked_of_locked ht honce hlock.join hparsed hcheck hm
  | _ => trivial

end Proofs

open Solo

/-- The database of the subnet that has just started. -/
def startedDb : HeedDb := (run (library 10000 []) [createTx, joinTx 100000]).store HeedDb.empty

def fundMsg : IpcFundSubnetMsg := ⟨.fromTxid20 subnet, 50000, user⟩

/-- A fund message whose second output pays the given script. -/
def fundTx (script : Script) : Transaction :=
  spending (bytes32 12) 0 [] [tagged ipcFundSubnetTag (subnet.bytes ++ user.bytes) 0,
    ⟨50000, script⟩]

theorem reachable_startedDb : Reachable (library 10000 []) startedDb := by
  obtain ⟨l, hl, -, hlast⟩ := exists_trail (X := library 10000 []) ⟨none⟩ context
    [createTx, joinTx 100000] HeedDb.empty
  exact ⟨l, hl, hlast⟩

/-- The fund message is saved whatever its second output pays. -/
theorem fundTx_trail {script : Script}
    (hparsed : IpcFundSubnetMsg.fromTx (fundTx script) = .ok fundMsg)
    (hruns : (fundMsg.saveToDb (library 10000 []) startedDb 1 (bytes32 5)
      ((library 10000 []).computeTxid (fundTx script))).toOption.map (fun d => [d]) =
        some (processTransaction (library 10000 []) ⟨none⟩ context (fundTx script)
          startedDb).commits) :
    ∃ db', TransactionTrail (library 10000 []) ⟨none⟩ context (fundTx script) startedDb
      [(.message context (fundTx script) (.fundSubnet fundMsg), db')] := by
  obtain ⟨db', hsave, hcommits⟩ := Option.map_eq_some_iff.mp hruns
  exact ⟨db', .single (.fundSubnet fundMsg) rfl rfl rfl
    (.fundSubnet hparsed rfl (toOption_eq_some.mp hsave)) hcommits.symm⟩

theorem committeeScript_startedDb :
    committeeScript (library 10000 []) startedDb fundMsg.subnetId =
      some (address 10).scriptPubkey := by
  decide +kernel

/-- A fund message that pays the committee is credited and backed. -/
theorem credit_is_backed_by_committee_output :
    ∃ l, TransactionTrail (library 10000 []) ⟨none⟩ context (fundTx (address 10).scriptPubkey)
        startedDb l ∧
      messages l = [(context, fundTx (address 10).scriptPubkey, .fundSubnet fundMsg)] ∧
      Backed (library 10000 []) (fundTx (address 10).scriptPubkey) startedDb l := by
  have hparsed : IpcFundSubnetMsg.fromTx (fundTx (address 10).scriptPubkey) = .ok fundMsg :=
    of_decide_eq_true (by decide +kernel)
  obtain ⟨db', ht⟩ := fundTx_trail hparsed (of_decide_eq_true (by decide +kernel))
  refine ⟨_, ht, rfl, credit_is_backed ht List.nodup_nil ⟨⟨?_, ?_, ?_⟩, trivial⟩⟩
  · intro m script hm hscript
    rw [hparsed] at hm
    cases hm
    exact committeeScript_startedDb.symm.trans hscript
  · rintro m c hm
    cases hm
  · rintro m out hm
    cases hm

/-- A fund message that pays the validator's own address is credited all the same. -/
theorem fund_without_output_is_credited :
    ¬ ∀ X cfg ctx tx db l, DisplayLaws X → Reachable X db → TransactionTrail X cfg ctx tx db l →
      Backed X tx db l := by
  intro hall
  have hparsed : IpcFundSubnetMsg.fromTx (fundTx backup.scriptPubkey) = .ok fundMsg :=
    of_decide_eq_true (by decide +kernel)
  obtain ⟨db', ht⟩ := fundTx_trail hparsed (of_decide_eq_true (by decide +kernel))
  have hbacked := hall _ _ _ _ _ _ (displayLaws_ideal _) reachable_startedDb ht
  obtain ⟨script, hscript, hout⟩ := hbacked.1
  have hpaid : backup.scriptPubkey = script := congrArg TxOut.scriptPubkey (Option.some.inj hout)
  have heq : some backup.scriptPubkey = some (address 10).scriptPubkey := by
    rw [hpaid]
    exact hscript.symm.trans committeeScript_startedDb
  exact absurd heq (by decide +kernel)

end Monitor
