import BitcoinIpc.Bootstrap
import BitcoinIpc.Panics

/-!
# Messages that are processed again

A monitor that restarts in the middle of a block reads the block again from its
start, on a database that already holds what the first messages wrote. A message
that is refused there leaves the database alone, and so does a creation whose
genesis info is stored as it is. A creation of a subnet that has not started takes
back what has joined and prefunded it since, and the same joins and prefunds bring
it back.
-/

namespace Monitor

open Faults Bytes Chain Messages Crates Multisig Db Grouping Commits Rewards OrderedTable

/-- What is read of a transaction at a time: a message of its witnesses, or the message of its
outputs, which is found with the database. -/
structure Reading where
  tx : Transaction
  found : Option IpcMessage
deriving DecidableEq

section Readings

variable (X : Library) (cfg : Config) (ctx : BlockContext)

def readingsOf (tx : Transaction) : List Reading :=
  (witnessMessages X tx).map (fun m => ⟨tx, some m⟩) ++ [⟨tx, none⟩]

def readings (txs : List Transaction) : List Reading := txs.flatMap (readingsOf X)

def Reading.message (db : HeedDb) (r : Reading) : Outcome MonitorError (Option IpcMessage) :=
  match r.found with
  | some m => .ok (some m)
  | none => firstParsed (outputParsers X ctx db r.tx)

def processReading (r : Reading) : MonitorProc Unit := do
  let db ← Proc.read
  match ← Proc.lift (r.message X ctx db) with
  | some m => handleMsg X cfg ctx r.tx m
  | none => pure ()

theorem processTransaction_eq (tx : Transaction) :
    processTransaction X cfg ctx tx = Proc.each (processReading X cfg ctx) (readingsOf X tx) := by
  have hlast : Proc.each (processReading X cfg ctx) [⟨tx, none⟩] = processOutputs X cfg ctx tx := by
    funext db
    rw [Proc.each_singleton]
    rfl
  rw [readingsOf, Proc.each_append_bind, Proc.each_map, hlast]
  rfl

/-- A block is processed one reading after another. -/
theorem processBlockData_eq (txs : List Transaction) :
    processBlockData X cfg ctx txs = Proc.each (processReading X cfg ctx) (readings X txs) :=
  (Proc.each_flatMap (processTransaction_eq X cfg ctx) txs).symm

variable {X ctx}

/-- What is read stands in the transaction. -/
theorem parsed_of_message {txs : List Transaction} {r : Reading} (hr : r ∈ readings X txs)
    {db : HeedDb} {m : IpcMessage} (h : r.message X ctx db = .ok (some m)) :
    Parsed X ctx db r.tx m := by
  obtain ⟨tx, -, hr⟩ := List.mem_flatMap.mp hr
  rcases List.mem_append.mp hr with hr | hr
  · obtain ⟨m', hm', rfl⟩ := List.mem_map.mp hr
    cases h
    exact parsed_of_mem_witnessMessages hm' db
  · obtain rfl := List.mem_singleton.mp hr
    exact (parsed_of_mem_outputParsers (mem_of_firstParsed h)).1

theorem processReading_some {r : Reading} {db : HeedDb} {m : IpcMessage}
    (h : r.message X ctx db = .ok (some m)) :
    processReading X cfg ctx r db = handleMsg X cfg ctx r.tx m db := by
  rw [processReading, Proc.read_bind, h]
  rfl

theorem processReading_none {r : Reading} {db : HeedDb} (h : r.message X ctx db = .ok none) :
    processReading X cfg ctx r db = ⟨[], .ok ()⟩ := by
  rw [processReading, Proc.read_bind, h]
  rfl

theorem processReading_error {r : Reading} {db : HeedDb} {e : Failure MonitorError}
    (h : r.message X ctx db = .error e) : processReading X cfg ctx r db = ⟨[], .error e⟩ := by
  rw [processReading, Proc.read_bind, h]
  rfl

end Readings

/-- The subnet whose genesis info a message writes. -/
def genesisOf (X : Library) (tx : Transaction) : IpcMessage → Option SubnetId
  | .createSubnet _ => some (.fromTxid (X.computeTxid tx))
  | .joinSubnet m => some m.subnetId
  | .prefundSubnet m => some m.subnetId
  | _ => none

/-- A message keeps its subnet when it is saved. -/
theorem genesisOf_savedAs {X : Library} {tx : Transaction} {m m' : IpcMessage}
    (h : SavedAs m m') : genesisOf X tx m' = genesisOf X tx m := by
  cases m with
  | joinSubnet m =>
    cases m' with
    | joinSubnet m' =>
      have hm : m' = { m with collateral := m'.collateral } := h
      have hs : m'.subnetId = m.subnetId := by rw [hm]
      exact congrArg some hs
    | _ => cases h
  | batchTransfer m =>
    cases m' with
    | batchTransfer m' => rfl
    | _ => cases h
  | _ => cases h; rfl

/-- A message that writes a genesis info is read whatever the database holds. -/
theorem message_eq_of_genesisOf {X : Library} {ctx : BlockContext} {r : Reading} {d : HeedDb}
    {m : IpcMessage} {id : SubnetId} (h : r.message X ctx d = .ok (some m))
    (hm : genesisOf X r.tx m = some id) (e : HeedDb) : r.message X ctx e = .ok (some m) := by
  unfold Reading.message at h ⊢
  cases hfound : r.found with
  | some m' =>
    rw [hfound] at h
    exact h
  | none =>
    rw [hfound] at h
    dsimp only at h ⊢
    unfold outputParsers at h ⊢
    match hp : IpcPrefundSubnetMsg.fromTx r.tx with
    | .ok m' =>
      rw [hp] at h
      exact h
    | .error .panic =>
      rw [hp] at h
      cases h
    | .error (.error _) =>
      rw [hp] at h
      have hmem := mem_of_firstParsed (ε := MonitorError) h
      simp only [List.mem_cons, List.not_mem_nil, or_false] at hmem
      rcases hmem with hmem | hmem | hmem | hmem | hmem | hmem | hmem
      · cases hmem
      all_goals
        obtain ⟨m', -, rfl⟩ := map_eq_ok hmem.symm
        cases hm

section Checks

variable (X : Library) (ctx : BlockContext) (db : HeedDb) (tx : Transaction)

/-- A check ends with an error. -/
def Fails {ε α : Type} (x : Outcome ε α) : Prop := ∃ e, x = raise e

theorem fails_of_endures {ε α : Type} {P : ε → Prop} {x : Outcome ε α} (hx : Endures P x)
    (h : ∀ a, x ≠ .ok a) : Fails x := by
  match x with
  | .ok a => exact absurd rfl (h a)
  | .error (.error e) => exact ⟨e, rfl⟩
  | .error .panic => exact hx.elim

/-- The message fails its own check, or the database refuses it. -/
def InvalidOr (check : Outcome IpcValidateError Unit) (refused : Prop) : Prop :=
  Fails check ∨ check = .ok () ∧ refused

/-- The checks of the handler refuse the message. -/
def Refused : IpcMessage → Prop
  | .createSubnet m => Fails m.validate
  | .joinSubnet m => Fails (checkJoin X tx db m)
  | .prefundSubnet m => InvalidOr m.validate <|
      ∀ g, db.getSubnetGenesisInfo X m.subnetId = some g → g.bootstrapped = true
  | .fundSubnet m => InvalidOr m.validate <|
      ∀ s, db.getSubnetState X m.subnetId = some s → s.isKilledOrPending = true
  | .checkpointSubnet m => InvalidOr m.validate <|
      ∀ s, db.getSubnetState X m.subnetId = some s → Fails (m.rotation X db s)
  | .batchTransfer m => Fails (checkBatch X db m) ∨
      ∃ m', checkBatch X db m = .ok m' ∧ ∀ s n c, db.getSubnetState X m'.subnetId = some s →
        s.lastCheckpointNumber = some n → db.getCheckpoint X m'.subnetId n = some c →
        Fails (validateErcBatchData X m'.subnetId m'.tokenRegistrations
          m'.tokenSupplyAdjustments m'.tokenTransfers db)
  | .stakeCollateral m => InvalidOr m.validate <|
      ∀ s, db.getSubnetState X m.subnetId = some s → Fails (m.validateForSubnet s)
  | .unstakeCollateral m => InvalidOr m.validate <|
      ∀ g s, db.getSubnetGenesisInfo X m.subnetId = some g →
        db.getSubnetState X m.subnetId = some s → Fails (m.validateForSubnet g s)
  | .killSubnet m => InvalidOr m.validate <|
      ∀ g s, db.getSubnetGenesisInfo X m.subnetId = some g →
        db.getSubnetState X m.subnetId = some s → Fails (m.validateForSubnet g s) ∨
          ∃ key, m.pubkey = some key ∧
            ((db.getValidKillRequests X m.subnetId ctx.blockHeight).any
              (fun r => r.validatorXpk = key)) = true

end Checks

section Handling

variable {X : Library} {cfg : Config} {ctx : BlockContext} {db : HeedDb} {tx : Transaction}

/-- What is refused commits nothing, and the monitor goes on. -/
abbrev Leaves (p : MonitorProc Unit) (db : HeedDb) : Prop := p db = ⟨[], .ok ()⟩

theorem leaves_handle {p : MonitorProc Unit} {e : MonitorError} (hp : p db = ⟨[], raise e⟩)
    (he : handleIpcMsgError e = .ok ()) : Leaves (Proc.handle p handleIpcMsgError) db := by
  unfold Leaves Proc.handle
  rw [hp]
  exact congrArg (Trace.mk []) he

/-- A result that is refused as invalid. -/
def Invalid {α : Type} (x : Outcome IpcLibError α) : Prop := ∃ e, x = raise (.ipcValidateError e)

theorem Invalid.bind {α β : Type} {x : Outcome IpcLibError α} (h : Invalid x)
    (f : α → Outcome IpcLibError β) : Invalid (x >>= f) := by
  obtain ⟨e, rfl⟩ := h
  exact ⟨e, rfl⟩

theorem invalid_okOr_bind {α β : Type} {o : Option α} {text : String}
    {f : α → Outcome IpcLibError β} (h : ∀ a, o = some a → Invalid (f a)) :
    Invalid (okOr o (invalidMsg text) >>= f) := by
  cases o with
  | none => exact ⟨_, rfl⟩
  | some a => exact h a rfl

theorem invalid_orInvalid {α : Type} {x : Outcome IpcValidateError α} (h : Fails x) :
    Invalid (orInvalid x) := by
  obtain ⟨e, rfl⟩ := h
  exact ⟨e, rfl⟩

/-- A handler that checks the message and saves it. -/
theorem leaves_save {α : Type} {p : MonitorProc Unit} {check : Outcome IpcValidateError Unit}
    {save : HeedDb → Outcome IpcLibError α} {commit : α → MonitorProc Unit} (hp : p = (do
      Proc.lift (orMsgInvalid check)
      let db ← Proc.read
      let saved ← Proc.lift (orProcessing (save db))
      commit saved)) {refused : Prop} (h : InvalidOr check refused)
    (hsave : refused → Invalid (save db)) : Leaves (Proc.handle p handleIpcMsgError) db := by
  subst hp
  rcases h with ⟨e, rfl⟩ | ⟨rfl, hrefused⟩
  · exact leaves_handle (e := .ipcMsgInvalid e) rfl rfl
  · obtain ⟨e, hsaved⟩ := hsave hrefused
    refine leaves_handle (e := .ipcMsgProcessingError (.ipcValidateError e)) ?_ rfl
    have hchecked : (orMsgInvalid (.ok ()) : Outcome MonitorError Unit) = .ok () := rfl
    rw [hchecked, Proc.lift_ok_bind, Proc.read_bind, hsaved]
    rfl

section Saves

variable {h : Nat} {hash : BlockHash} {txid : Txid}

theorem prefund_invalid {m : IpcPrefundSubnetMsg} (hclosed : ∀ g,
    db.getSubnetGenesisInfo X m.subnetId = some g → g.bootstrapped = true) :
    Invalid (m.saveToDb X db h txid) := by
  refine invalid_okOr_bind (fun g hg => Invalid.bind ?_ _)
  exact ⟨_, congrArg orInvalid (if_neg (not_not.mpr (hclosed g hg)))⟩

theorem fund_invalid {m : IpcFundSubnetMsg} (hclosed : ∀ s,
    db.getSubnetState X m.subnetId = some s → s.isKilledOrPending = true) :
    Invalid (m.saveToDb X db h hash txid) := by
  refine invalid_okOr_bind (fun s hs => Invalid.bind ?_ _)
  exact ⟨_, congrArg orInvalid (if_neg (not_not.mpr (hclosed s hs)))⟩

theorem raises_rotation (m : IpcCheckpointSubnetMsg) (s : SubnetState) :
    Raises (fun e => ∃ v, e = .ipcValidateError v) (m.rotation X db s) := by
  unfold IpcCheckpointSubnetMsg.rotation
  dsimp only
  split
  · exact raises_ok _
  · exact (raises_ensure ⟨_, rfl⟩).bind
      (fun _ => (raises_okOr _ ⟨_, rfl⟩).bind (fun _ => raises_ok _))

theorem checkpoint_invalid {m : IpcCheckpointSubnetMsg} (hrefused : ∀ s,
    db.getSubnetState X m.subnetId = some s → Fails (m.rotation X db s)) :
    Invalid (m.saveToDb X db h hash txid) := by
  refine invalid_okOr_bind (fun s hs => Invalid.bind ?_ _)
  obtain ⟨e, hrotation⟩ := hrefused s hs
  obtain ⟨v, rfl⟩ := raises_rotation m s e hrotation
  exact ⟨v, hrotation⟩

theorem stake_invalid {m : IpcStakeCollateralMsg} (hrefused : ∀ s,
    db.getSubnetState X m.subnetId = some s → Fails (m.validateForSubnet s)) :
    Invalid (m.saveToDb X db h hash txid) :=
  invalid_okOr_bind (fun _ _ => invalid_okOr_bind (fun s hs =>
    (invalid_orInvalid (hrefused s hs)).bind _))

theorem unstake_invalid {m : IpcUnstakeCollateralMsg} (hrefused : ∀ g s,
    db.getSubnetGenesisInfo X m.subnetId = some g → db.getSubnetState X m.subnetId = some s →
      Fails (m.validateForSubnet g s)) :
    Invalid (m.saveToDb X db h hash txid) :=
  invalid_okOr_bind (fun g hg => invalid_okOr_bind (fun s hs =>
    (invalid_orInvalid (hrefused g s hg hs)).bind _))

/-- The check on a kill ends with a result or an error. -/
theorem calm_kill (m : IpcKillSubnetMsg) (g : SubnetGenesisInfo) (s : SubnetState) :
    Calm (m.validateForSubnet g s) :=
  (calm_ensure _).bind (fun _ _ => (calm_okOr _ _).bind (fun _ _ => calm_ensure _))

/-- A validator that has already asked for the kill is refused. -/
theorem kill_invalid {m : IpcKillSubnetMsg} (hrefused : ∀ g s,
    db.getSubnetGenesisInfo X m.subnetId = some g → db.getSubnetState X m.subnetId = some s →
      Fails (m.validateForSubnet g s) ∨ ∃ key, m.pubkey = some key ∧
        ((db.getValidKillRequests X m.subnetId h).any (fun r => r.validatorXpk = key)) = true) :
    Invalid (m.saveToDb X db h hash txid) := by
  refine invalid_okOr_bind (fun g hg => invalid_okOr_bind (fun s hs => ?_))
  rcases hrefused g s hg hs with hfails | ⟨key, hkey, hasked⟩
  · exact (invalid_orInvalid hfails).bind _
  · match hvalid : m.validateForSubnet g s with
    | .error .panic => exact absurd hvalid (calm_kill m g s)
    | .error (.error e) => exact ⟨e, rfl⟩
    | .ok () =>
      rw [hkey]
      refine invalid_okOr_bind (fun v _ => ?_)
      dsimp only
      rw [ensure_neg (not_not.mpr hasked)]
      exact ⟨_, rfl⟩

/-- A batch of records that the database refuses. -/
theorem batch_invalid {m : IpcBatchTransferMsg} {o : IpcBatchTransferMsg.Origin}
    (hrefused : ∀ s n c, db.getSubnetState X m.subnetId = some s →
      s.lastCheckpointNumber = some n → db.getCheckpoint X m.subnetId n = some c →
      Fails (validateErcBatchData X m.subnetId m.tokenRegistrations
        m.tokenSupplyAdjustments m.tokenTransfers db)) : Invalid (m.saveToDb X db o) :=
  invalid_okOr_bind (fun s hs => invalid_okOr_bind (fun n hn => invalid_okOr_bind (fun c hc =>
    (invalid_orInvalid (hrefused s n c hs hn hc)).bind _)))

end Saves

theorem leaves_of_endures {α : Type} {x : HeedDb → Outcome MonitorError α}
    {rest : α → MonitorProc Unit} (hx : Endures Ignorable (x db)) (h : Fails (x db)) :
    Leaves (Proc.handle (do
      let db ← Proc.read
      let a ← Proc.lift (x db)
      rest a) handleIpcMsgError) db := by
  obtain ⟨e, hfails⟩ := h
  refine leaves_handle (e := e) ?_ ?_
  · rw [Proc.read_bind, hfails]
    rfl
  · rw [hfails] at hx
    exact hx

/-- A refused message leaves the database alone. -/
theorem refused_leaves {m : IpcMessage} (h : Refused X ctx db tx m) :
    Leaves (handleMsg X cfg ctx tx m) db := by
  cases m with
  | createSubnet m =>
    obtain ⟨e, hfails⟩ := h
    refine leaves_handle (e := .ipcMsgInvalid e) ?_ rfl
    change (Proc.lift (orMsgInvalid m.validate) >>= _) db = _
    rw [hfails]
    rfl
  | joinSubnet m =>
    exact leaves_of_endures (x := fun db => checkJoin X tx db m) (endures_checkJoin m) h
  | prefundSubnet m => exact leaves_save rfl h prefund_invalid
  | fundSubnet m => exact leaves_save rfl h fund_invalid
  | checkpointSubnet m => exact leaves_save rfl h checkpoint_invalid
  | batchTransfer m =>
    rcases h with hfails | ⟨m', hchecked, hrefused⟩
    · exact leaves_of_endures (x := fun db => checkBatch X db m) (endures_checkBatch m) hfails
    · obtain ⟨e, hsaved⟩ := batch_invalid
        (o := ⟨ctx.blockHeight, ctx.blockHash, X.computeTxid tx⟩) hrefused
      refine leaves_handle (e := .ipcMsgProcessingError (.ipcValidateError e)) ?_ rfl
      change (Proc.lift (checkBatch X db m) >>= _) db = _
      rw [hchecked, Proc.lift_ok_bind, hsaved]
      rfl
  | stakeCollateral m => exact leaves_save rfl h stake_invalid
  | unstakeCollateral m => exact leaves_save rfl h unstake_invalid
  | killSubnet m => exact leaves_save rfl h kill_invalid

/-- The databases differ in their genesis infos only. -/
def SameButGenesis (d e : HeedDb) : Prop := ∃ table, e = { d with subnetGenesisDb := table }

/-- Whether a message is refused does not depend on the genesis infos of other subnets. -/
theorem refused_congr {e : HeedDb} {m : IpcMessage} (hsame : SameButGenesis db e)
    (hinfo : ∀ id, e.getSubnetGenesisInfo X id = db.getSubnetGenesisInfo X id ∨
      (db.getSubnetState X id = none ∧ genesisOf X tx m ≠ some id))
    (h : Refused X ctx db tx m) : Refused X ctx e tx m := by
  obtain ⟨table, rfl⟩ := hsame
  have hstate : ∀ id, ({ db with subnetGenesisDb := table } : HeedDb).getSubnetState X id =
      db.getSubnetState X id := fun _ => rfl
  have hown : ∀ id g s, ({ db with subnetGenesisDb := table } : HeedDb).getSubnetGenesisInfo X id =
      some g → db.getSubnetState X id = some s → db.getSubnetGenesisInfo X id = some g := by
    intro id g s hg hs
    rcases hinfo id with heq | ⟨hnone, -⟩
    · rw [← heq, hg]
    · rw [hnone] at hs
      cases hs
  cases m with
  | createSubnet m => exact h
  | joinSubnet m =>
    have hg := (hinfo m.subnetId).resolve_right (fun hnot => hnot.2 rfl)
    obtain ⟨e, he⟩ := h
    refine ⟨e, ?_⟩
    rw [← he]
    simp only [checkJoin, hg, hstate]
  | prefundSubnet m =>
    have hg := (hinfo m.subnetId).resolve_right (fun hnot => hnot.2 rfl)
    refine h.imp_right (fun hclosed => ⟨hclosed.1, fun g hget => hclosed.2 g ?_⟩)
    rw [← hg, hget]
  | fundSubnet m => exact h
  | checkpointSubnet m => exact h
  | batchTransfer m => exact h
  | stakeCollateral m => exact h
  | unstakeCollateral m =>
    exact h.imp_right (fun hno => ⟨hno.1, fun g s hg hs => hno.2 g s (hown _ g s hg hs) hs⟩)
  | killSubnet m =>
    exact h.imp_right (fun hno => ⟨hno.1, fun g s hg hs => hno.2 g s (hown _ g s hg hs) hs⟩)

end Handling

section Frames

variable {X : Library} {cfg : Config} {ctx : BlockContext} (laws : DisplayLaws X)
include laws

/-- A commit writes the genesis info of its message's subnet only. -/
theorem genesisInfo_of_commit {db db' : HeedDb} {e : Event} (h : Commit X db e db')
    {id : SubnetId} (hother : ∀ ctx tx m, messageOf e = some (ctx, tx, m) →
      genesisOf X tx m ≠ some id) :
    db'.getSubnetGenesisInfo X id = db.getSubnetGenesisInfo X id := by
  have hsaved : ∀ {d : HeedDb} {u : SubnetId} {g : SubnetGenesisInfo}, u ≠ id →
      (d.saveSubnetGenesisInfo X u g).getSubnetGenesisInfo X id = d.getSubnetGenesisInfo X id :=
    fun hne => (HeedDb.getSubnetGenesisInfo_save _ laws _ _ _).trans (if_neg hne.symm)
  have htable : ∀ {d d' : HeedDb}, d'.subnetGenesisDb = d.subnetGenesisDb →
      d'.getSubnetGenesisInfo X id = d.getSubnetGenesisInfo X id := by
    intro d d' heq
    rw [HeedDb.getSubnetGenesisInfo, heq]
    rfl
  cases h with
  | @createSubnet ctx tx m _ _ =>
    exact hsaved (fun hid => hother ctx tx _ rfl (congrArg some hid))
  | @joinSubnet ctx tx m₀ m saved _ _ hsave =>
    have hne : m.subnetId ≠ id := fun hid => hother ctx tx _ rfl (congrArg some hid)
    cases hst : db.getSubnetState X m.subnetId with
    | none =>
      obtain ⟨g, -, -, -, ⟨-, rfl⟩ | ⟨s, -, -, rfl⟩⟩ := IpcJoinSubnetMsg.saveToDb_pre hst hsave
      · exact hsaved hne
      · exact hsaved (d := db.saveSubnetState X m.subnetId s) hne
    | some s =>
      obtain ⟨next, -, -, -, rfl⟩ := IpcJoinSubnetMsg.saveToDb_post hst hsave
      exact htable (subnetGenesisDb_recordStake _ _ _ _ _)
  | @prefundSubnet ctx tx m _ _ _ hsave =>
    obtain ⟨g, -, -, rfl⟩ := IpcPrefundSubnetMsg.saveToDb_eq_ok hsave
    exact hsaved (fun hid => hother ctx tx _ rfl (congrArg some hid))
  | fundSubnet _ _ hsave =>
    obtain ⟨s, -, rfl⟩ := IpcFundSubnetMsg.saveToDb_eq_ok hsave
    rfl
  | checkpointSubnet _ _ hsave =>
    obtain ⟨s, change, -, -, rfl⟩ := IpcCheckpointSubnetMsg.saveToDb_eq_ok hsave
    exact htable subnetGenesisDb_checkpointedDb
  | batchTransfer _ _ hsave =>
    obtain ⟨_, _, _, heq⟩ := IpcBatchTransferMsg.sameButBatch_saveToDb hsave
    rw [heq]
    rfl
  | stakeCollateral _ _ hsave =>
    obtain ⟨s, v, next, -, -, -, rfl⟩ := IpcStakeCollateralMsg.saveToDb_eq_ok hsave
    exact htable (subnetGenesisDb_recordStake _ _ _ _ _)
  | unstakeCollateral _ _ hsave =>
    obtain ⟨s, v, next, -, -, -, -, -, rfl⟩ := IpcUnstakeCollateralMsg.saveToDb_eq_ok hsave
    exact htable (subnetGenesisDb_recordStake _ _ _ _ _)
  | killSubnet _ _ hsave =>
    obtain ⟨s, r, -, rfl | ⟨marked, -, rfl⟩⟩ := IpcKillSubnetMsg.saveToDb_eq_ok hsave
    · rfl
    · rfl
  | transaction => rfl
  | rewards hsame =>
    obtain ⟨_, _, rfl⟩ := hsame
    rfl
  | block => rfl

/-- A subnet that has started keeps a state. -/
theorem started_of_commit {db db' : HeedDb} {e : Event} (h : Commit X db e db') {id : SubnetId}
    (hs : (db.getSubnetState X id).isSome = true) : (db'.getSubnetState X id).isSome = true := by
  cases genesisStep_of_commit laws h id with
  | other _ _ hsame => rwa [hsame]
  | created _ _ _ _ _ hsame => rwa [hsame]
  | prefunded _ _ _ _ hsame => rwa [hsame]
  | joined _ hnone _ _ _ _ _ _ =>
    rw [hnone] at hs
    cases hs
  | started _ _ _ _ _ _ _ _ hsome _ =>
    rw [hsome]
    rfl
  | member _ _ _ hsome => exact hsome

theorem genesisInfo_of_trail {db : HeedDb} {l : List (Event × HeedDb)} (h : Trail (Commit X) db l)
    {id : SubnetId} (hother : ∀ a ∈ l, ∀ ctx tx m, messageOf a.1 = some (ctx, tx, m) →
      genesisOf X tx m ≠ some id) :
    (lastStore db l).getSubnetGenesisInfo X id = db.getSubnetGenesisInfo X id := by
  induction l generalizing db with
  | nil => rfl
  | cons a rest ih =>
    obtain ⟨e, db'⟩ := a
    rw [lastStore_cons, ih h.2 (fun b hb => hother b (List.mem_cons_of_mem _ hb))]
    exact genesisInfo_of_commit laws h.1 (hother _ List.mem_cons_self)

theorem started_of_trail {db : HeedDb} {l : List (Event × HeedDb)} (h : Trail (Commit X) db l)
    {id : SubnetId} (hs : (db.getSubnetState X id).isSome = true) :
    ((lastStore db l).getSubnetState X id).isSome = true := by
  induction l generalizing db with
  | nil => exact hs
  | cons a rest ih =>
    obtain ⟨e, db'⟩ := a
    rw [lastStore_cons]
    exact ih h.2 (started_of_commit laws h.1 hs)

/-- What one reading writes: genesis infos of its message's subnet only, and no state goes. -/
theorem frame_of_reading (cfg : Config) (ctx : BlockContext) {txs : List Transaction} {r : Reading}
    (hr : r ∈ readings X txs) (db : HeedDb) (id : SubnetId) :
    ((∀ m, r.message X ctx db = .ok (some m) → genesisOf X r.tx m ≠ some id) →
      ((processReading X cfg ctx r db).store db).getSubnetGenesisInfo X id =
        db.getSubnetGenesisInfo X id) ∧
    ((db.getSubnetState X id).isSome = true →
      (((processReading X cfg ctx r db).store db).getSubnetState X id).isSome = true) := by
  match hfound : r.message X ctx db with
  | .error e =>
    have hrun := processReading_error cfg hfound
    rw [hrun]
    exact ⟨fun _ => rfl, fun hs => hs⟩
  | .ok none =>
    have hrun := processReading_none cfg hfound
    rw [hrun]
    exact ⟨fun _ => rfl, fun hs => hs⟩
  | .ok (some m) =>
    have hparsed := parsed_of_message hr hfound
    obtain ⟨saved, ⟨l, hl, hc, hm, -⟩, hsaved⟩ := handlesOnce_handleMsg cfg hparsed
    have hlast : (processReading X cfg ctx r db).store db = lastStore db l := by
      rw [processReading_some cfg hfound, lastStore, hc]
      rfl
    rw [hlast]
    constructor
    · intro hother
      refine genesisInfo_of_trail laws hl (fun a ha ctx' tx' m' hm' => ?_)
      have hmem : (ctx', tx', m') ∈ messages l := List.mem_filterMap.mpr ⟨a, ha, hm'⟩
      rw [hm] at hmem
      obtain ⟨m'', hm'', heq⟩ := List.mem_map.mp hmem
      cases heq
      rw [genesisOf_savedAs (hsaved _ (Option.mem_toList.mp hm''))]
      exact hother m rfl
    · exact started_of_trail laws hl

/-- The same of a whole list of readings, for the states. -/
theorem started_of_readings (cfg : Config) (ctx : BlockContext) {txs : List Transaction}
    {l : List Reading} (hl : ∀ r ∈ l, r ∈ readings X txs) {db : HeedDb} {id : SubnetId}
    (hs : (db.getSubnetState X id).isSome = true) :
    (((Proc.each (processReading X cfg ctx) l db).store db).getSubnetState X id).isSome = true :=
  Proc.each_keeps (I := fun d : HeedDb => (d.getSubnetState X id).isSome = true)
    (fun r hr _ hd => (frame_of_reading laws cfg ctx (hl r hr) _ id).2 hd) hs

end Frames

section Survival

variable (X : Library) (ctx : BlockContext) (d : HeedDb)

/-- Read again on the database of a crash, a block adds nothing to it: its messages are
refused, or find the info they write. A creation of a subnet that has not started
takes back what has joined and prefunded it, and the joins and prefunds bring it back. -/
inductive Survives : List SubnetId → List Reading → Prop
  | done {created} : Survives created []
  | nothing {created r rest} : r.message X ctx d = .ok none →
      Survives created rest → Survives created (r :: rest)
  | refused {created r rest m} : r.message X ctx d = .ok (some m) → Refused X ctx d r.tx m →
      (∀ id ∈ created, genesisOf X r.tx m ≠ some id) →
      Survives created rest → Survives created (r :: rest)
  | stored {created r rest m id} : r.message X ctx d = .ok (some (.createSubnet m)) →
      m.validate = .ok () → id = .fromTxid (X.computeTxid r.tx) → id ∉ created →
      d.getSubnetGenesisInfo X id =
        some (m.genesisInfo ctx.blockHeight (X.computeTxid r.tx)) →
      Survives created rest → Survives created (r :: rest)
  | created {created r rest m id} : r.message X ctx d = .ok (some (.createSubnet m)) →
      m.validate = .ok () → id = .fromTxid (X.computeTxid r.tx) → d.getSubnetState X id = none →
      Survives (id :: created) rest → Survives created (r :: rest)
  | founded {created r rest m id} : r.message X ctx d = .ok (some m) →
      genesisOf X r.tx m = some id → id ∈ created →
      Survives created rest → Survives created (r :: rest)

/-- The replay holds the database of the crash, but for the genesis infos of the subnets
created again: these are what the first run had at the same message. -/
structure Agrees (s : HeedDb) (created : List SubnetId) (e : HeedDb) : Prop where
  same : SameButGenesis d e
  others : ∀ k, (∀ id ∈ created, k ≠ subnetGenesisInfoKey X id) →
    e.subnetGenesisDb.get k = d.subnetGenesisDb.get k
  rebuilt : ∀ id ∈ created, e.getSubnetGenesisInfo X id = s.getSubnetGenesisInfo X id
  unstarted : ∀ id ∈ created, d.getSubnetState X id = none

end Survival

/-- Writes the genesis info that a message leaves, if it leaves another one. -/
def writeInfo (X : Library) (db : HeedDb) (id : SubnetId) : Option SubnetGenesisInfo → HeedDb
  | none => db
  | some g => db.saveSubnetGenesisInfo X id g

section Replay

variable {X : Library} {cfg : Config} {ctx : BlockContext} {d s e : HeedDb}
  {created : List SubnetId}

theorem Agrees.eq (h : Agrees X d d created e) : e = d := by
  obtain ⟨table, rfl⟩ := h.same
  have htable : table = d.subnetGenesisDb := by
    refine Table.ext_get (fun k => ?_)
    by_cases hk : ∀ id ∈ created, k ≠ subnetGenesisInfoKey X id
    · exact h.others k hk
    · push Not at hk
      obtain ⟨id, hid, rfl⟩ := hk
      exact h.rebuilt id hid
  rw [htable]

/-- At the start of the replay nothing is created again. -/
theorem Agrees.refl (d s : HeedDb) : Agrees X d s [] d :=
  ⟨⟨_, rfl⟩, fun _ _ => rfl, by simp, by simp⟩

theorem Agrees.next {s' : HeedDb} (h : Agrees X d s created e)
    (hs : ∀ id ∈ created, s'.getSubnetGenesisInfo X id = s.getSubnetGenesisInfo X id) :
    Agrees X d s' created e :=
  ⟨h.same, h.others, fun id hid => (h.rebuilt id hid).trans (hs id hid).symm, h.unstarted⟩

section Laws

variable (laws : DisplayLaws X)
include laws

theorem Agrees.other (h : Agrees X d s created e) {id : SubnetId} (hid : id ∉ created) :
    e.getSubnetGenesisInfo X id = d.getSubnetGenesisInfo X id := by
  refine h.others _ (fun u hu heq => hid ?_)
  rwa [subnetKey_injective laws _ heq]

/-- A creation that finds the info it writes. -/
theorem Agrees.store (h : Agrees X d s created e) {id : SubnetId} {g : SubnetGenesisInfo}
    (hid : id ∉ created) (hstored : d.getSubnetGenesisInfo X id = some g) :
    Agrees X d s created (e.saveSubnetGenesisInfo X id g) := by
  obtain ⟨table, rfl⟩ := h.same
  refine ⟨⟨_, rfl⟩, ?_, ?_, h.unstarted⟩
  · intro k hk
    refine (Table.get_put table _ k g).trans ?_
    split_ifs with heq
    · rw [heq]
      exact hstored.symm
    · exact h.others k hk
  · intro u hu
    have hne : ¬ u = id := fun heq => hid (heq ▸ hu)
    rw [HeedDb.getSubnetGenesisInfo_save _ laws, if_neg hne]
    exact h.rebuilt u hu

theorem Agrees.write (h : Agrees X d s created e) {created' : List SubnetId} {id : SubnetId}
    (hcreated : ∀ u, u ∈ created' ↔ u = id ∨ u ∈ created) (hid : d.getSubnetState X id = none)
    {w : Option SubnetGenesisInfo}
    (hw : w.isSome = true ∨ id ∈ created) :
    Agrees X d (writeInfo X s id w) created' (writeInfo X e id w) := by
  obtain ⟨table, rfl⟩ := h.same
  cases w with
  | none =>
    have hin : id ∈ created := hw.resolve_left (by simp)
    have hold : ∀ u ∈ created', u ∈ created := by
      intro u hu
      rcases (hcreated u).mp hu with rfl | hu
      · exact hin
      · exact hu
    exact ⟨h.same, fun k hk => h.others k (fun u hu => hk u ((hcreated u).mpr (Or.inr hu))),
      fun u hu => h.rebuilt u (hold u hu), fun u hu => h.unstarted u (hold u hu)⟩
  | some g =>
    refine ⟨⟨_, rfl⟩, ?_, ?_, ?_⟩
    · intro k hk
      have hne : k ≠ subnetGenesisInfoKey X id := hk id ((hcreated id).mpr (Or.inl rfl))
      refine (Table.get_put_of_ne _ _ hne).trans (h.others k (fun u hu => ?_))
      exact hk u ((hcreated u).mpr (Or.inr hu))
    · intro u hu
      rw [writeInfo, writeInfo, HeedDb.getSubnetGenesisInfo_save _ laws,
        HeedDb.getSubnetGenesisInfo_save _ laws]
      by_cases heq : u = id
      · rw [if_pos heq, if_pos heq]
      · rw [if_neg heq, if_neg heq]
        exact h.rebuilt u (((hcreated u).mp hu).resolve_left heq)
    · intro u hu
      rcases (hcreated u).mp hu with rfl | hu
      · exact hid
      · exact h.unstarted u hu

end Laws

/-- A join of a subnet that has not started saves alike on two databases with its info. -/
theorem saveJoin_alike {m : IpcJoinSubnetMsg} (h : Nat) (hash : BlockHash) (txid : Txid)
    (hs : s.getSubnetState X m.subnetId = none) (he : e.getSubnetState X m.subnetId = none)
    (hinfo : e.getSubnetGenesisInfo X m.subnetId = s.getSubnetGenesisInfo X m.subnetId)
    (laws : DisplayLaws X) :
    (∃ f, m.saveToDb X s h hash txid = .error f ∧ m.saveToDb X e h hash txid = .error f) ∨
    (∃ g, m.saveToDb X s h hash txid = .ok (s.saveSubnetGenesisInfo X m.subnetId g, none) ∧
      m.saveToDb X e h hash txid = .ok (e.saveSubnetGenesisInfo X m.subnetId g, none)) ∨
    ∃ saved, m.saveToDb X s h hash txid = .ok saved ∧
      (saved.1.getSubnetState X m.subnetId).isSome = true := by
  unfold IpcJoinSubnetMsg.saveToDb
  rw [hs, he, hinfo]
  cases s.getSubnetGenesisInfo X m.subnetId with
  | none => exact Or.inl ⟨_, rfl, rfl⟩
  | some g =>
    simp only [okOr, ok_bind]
    cases (orInvalid (m.validateForSubnet g none) : Outcome IpcLibError Unit) with
    | error f => exact Or.inl ⟨f, rfl, rfl⟩
    | ok u =>
      simp only [ok_bind]
      cases (mapErr .multisigError
          (collateralToPower m.collateral g.createSubnetMsg.minValidatorStake) :
          Outcome IpcLibError Power) with
      | error f => exact Or.inl ⟨f, rfl, rfl⟩
      | ok power =>
        simp only [ok_bind, IpcJoinSubnetMsg.savePreBootstrap]
        split
        · cases hsub : ({ g with
              genesisValidators := g.genesisValidators ++ [m.newValidator X power txid],
              bootstrapped := true, genesisBlockHeight := some h } : SubnetGenesisInfo).toSubnet X
              (ε := IpcLibError) with
          | error f => exact Or.inl ⟨f, rfl, rfl⟩
          | ok st =>
            exact Or.inr (Or.inr ⟨_, rfl, congrArg Option.isSome
              ((HeedDb.getSubnetState_save s laws _ _ _).trans (if_pos rfl))⟩)
        · exact Or.inr (Or.inl ⟨_, rfl, rfl⟩)

/-- A program ends well on both databases, and writes the same genesis info. -/
def Alike (X : Library) (id : SubnetId) (s e : HeedDb) (p : MonitorProc Unit) : Prop :=
  (p e).outcome = .ok () ∧
    ∃ w, (p s).store s = writeInfo X s id w ∧ (p e).store e = writeInfo X e id w

variable {tx : Transaction}

theorem alike_of_leaves {id : SubnetId} {p : MonitorProc Unit} (hs : Leaves p s) (he : Leaves p e) :
    Alike X id s e p := by
  unfold Alike
  rw [hs, he]
  exact ⟨rfl, none, rfl, rfl⟩

/-- The same error, before anything is committed. -/
theorem alike_of_stopped {id : SubnetId} {p : MonitorProc Unit} {f : Failure MonitorError}
    (hs : p s = ⟨[], .error f⟩) (he : p e = ⟨[], .error f⟩)
    (hout : (Proc.handle p handleIpcMsgError s).outcome = .ok ()) :
    Alike X id s e (Proc.handle p handleIpcMsgError) := by
  have hends : ∀ {db}, p db = ⟨[], .error f⟩ → Leaves (Proc.handle p handleIpcMsgError) db := by
    intro db hdb
    unfold Leaves Proc.handle at *
    rw [hs] at hout
    rw [hdb]
    cases f with
    | error f => exact congrArg (Trace.mk []) hout
    | panic => cases hout
  exact alike_of_leaves (hends hs) (hends he)

/-- A valid creation writes its info and ends alike on every database. -/
theorem handle_create (cfg : Config) (ctx : BlockContext) (tx : Transaction)
    {m : IpcCreateSubnetMsg} (hvalid : m.validate = .ok ()) :
    ∃ out, ∀ db, handleMsg X cfg ctx tx (.createSubnet m) db =
      ⟨[db.saveSubnetGenesisInfo X (.fromTxid (X.computeTxid tx))
        (m.genesisInfo ctx.blockHeight (X.computeTxid tx))], out⟩ := by
  have hrun : ∃ x, ∀ db, processIpcMsg X cfg ctx tx (.createSubnet m) db =
      ⟨[db.saveSubnetGenesisInfo X (.fromTxid (X.computeTxid tx))
        (m.genesisInfo ctx.blockHeight (X.computeTxid tx))], x⟩ := by
    have hsteps : ∀ db, processIpcMsg X cfg ctx tx (.createSubnet m) db =
        (Proc.commit (db.saveSubnetGenesisInfo X (.fromTxid (X.computeTxid tx))
          (m.genesisInfo ctx.blockHeight (X.computeTxid tx))) >>= fun _ =>
          Proc.lift ((m.genesisInfo ctx.blockHeight (X.computeTxid tx)).multisigAddress X) >>=
            fun _ => pure ()) db := by
      intro db
      change (Proc.lift (orMsgInvalid m.validate) >>= _) db = _
      rw [hvalid]
      rfl
    cases haddress : (m.genesisInfo ctx.blockHeight (X.computeTxid tx)).multisigAddress X
      (ε := MonitorError) with
    | ok a =>
      refine ⟨.ok (), fun db => ?_⟩
      rw [hsteps, haddress]
      rfl
    | error f =>
      refine ⟨.error f, fun db => ?_⟩
      rw [hsteps, haddress]
      rfl
  obtain ⟨x, hrun⟩ := hrun
  refine ⟨(Proc.handle (Proc.lift x) handleIpcMsgError HeedDb.empty).outcome, fun db => ?_⟩
  unfold handleMsg Proc.handle
  rw [hrun]
  rcases x with (f | _) | _
  · rfl
  · rfl
  · rfl

theorem alike_create {m : IpcCreateSubnetMsg}
    (hout : (handleMsg X cfg ctx tx (.createSubnet m) s).outcome = .ok ()) :
    Alike X (.fromTxid (X.computeTxid tx)) s e (handleMsg X cfg ctx tx (.createSubnet m)) := by
  match hvalid : m.validate with
  | .ok () =>
    obtain ⟨out, hrun⟩ := handle_create cfg ctx tx hvalid
    unfold Alike
    rw [hrun] at hout
    rw [hrun, hrun]
    exact ⟨hout, some _, rfl, rfl⟩
  | .error (.error f) =>
    exact alike_of_leaves (refused_leaves ⟨f, hvalid⟩) (refused_leaves ⟨f, hvalid⟩)
  | .error .panic =>
    have hrun : ∀ db, processIpcMsg X cfg ctx tx (.createSubnet m) db = ⟨[], panicked⟩ := by
      intro db
      change (Proc.lift (orMsgInvalid m.validate) >>= _) db = _
      rw [hvalid]
      rfl
    exact alike_of_stopped (hrun s) (hrun e) hout

/-- A prefund does alike on two databases with the info of its subnet. -/
theorem alike_prefund {m : IpcPrefundSubnetMsg}
    (hinfo : e.getSubnetGenesisInfo X m.subnetId = s.getSubnetGenesisInfo X m.subnetId)
    (hout : (handleMsg X cfg ctx tx (.prefundSubnet m) s).outcome = .ok ()) :
    Alike X m.subnetId s e (handleMsg X cfg ctx tx (.prefundSubnet m)) := by
  have hrefused : ∀ {db : HeedDb}, db.getSubnetGenesisInfo X m.subnetId =
      s.getSubnetGenesisInfo X m.subnetId → InvalidOr m.validate (∀ g,
        s.getSubnetGenesisInfo X m.subnetId = some g → g.bootstrapped = true) →
      Leaves (handleMsg X cfg ctx tx (.prefundSubnet m)) db := by
    intro db heq h
    refine refused_leaves (h.imp_right (fun hno => ⟨hno.1, fun g hg => hno.2 g ?_⟩))
    rw [← heq, hg]
  have hboth : InvalidOr m.validate (∀ g,
      s.getSubnetGenesisInfo X m.subnetId = some g → g.bootstrapped = true) →
      Alike X m.subnetId s e (handleMsg X cfg ctx tx (.prefundSubnet m)) :=
    fun h => alike_of_leaves (hrefused rfl h) (hrefused hinfo h)
  match hvalid : m.validate with
  | .error (.error f) => exact hboth (Or.inl ⟨f, hvalid⟩)
  | .error .panic =>
    have hrun : ∀ db, processIpcMsg X cfg ctx tx (.prefundSubnet m) db = ⟨[], panicked⟩ := by
      intro db
      change (Proc.lift (orMsgInvalid m.validate) >>= _) db = _
      rw [hvalid]
      rfl
    exact alike_of_stopped (hrun s) (hrun e) hout
  | .ok () =>
    by_cases hclosed : ∀ g, s.getSubnetGenesisInfo X m.subnetId = some g → g.bootstrapped = true
    · exact hboth (Or.inr ⟨hvalid, hclosed⟩)
    · push Not at hclosed
      obtain ⟨g, hg, hopen⟩ := hclosed
      unfold Alike handleMsg Proc.handle
      rw [processIpcMsg_prefund cfg ctx hvalid hg hopen,
        processIpcMsg_prefund cfg ctx hvalid (hinfo.trans hg) hopen]
      exact ⟨rfl, some _, rfl, rfl⟩

/-- A join that passes its checks and is not saved. -/
theorem join_stopped {m m' : IpcJoinSubnetMsg} {db : HeedDb} {f : Failure MonitorError}
    (hchecked : checkJoin X tx db m = .ok m')
    (hsave : orProcessing (m'.saveToDb X db ctx.blockHeight ctx.blockHash (X.computeTxid tx)) =
      .error f) : processIpcMsg X cfg ctx tx (.joinSubnet m) db = ⟨[], .error f⟩ := by
  change (Proc.lift (checkJoin X tx db m) >>= _) db = _
  rw [hchecked, Proc.lift_ok_bind]
  change (Proc.lift (orProcessing (m'.saveToDb X db _ _ _)) >>= _) db = _
  rw [hsave]
  rfl

/-- A join that does not start its subnet. -/
theorem join_saved {m m' : IpcJoinSubnetMsg} {db db' : HeedDb}
    (hchecked : checkJoin X tx db m = .ok m')
    (hsave : m'.saveToDb X db ctx.blockHeight ctx.blockHash (X.computeTxid tx) = .ok (db', none)) :
    processIpcMsg X cfg ctx tx (.joinSubnet m) db = ⟨[db'], .ok ()⟩ := by
  change (Proc.lift (checkJoin X tx db m) >>= _) db = _
  rw [hchecked, Proc.lift_ok_bind]
  change (Proc.lift (orProcessing (m'.saveToDb X db _ _ _)) >>= _) db = _
  rw [hsave]
  rfl

theorem commits_join {m m' : IpcJoinSubnetMsg} {db : HeedDb} {saved : HeedDb × Option SubnetState}
    (hchecked : checkJoin X tx db m = .ok m')
    (hsave : m'.saveToDb X db ctx.blockHeight ctx.blockHash (X.computeTxid tx) = .ok saved) :
    (processIpcMsg X cfg ctx tx (.joinSubnet m) db).commits = [saved.1] := by
  obtain ⟨db', _ | st⟩ := saved
  · rw [join_saved hchecked hsave]
  · change ((Proc.lift (checkJoin X tx db m) >>= _) db).commits = _
    rw [hchecked, Proc.lift_ok_bind]
    change ((Proc.lift (orProcessing (m'.saveToDb X db _ _ _)) >>= _) db).commits = _
    rw [hsave]
    change db' :: ((Proc.lift st.committee.multisigAddress.requireNetwork >>= fun _ =>
      pure () : MonitorProc Unit) db').commits = [db']
    cases (st.committee.multisigAddress.requireNetwork : Outcome MonitorError _) with
    | ok _ => rfl
    | error _ => rfl

/-- A join does alike on two databases with the info of its subnet, unless it starts it. -/
theorem alike_join (laws : DisplayLaws X) {m : IpcJoinSubnetMsg}
    (hs : s.getSubnetState X m.subnetId = none) (he : e.getSubnetState X m.subnetId = none)
    (hinfo : e.getSubnetGenesisInfo X m.subnetId = s.getSubnetGenesisInfo X m.subnetId)
    (hout : (handleMsg X cfg ctx tx (.joinSubnet m) s).outcome = .ok ())
    (hlast : ((handleMsg X cfg ctx tx (.joinSubnet m) s).store s).getSubnetState X m.subnetId =
      none) :
    Alike X m.subnetId s e (handleMsg X cfg ctx tx (.joinSubnet m)) := by
  have hcheck : checkJoin X tx e m = checkJoin X tx s m := by
    simp only [checkJoin, hs, he, hinfo]
  cases hchecked : checkJoin X tx s m with
  | error f =>
    have hrun : ∀ {db}, checkJoin X tx db m = .error f →
        processIpcMsg X cfg ctx tx (.joinSubnet m) db = ⟨[], .error f⟩ := by
      intro db hfails
      change (Proc.lift (checkJoin X tx db m) >>= _) db = _
      rw [hfails]
      rfl
    exact alike_of_stopped (hrun hchecked) (hrun (hcheck.trans hchecked)) hout
  | ok m' =>
    have hchecked' := hcheck.trans hchecked
    have hid : m'.subnetId = m.subnetId := by rw [checkJoin_eq hchecked]
    rw [← hid] at hs he hinfo hlast ⊢
    rcases saveJoin_alike ctx.blockHeight ctx.blockHash (X.computeTxid tx)
      hs he hinfo laws with ⟨f, hsf, hef⟩ | ⟨g, hsg, heg⟩ | ⟨saved, hsaved, hsome⟩
    · cases f with
      | error f =>
        exact alike_of_stopped (f := .error (.ipcMsgProcessingError f))
          (join_stopped hchecked (congrArg orProcessing hsf))
          (join_stopped hchecked' (congrArg orProcessing hef)) hout
      | panic =>
        exact alike_of_stopped (f := .panic) (join_stopped hchecked (congrArg orProcessing hsf))
          (join_stopped hchecked' (congrArg orProcessing hef)) hout
    · unfold Alike handleMsg Proc.handle
      rw [join_saved hchecked hsg, join_saved hchecked' heg]
      exact ⟨rfl, some g, rfl, rfl⟩
    · -- the join would have started the subnet
      have hcommits : (processIpcMsg X cfg ctx tx (.joinSubnet m) s).commits = [saved.1] :=
        commits_join hchecked hsaved
      have hstore : (handleMsg X cfg ctx tx (.joinSubnet m) s).store s = saved.1 := by
        unfold handleMsg Proc.handle Trace.store
        split
        · rw [hcommits]
          rfl
        · rw [hcommits]
          rfl
        · rw [hcommits]
          rfl
      rw [hstore] at hlast
      rw [hlast] at hsome
      cases hsome

/-- A message that writes a genesis info does alike where its subnet has not started. -/
theorem alike_of_genesisOf (laws : DisplayLaws X) {m : IpcMessage} {id : SubnetId}
    (hm : genesisOf X tx m = some id) (hs : s.getSubnetState X id = none)
    (he : e.getSubnetState X id = none)
    (hinfo : e.getSubnetGenesisInfo X id = s.getSubnetGenesisInfo X id)
    (hout : (handleMsg X cfg ctx tx m s).outcome = .ok ())
    (hlast : ((handleMsg X cfg ctx tx m s).store s).getSubnetState X id = none) :
    Alike X id s e (handleMsg X cfg ctx tx m) := by
  cases m with
  | createSubnet m =>
    cases hm
    exact alike_create hout
  | joinSubnet m =>
    cases hm
    exact alike_join laws hs he hinfo hout hlast
  | prefundSubnet m =>
    cases hm
    exact alike_prefund hinfo hout
  | _ => cases hm

theorem Agrees.message_eq (ha : Agrees X d s created e) (r : Reading) :
    r.message X ctx e = r.message X ctx d := by
  obtain ⟨table, rfl⟩ := ha.same
  rfl

/-- The first run goes past a message that creates no subnet again. -/
theorem Agrees.past (laws : DisplayLaws X) {txs : List Transaction} {r : Reading}
    (hr : r ∈ readings X txs) (ha : Agrees X d s created e)
    (hother : ∀ m, r.message X ctx d = .ok (some m) →
      ∀ id ∈ created, genesisOf X r.tx m ≠ some id) :
    Agrees X d ((processReading X cfg ctx r s).store s) created e := by
  refine ha.next (fun id hid => ?_)
  refine (frame_of_reading laws cfg ctx hr s id).1 (fun m hm hgenesis => ?_)
  exact hother m (message_eq_of_genesisOf hm hgenesis d) id hid hgenesis

/-- A valid creation is read alike on both databases. -/
theorem Agrees.creates {r : Reading} {m : IpcCreateSubnetMsg} (ha : Agrees X d s created e)
    (hm : r.message X ctx d = .ok (some (.createSubnet m))) (hvalid : m.validate = .ok ())
    (hfirst : (processReading X cfg ctx r s).outcome = .ok ()) : ∀ db, db = s ∨ db = e →
      processReading X cfg ctx r db = ⟨[db.saveSubnetGenesisInfo X (.fromTxid (X.computeTxid r.tx))
        (m.genesisInfo ctx.blockHeight (X.computeTxid r.tx))], .ok ()⟩ := by
  obtain ⟨out, hcreate⟩ := handle_create cfg ctx r.tx hvalid
  have hruns := processReading_some cfg (message_eq_of_genesisOf hm rfl s)
  have hrun := processReading_some cfg ((ha.message_eq r).trans hm)
  rw [hcreate] at hruns hrun
  rw [hruns] at hfirst
  obtain rfl : out = .ok () := hfirst
  rintro db (rfl | rfl)
  · exact hruns
  · exact hrun

/-- A message that writes the info of a subnet created again. -/
theorem Agrees.founds (laws : DisplayLaws X) {txs : List Transaction} {r : Reading}
    (hr : r ∈ readings X txs) (ha : Agrees X d s created e) {m : IpcMessage} {id : SubnetId}
    (hm : r.message X ctx d = .ok (some m)) (hgenesis : genesisOf X r.tx m = some id)
    (hid : id ∈ created) (hfirst : (processReading X cfg ctx r s).outcome = .ok ())
    (hlast : ((processReading X cfg ctx r s).store s).getSubnetState X id = none) :
    (processReading X cfg ctx r e).outcome = .ok () ∧
      Agrees X d ((processReading X cfg ctx r s).store s) created
        ((processReading X cfg ctx r e).store e) := by
  have hruns := processReading_some cfg (message_eq_of_genesisOf hm hgenesis s)
  have hrun := processReading_some cfg ((ha.message_eq r).trans hm)
  have hs : s.getSubnetState X id = none := by
    by_contra hsome
    have hkept := (frame_of_reading laws cfg ctx hr s id).2 (Option.isSome_iff_ne_none.mpr hsome)
    rw [hlast] at hkept
    cases hkept
  have he : e.getSubnetState X id = none := by
    obtain ⟨table, rfl⟩ := ha.same
    exact ha.unstarted id hid
  rw [hruns] at hfirst hlast
  obtain ⟨hok, w, hws, hwe⟩ :=
    alike_of_genesisOf laws hgenesis hs he (ha.rebuilt id hid) hfirst hlast
  rw [hrun, hruns, hws, hwe]
  refine ⟨hok, ha.write laws (fun u => ?_) (ha.unstarted id hid) (Or.inr hid)⟩
  constructor
  · exact Or.inr
  · rintro (rfl | hu)
    · exact hid
    · exact hu

/-- One reading of what survives a crash. -/
theorem reading_survives (laws : DisplayLaws X) {txs : List Transaction} {r : Reading}
    {rest : List Reading} (h : Survives X ctx d created (r :: rest)) (hr : r ∈ readings X txs)
    (hfirst : (processReading X cfg ctx r s).outcome = .ok ())
    (hunstarted : ∀ id, d.getSubnetState X id = none →
      ((processReading X cfg ctx r s).store s).getSubnetState X id = none)
    (ha : Agrees X d s created e) :
    ∃ created', Survives X ctx d created' rest ∧
      (processReading X cfg ctx r e).outcome = .ok () ∧
      Agrees X d ((processReading X cfg ctx r s).store s) created'
        ((processReading X cfg ctx r e).store e) := by
  have hsame : r.message X ctx e = r.message X ctx d := ha.message_eq r
  cases h with
  | nothing hnone hsurvives =>
    have hrun := processReading_none cfg (hsame.trans hnone)
    refine ⟨_, hsurvives, by rw [hrun], ?_⟩
    rw [hrun]
    refine ha.past laws hr (fun m hm => ?_)
    rw [hnone] at hm
    cases hm
  | @refused _ _ _ m hm hrefused hother hsurvives =>
    have hrun := processReading_some cfg (hsame.trans hm)
    have hleaves : Leaves (handleMsg X cfg ctx r.tx m) e := by
      refine refused_leaves (refused_congr ha.same (fun id => ?_) hrefused)
      by_cases hid : id ∈ created
      · exact Or.inr ⟨ha.unstarted id hid, hother id hid⟩
      · exact Or.inl (ha.other laws hid)
    rw [hleaves] at hrun
    refine ⟨_, hsurvives, by rw [hrun], ?_⟩
    rw [hrun]
    refine ha.past laws hr (fun m' hm' => ?_)
    rw [hm] at hm'
    cases hm'
    exact hother
  | @stored _ _ _ m id hm hvalid hid hnew hstored hsurvives =>
    have hrun := ha.creates hm hvalid hfirst e (Or.inr rfl)
    have hpast : Agrees X d ((processReading X cfg ctx r s).store s) created e := by
      refine ha.past laws hr (fun m' hm' u hu hgenesis => hnew ?_)
      rw [hm] at hm'
      cases hm'
      cases hgenesis
      rwa [hid]
    refine ⟨_, hsurvives, by rw [hrun], ?_⟩
    rw [hrun, ← hid]
    exact hpast.store laws hnew hstored
  | @created _ _ _ m id hm hvalid hid hnone hsurvives =>
    have hboth := ha.creates hm hvalid hfirst
    refine ⟨_, hsurvives, by rw [hboth e (Or.inr rfl)], ?_⟩
    rw [hboth e (Or.inr rfl), hboth s (Or.inl rfl), ← hid]
    exact ha.write laws (w := some _) (fun u => List.mem_cons) hnone (Or.inl rfl)
  | @founded _ _ _ m id hm hgenesis hid hsurvives =>
    obtain ⟨hok, hagrees⟩ := ha.founds laws hr hm hgenesis hid hfirst
      (hunstarted id (ha.unstarted id hid))
    exact ⟨_, hsurvives, hok, hagrees⟩

/-- What survives a crash is read again without a trace. -/
theorem replay_survives (laws : DisplayLaws X) {txs : List Transaction} {l : List Reading}
    (h : Survives X ctx d created l) (hl : ∀ r ∈ l, r ∈ readings X txs)
    (hout : (Proc.each (processReading X cfg ctx) l s).outcome = .ok ())
    (hd : (Proc.each (processReading X cfg ctx) l s).store s = d) (ha : Agrees X d s created e) :
    (Proc.each (processReading X cfg ctx) l e).outcome = .ok () ∧
      (Proc.each (processReading X cfg ctx) l e).store e = d := by
  induction l generalizing s e created with
  | nil =>
    obtain rfl : s = d := hd
    exact ⟨rfl, ha.eq⟩
  | cons r rest ih =>
    have hrest : ∀ r' ∈ rest, r' ∈ readings X txs :=
      fun r' hr' => hl r' (List.mem_cons_of_mem r hr')
    obtain ⟨hfirst, hthen⟩ := Proc.each_eq_ok.mp hout
    rw [Proc.each_cons, Proc.store_bind hfirst] at hd
    -- a state that the first run made would still be there
    have hunstarted : ∀ id, d.getSubnetState X id = none →
        ((processReading X cfg ctx r s).store s).getSubnetState X id = none := by
      intro id hnone
      by_contra hsome
      have hstarted := started_of_readings laws cfg ctx hrest
        (Option.isSome_iff_ne_none.mpr hsome)
      rw [hd, hnone] at hstarted
      cases hstarted
    obtain ⟨created', hsurvives, hok, hagrees⟩ :=
      reading_survives laws h (hl r List.mem_cons_self) hfirst hunstarted ha
    obtain ⟨hok', hstore'⟩ := ih hsurvives hrest (Proc.each_eq_ok.mpr hthen) hd hagrees
    rw [Proc.each_cons, Proc.store_bind hok, Proc.bind_ok hok]
    exact ⟨hok', hstore'⟩

end Replay

end Monitor
