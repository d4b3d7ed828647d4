import BitcoinIpc.Backing
import BitcoinIpc.KillQuorum
import BitcoinIpc.Replays

/-!
# Crashes between two commits

The messages of a block, its height and its rewards are committed one after the
other, and a restarted monitor reads how far it came from the height alone, so it
processes again what was committed before the crash. A restart ends as if there
had been no crash when those messages survive their replay, or when the crash
comes after the height and every commit of the rewards.
-/

namespace Monitor

open Faults Bytes Chain Messages Crates Multisig Db Commits Rewards OrderedTable

section Restarts

variable (X : Library) (cfg : Config) (ctx : BlockContext) (txs : List Transaction)

/-- The database at a crash after `k` commits of the block. -/
def crashedAt (db : HeedDb) (k : Nat) : HeedDb :=
  ((syncBlock X cfg ctx txs db).commits.take k).getLastD db

/-- The monitor resumes after the last processed block, so the block is processed
again unless its height is stored. -/
def restarted (db : HeedDb) : HeedDb :=
  if db.getLastProcessedBlock < ctx.blockHeight then (syncBlock X cfg ctx txs db).store db else db

/-- Whether the reward tracker has work to do after a block of the height. -/
def rewardsDue (height : Nat) : Bool :=
  match cfg.rewardTracker with
  | none => false
  | some c =>
    match c.snapshotBoundariesFromHeight height with
    | none => false
    | some (_, start, stop) => height = start ∨ height = stop

/-- The crash comes after a message of the block, and what was read of the block up to there
survives its replay; or it comes after the commit of the height and whatever the reward
tracker commits after it. -/
def CleanCrash (db : HeedDb) (k : Nat) : Prop :=
  (∃ done rest, readings X txs = done ++ rest ∧
    (Proc.each (processReading X cfg ctx) done db).outcome = .ok () ∧
    (Proc.each (processReading X cfg ctx) done db).commits.length = k ∧
    Survives X ctx (crashedAt X cfg ctx txs db k) [] done) ∨
  ((crashedAt X cfg ctx txs db k).getLastProcessedBlock = ctx.blockHeight ∧
    (rewardsDue cfg ctx.blockHeight = true → (syncBlock X cfg ctx txs db).commits.length ≤ k))

end Restarts

/-- The two versions store the same height. -/
def SameHeight (db db' : HeedDb) : Prop := db'.monitorInfo = db.monitorInfo

theorem SameHeight.refl (db : HeedDb) : SameHeight db db := rfl

theorem SameHeight.trans (a b c : HeedDb) (h₁ : SameHeight a b) (h₂ : SameHeight b c) :
    SameHeight a c := Eq.trans h₂ h₁

variable {X : Library} {cfg : Config} {ctx : BlockContext} {tx : Transaction} {db db' : HeedDb}

theorem sameHeight_recordStake (id : SubnetId) (s : SubnetState) (next : SubnetCommittee)
    (requests : List StakeChangeRequest) : SameHeight db (recordStake X db id s next requests) := by
  obtain ⟨table, hframe⟩ := foldl_addStakeChange_frame (X := X) id requests
    (db.saveSubnetState X id { s with waitingCommittee := some next })
  rw [recordStake, hframe]
  rfl

theorem sameHeight_join {m : IpcJoinSubnetMsg} {h : Nat} {hash : BlockHash} {txid : Txid}
    {saved : HeedDb × Option SubnetState} (hsave : m.saveToDb X db h hash txid = .ok saved) :
    SameHeight db saved.1 := by
  cases hst : db.getSubnetState X m.subnetId with
  | none =>
    obtain ⟨g, -, -, -, ⟨-, rfl⟩ | ⟨s, -, -, rfl⟩⟩ := IpcJoinSubnetMsg.saveToDb_pre hst hsave
    · rfl
    · rfl
  | some s =>
    obtain ⟨next, -, -, -, rfl⟩ := IpcJoinSubnetMsg.saveToDb_post hst hsave
    exact sameHeight_recordStake _ _ _ _

theorem sameHeight_checkpoint {m : IpcCheckpointSubnetMsg} {h : Nat} {hash : BlockHash}
    {txid : Txid} {saved : HeedDb × SubnetCheckpoint}
    (hsave : m.saveToDb X db h hash txid = .ok saved) : SameHeight db saved.1 := by
  obtain ⟨s, change, -, -, rfl⟩ := IpcCheckpointSubnetMsg.saveToDb_eq_ok hsave
  unfold IpcCheckpointSubnetMsg.checkpointedDb
  cases change with
  | none => rfl
  | some c =>
    dsimp only
    obtain ⟨table, hframe⟩ := foldl_addStakeChange_frame (X := X) m.subnetId _ _
    rw [HeedDb.confirmStakeChanges, hframe]
    rfl

theorem sameHeight_of_sameButRewards (h : SameButRewards db db') : SameHeight db db' := by
  obtain ⟨_, _, rfl⟩ := h
  rfl

theorem within_rewardCheckpoint (m : IpcCheckpointSubnetMsg) (r : SubnetCheckpoint) (db : HeedDb) :
    Within SameHeight db (rewardCheckpoint X cfg ctx m r) :=
  (steps_rewardCheckpoint m r).within SameHeight.trans
    (fun _ _ _ h => sameHeight_of_sameButRewards h.2) db

theorem within_rewardBlock (db : HeedDb) : Within SameHeight db (rewardBlock X cfg ctx) :=
  (steps_rewardBlock cfg ctx).within SameHeight.trans
    (fun _ _ _ h => sameHeight_of_sameButRewards h.2) db

/-- No message touches the height. -/
theorem within_processIpcMsg (m : IpcMessage) (db : HeedDb) :
    Within SameHeight db (processIpcMsg X cfg ctx tx m) := by
  cases m with
  | createSubnet m =>
    refine within_lift_bind (fun _ _ => within_read_bind ?_)
    refine within_commit_bind SameHeight.trans (show SameHeight _ _ from rfl) ?_
    exact within_lift_bind (fun _ _ => within_of_nil rfl)
  | joinSubnet m =>
    refine within_lift_bind (fun _ _ => within_lift_bind (fun saved hsave => ?_))
    refine within_commit_bind SameHeight.trans (sameHeight_join (mapErr_eq_ok.mp hsave)) ?_
    split
    · exact within_lift_bind (fun _ _ => within_of_nil rfl)
    · exact within_of_nil rfl
  | prefundSubnet m =>
    refine within_lift_bind (fun _ _ => within_lift_bind (fun saved hsave => within_commit ?_))
    obtain ⟨g, -, -, rfl⟩ := IpcPrefundSubnetMsg.saveToDb_eq_ok (mapErr_eq_ok.mp hsave)
    rfl
  | fundSubnet m =>
    refine within_lift_bind (fun _ _ => within_lift_bind (fun saved hsave => within_commit ?_))
    obtain ⟨s, -, rfl⟩ := IpcFundSubnetMsg.saveToDb_eq_ok (mapErr_eq_ok.mp hsave)
    rfl
  | checkpointSubnet m =>
    refine within_lift_bind (fun _ _ => within_lift_bind (fun saved hsave => ?_))
    refine within_commit_bind SameHeight.trans (sameHeight_checkpoint (mapErr_eq_ok.mp hsave)) ?_
    refine within_read_bind ?_
    refine within_commit_bind SameHeight.trans (show SameHeight _ _ from rfl) ?_
    refine Within.bind SameHeight.refl SameHeight.trans
      (within_of_nil (importCommittee_commits m saved.2 _)) (fun _ d _ => ?_)
    exact within_rewardCheckpoint m saved.2 d
  | batchTransfer m =>
    refine within_lift_bind (fun _ _ => within_lift_bind (fun saved hsave => within_commit ?_))
    obtain ⟨_, _, _, heq⟩ := IpcBatchTransferMsg.sameButBatch_saveToDb (mapErr_eq_ok.mp hsave)
    rw [heq]
    rfl
  | stakeCollateral m =>
    refine within_lift_bind (fun _ _ => within_lift_bind (fun saved hsave => within_commit ?_))
    obtain ⟨s, v, next, -, -, -, rfl⟩ :=
      IpcStakeCollateralMsg.saveToDb_eq_ok (mapErr_eq_ok.mp hsave)
    exact sameHeight_recordStake _ _ _ _
  | unstakeCollateral m =>
    refine within_lift_bind (fun _ _ => within_lift_bind (fun saved hsave => within_commit ?_))
    obtain ⟨s, v, next, -, -, -, -, -, rfl⟩ :=
      IpcUnstakeCollateralMsg.saveToDb_eq_ok (mapErr_eq_ok.mp hsave)
    exact sameHeight_recordStake _ _ _ _
  | killSubnet m =>
    refine within_lift_bind (fun _ _ => within_lift_bind (fun saved hsave => within_commit ?_))
    obtain ⟨s, r, -, rfl | ⟨marked, -, rfl⟩⟩ :=
      IpcKillSubnetMsg.saveToDb_eq_ok (mapErr_eq_ok.mp hsave)
    · rfl
    · rfl

theorem within_processReading (r : Reading) (db : HeedDb) :
    Within SameHeight db (processReading X cfg ctx r) := by
  refine within_read_bind (within_lift_bind (fun found _ => ?_))
  cases found with
  | none => exact within_of_nil rfl
  | some m => exact (within_processIpcMsg m db).handle _

theorem within_readings (l : List Reading) (db : HeedDb) :
    Within SameHeight db (Proc.each (processReading X cfg ctx) l) :=
  within_each SameHeight.refl SameHeight.trans within_processReading l db

theorem within_processBlockData (txs : List Transaction) (db : HeedDb) :
    Within SameHeight db (processBlockData X cfg ctx txs) := by
  rw [processBlockData_eq]
  exact within_readings _ db

/-- Without work for the reward tracker nothing is committed after the height. -/
theorem commits_rewardBlock (h : rewardsDue cfg ctx.blockHeight = false) (db : HeedDb) :
    (rewardBlock X cfg ctx db).commits = [] := by
  unfold rewardBlock
  cases hc : cfg.rewardTracker with
  | none => rfl
  | some c =>
    cases hb : c.snapshotBoundariesFromHeight ctx.blockHeight with
    | none => simp [updateAfterBlock, hb, Proc.handle]
    | some b =>
      obtain ⟨snapshot, start, stop⟩ := b
      simp only [rewardsDue, hc, hb, decide_eq_false_iff_not, not_or] at h
      simp [updateAfterBlock, hb, startSnapshot, endSnapshot, h.1, h.2, Proc.handle, Bind.bind,
        Proc.andThen]

/-- The commits of a block without work for the reward tracker. -/
theorem commits_syncBlock (h : rewardsDue cfg ctx.blockHeight = false) (txs : List Transaction)
    (db : HeedDb) :
    (syncBlock X cfg ctx txs db).commits = (processBlockData X cfg ctx txs db).commits ∨
      ∃ last, (syncBlock X cfg ctx txs db).commits =
        (processBlockData X cfg ctx txs db).commits ++ [last] := by
  unfold syncBlock
  cases hout : (processBlockData X cfg ctx txs db).outcome with
  | error e =>
    rw [Proc.bind_error hout]
    exact Or.inl rfl
  | ok u =>
    rw [Proc.bind_ok hout]
    refine Or.inr ⟨((processBlockData X cfg ctx txs db).store db).setLastProcessedBlock
      ctx.blockHeight, ?_⟩
    rw [Proc.read_bind, Proc.commit_bind, commits_rewardBlock h]

/-- A block is processed up to a message, and then on from it. -/
theorem exists_rest (cfg : Config) (ctx : BlockContext) {txs : List Transaction}
    {done rest : List Reading} (hsplit : readings X txs = done ++ rest) :
    ∃ p : MonitorProc Unit, ∀ db,
      syncBlock X cfg ctx txs db =
        (Proc.each (processReading X cfg ctx) done >>= fun _ => p) db := by
  refine ⟨Proc.each (processReading X cfg ctx) rest >>= fun _ => do
    let db ← Proc.read
    Proc.commit (db.setLastProcessedBlock ctx.blockHeight)
    rewardBlock X cfg ctx, fun db => ?_⟩
  rw [← Proc.bind_assoc_apply, ← Proc.each_append_bind, ← hsplit, ← processBlockData_eq]
  rfl

/-- What is committed up to a message is the database of a crash after it. -/
theorem crashedAt_eq {txs : List Transaction} {done rest : List Reading}
    (hsplit : readings X txs = done ++ rest)
    (hok : (Proc.each (processReading X cfg ctx) done db).outcome = .ok ()) :
    crashedAt X cfg ctx txs db (Proc.each (processReading X cfg ctx) done db).commits.length =
      (Proc.each (processReading X cfg ctx) done db).store db := by
  obtain ⟨p, hp⟩ := exists_rest cfg ctx hsplit
  rw [crashedAt, hp, Proc.bind_ok hok, List.take_left]
  rfl

/-- Without work for the reward tracker, a crash before the last commit comes before the height. -/
theorem sameHeight_crashedAt {txs : List Transaction} {k : Nat}
    (hdue : rewardsDue cfg ctx.blockHeight = false)
    (hlt : k < (syncBlock X cfg ctx txs db).commits.length) :
    SameHeight db (crashedAt X cfg ctx txs db k) := by
  have hwithin : Within SameHeight db (processBlockData X cfg ctx txs) :=
    within_processBlockData txs db
  have hmessages : ∀ d ∈ (syncBlock X cfg ctx txs db).commits.take k, SameHeight db d := by
    intro d hd
    refine hwithin d ?_
    obtain heq | ⟨last, heq⟩ := commits_syncBlock (X := X) hdue txs db
    · rw [heq] at hd
      exact List.mem_of_mem_take hd
    · rw [heq, List.length_append, List.length_singleton] at hlt
      rw [heq, List.take_append_of_le_length (by omega)] at hd
      exact List.mem_of_mem_take hd
  unfold crashedAt
  rcases List.eq_nil_or_concat ((syncBlock X cfg ctx txs db).commits.take k) with
    hnil | ⟨init, d, hlast⟩
  · rw [hnil]
    exact SameHeight.refl db
  · rw [hlast, List.concat_eq_append, List.getLastD_concat]
    exact hmessages d (by simp [hlast])

/-- A restart after a clean crash ends with the database of a run without a crash. -/
theorem restart_resumes (laws : DisplayLaws X) {txs : List Transaction} {k : Nat}
    (hheight : ctx.blockHeight = db.getLastProcessedBlock + 1)
    (hclean : CleanCrash X cfg ctx txs db k) :
    restarted X cfg ctx txs (crashedAt X cfg ctx txs db k) =
      (syncBlock X cfg ctx txs db).store db := by
  rcases hclean with ⟨done, rest, hsplit, hok, rfl, hsurvives⟩ | ⟨hstored, hdone⟩
  · have hcrash := crashedAt_eq hsplit hok
    have hsame : SameHeight db (crashedAt X cfg ctx txs db
        (Proc.each (processReading X cfg ctx) done db).commits.length) := by
      rw [hcrash]
      exact (within_readings done db).store SameHeight.refl
    have hearly : (crashedAt X cfg ctx txs db
        (Proc.each (processReading X cfg ctx) done db).commits.length).getLastProcessedBlock <
        ctx.blockHeight := by
      rw [HeedDb.getLastProcessedBlock, hsame]
      change db.getLastProcessedBlock < _
      omega
    have hl : ∀ r ∈ done, r ∈ readings X txs := by
      intro r hr
      rw [hsplit]
      exact List.mem_append_left _ hr
    obtain ⟨hreplayed, hreturned⟩ :=
      replay_survives laws hsurvives hl hok hcrash.symm (Agrees.refl _ _)
    -- from the crash on, both runs are the same
    obtain ⟨p, hp⟩ := exists_rest cfg ctx hsplit
    rw [restarted, if_pos hearly, hp, hp, Proc.store_bind hok, Proc.store_bind hreplayed,
      hreturned, hcrash]
  · have hall : (syncBlock X cfg ctx txs db).commits.length ≤ k := by
      cases hdue : rewardsDue cfg ctx.blockHeight with
      | true => exact hdone hdue
      | false =>
        -- the height is stored after the messages, so nothing is missing
        by_contra hlt
        have hsame : SameHeight db (crashedAt X cfg ctx txs db k) :=
          sameHeight_crashedAt hdue (by omega)
        have hlast : (crashedAt X cfg ctx txs db k).getLastProcessedBlock =
            db.getLastProcessedBlock := by
          rw [HeedDb.getLastProcessedBlock, hsame]
          rfl
        omega
    rw [restarted, if_neg (by omega), crashedAt, List.take_of_length_le hall]
    rfl

section Repeated

variable (laws : DisplayLaws X)
include laws

omit laws in
theorem checkJoin_unique {db' : HeedDb} {m₀ m m' : IpcJoinSubnetMsg}
    (h : checkJoin X tx db m₀ = .ok m) (h' : checkJoin X tx db' m₀ = .ok m') : m = m' := by
  obtain ⟨out, hout, hvalue⟩ := checkJoin_collateral h
  obtain ⟨out', hout', hvalue'⟩ := checkJoin_collateral h'
  rw [checkJoin_eq h, checkJoin_eq h', hvalue, hvalue', Option.some.inj (hout.symm.trans hout')]

omit laws in
theorem isValidator_of_new {m : IpcJoinSubnetMsg} {c : SubnetCommittee} {vs : List SubnetValidator}
    {power : Power} {txid : Txid} (h : c.validators = vs ++ [m.newValidator X power txid]) :
    c.isValidator m.pubkey = true := by
  refine SubnetCommittee.isValidator_iff.mpr ⟨m.newValidator X power txid, ?_, rfl⟩
  rw [h]
  exact List.mem_append_right _ (List.mem_singleton.mpr rfl)

/-- A validator that has joined is refused when its join is read again. -/
theorem refused_after_join (hsound : Sound X db) {m₀ m : IpcJoinSubnetMsg}
    {saved : HeedDb × Option SubnetState} (hchecked : checkJoin X tx db m₀ = .ok m)
    (hsave : m.saveToDb X db ctx.blockHeight ctx.blockHash (X.computeTxid tx) = .ok saved) :
    Refused X ctx saved.1 tx (.joinSubnet m₀) := by
  refine fails_of_endures (endures_checkJoin m₀) (fun m' hagain => ?_)
  obtain rfl : m' = m := checkJoin_unique hagain hchecked
  obtain ⟨g', hg', hvalid⟩ := checkJoin_spec hagain
  cases hst : db.getSubnetState X m'.subnetId with
  | none =>
    obtain ⟨g, hg, -, -, ⟨-, rfl⟩ | ⟨s, -, hsub, rfl⟩⟩ := IpcJoinSubnetMsg.saveToDb_pre hst hsave
    · have hstate : (db.saveSubnetGenesisInfo X m'.subnetId
          (m'.joinedGenesis X g (X.computeTxid tx))).getSubnetState X m'.subnetId = none := hst
      rw [hstate] at hvalid
      rw [HeedDb.getSubnetGenesisInfo_save db laws, if_pos rfl] at hg'
      obtain rfl := Option.some.inj hg'
      obtain ⟨_, -, hpre⟩ := bind_eq_ok.mp hvalid
      obtain ⟨_, -, hfresh⟩ := bind_eq_ok.mp hpre
      exact ensure_eq_ok.mp hfresh (by simp [IpcJoinSubnetMsg.joinedGenesis,
        IpcJoinSubnetMsg.newValidator])
    · obtain ⟨hgid, ⟨t, ht⟩, -⟩ := hsound.genesis _ g hg
      obtain ⟨c, hc, hsub⟩ := bind_eq_ok.mp hsub
      obtain rfl := (Except.ok.inj hsub).symm
      have hstarted : ∀ st gs n, (((db.saveSubnetState X m'.subnetId st).saveSubnetGenesisInfo X
          m'.subnetId gs).saveCommittee X m'.subnetId n c).getSubnetState X m'.subnetId = some st :=
        fun _ _ _ => Table.get_put_self _ _ _
      rw [hstarted] at hvalid
      have hcurrent := (not_isValidator_of_validateForSubnet hvalid).1
      have hgt : (IpcJoinSubnetMsg.startedGenesis (m'.joinedGenesis X g (X.computeTxid tx))
        ctx.blockHeight).subnetId = .fromTxid20 t := hgid.trans ht
      rw [hgt] at hc
      rw [isValidator_of_new (toCommittee_eq_ok hc).1] at hcurrent
      cases hcurrent
  | some s =>
    obtain ⟨next, hid, -, hnext, rfl⟩ := IpcJoinSubnetMsg.saveToDb_post hst hsave
    obtain ⟨t, -, hst', -, -⟩ := hsound.state laws hst
    rw [hst'] at hnext
    obtain ⟨-, hrebuilt⟩ := SubnetCommittee.joinNewValidator_eq_ok hnext
    have hsaved : ∀ requests, (recordStake X db m'.subnetId s next requests).getSubnetState X
        m'.subnetId = some { s with waitingCommittee := some next } := by
      intro requests
      rw [HeedDb.getSubnetState, subnetDb_recordStake]
      exact Table.get_put_self _ _ _
    rw [hsaved] at hvalid
    have hlatest := (not_isValidator_of_validateForSubnet hvalid).2
    rw [SubnetState.latestCommittee, Option.getD_some, isValidator_of_new hrebuilt.validators_eq]
      at hlatest
    cases hlatest

/-- A validator that has asked for the kill is refused when it is read again. -/
theorem refused_after_kill (hsound : Sound X db) {m : IpcKillSubnetMsg} {db' : HeedDb}
    (hvalid : m.validate = .ok ())
    (hsave : m.saveToDb X db ctx.blockHeight ctx.blockHash (X.computeTxid tx) = .ok db') :
    Refused X ctx db' tx (.killSubnet m) := by
  obtain ⟨k, s, hk, hadded⟩ := killAdded_of_saveToDb hsave
  obtain ⟨t, hid, -⟩ := hsound.state laws hadded.state
  refine Or.inr ⟨hvalid, fun _ _ _ _ => Or.inr ⟨k, hk, ?_⟩⟩
  refine List.any_eq_true.mpr ⟨⟨k, ctx.blockHeight, ctx.blockHash, X.computeTxid tx⟩, ?_,
    decide_eq_true rfl⟩
  rw [mem_getValidKillRequests]
  refine ⟨Nat.sub_le _ _, killRequestKey X m.subnetId ctx.blockHeight (X.computeTxid tx), ?_, ?_⟩
  · rw [hid, isPrefixOf_killRequestKey laws]
    exact decide_eq_true rfl
  · rw [hadded.recorded]
    exact Table.get_put_self _ _ _

omit laws in
/-- The collateral is read of the transaction. -/
theorem checkJoin_of_savedAs {m m' : IpcJoinSubnetMsg}
    (h : SavedAs (.joinSubnet m) (.joinSubnet m')) :
    checkJoin X tx db m' = checkJoin X tx db m := by
  have hm : m' = { m with collateral := m'.collateral } := h
  rw [hm]
  rfl

/-- A crash right after a creation, a join or a kill leaves nothing to be processed twice. -/
theorem survives_of_commit (hsound : Sound X db) {r : Reading} {m m' : IpcMessage} {d : HeedDb}
    (hread : r.message X ctx d = .ok (some m)) (hsaved : SavedAs m m')
    (hcommit : Commit X db (.message ctx r.tx m') d)
    (hkind : (∃ c, m = .createSubnet c) ∨ (∃ j, m = .joinSubnet j) ∨ ∃ k, m = .killSubnet k) :
    Survives X ctx d [] [r] := by
  rcases hkind with ⟨c, rfl⟩ | ⟨j, rfl⟩ | ⟨k, rfl⟩
  · obtain rfl : m' = .createSubnet c := hsaved
    cases hcommit with
    | createSubnet _ hvalid =>
      exact .stored hread hvalid rfl (by simp)
        ((HeedDb.getSubnetGenesisInfo_save db laws _ _ _).trans (if_pos rfl)) .done
  · cases hcommit with
    | @joinSubnet _ _ j' j'' saved hparsed hchecked hsave =>
      have hsame : checkJoin X r.tx db j = checkJoin X r.tx db j' :=
        (checkJoin_of_savedAs hsaved).symm.trans
          (checkJoin_of_savedAs (show SavedAs (.joinSubnet j') _ from checkJoin_eq hchecked))
      exact .refused hread (refused_after_join laws hsound (hsame.trans hchecked) hsave)
        (by simp) .done
    | _ => cases hsaved
  · obtain rfl : m' = .killSubnet k := hsaved
    cases hcommit with
    | killSubnet _ hvalid hsave =>
      exact .refused hread (refused_after_kill laws hsound hvalid hsave) (by simp) .done

end Repeated

open Solo

/-- The creation and the first of two joins, with the messages that are read of them. -/
def foundingReadings : List Reading :=
  [⟨createTx, some (.createSubnet ⟨10000, 2, 1, 2, 1, [key, secondKey]⟩)⟩, ⟨createTx, none⟩,
    ⟨joinTx 100000, some (.joinSubnet joinMsg)⟩, ⟨joinTx 100000, none⟩]

/-- A crash between the two joins that start a subnet, in the block of its creation. -/
theorem restart_resumes_while_founding :
    CleanCrash votersLibrary ⟨none⟩ context votersTxs HeedDb.empty 2 ∧
      restarted votersLibrary ⟨none⟩ context votersTxs
          (crashedAt votersLibrary ⟨none⟩ context votersTxs HeedDb.empty 2) =
        (syncBlock votersLibrary ⟨none⟩ context votersTxs HeedDb.empty).store HeedDb.empty := by
  have hclean : CleanCrash votersLibrary ⟨none⟩ context votersTxs HeedDb.empty 2 := by
    refine Or.inl ⟨foundingReadings, (readings votersLibrary votersTxs).drop 4,
      of_decide_eq_true (by decide +kernel),
      toOption_eq_some.mp (of_decide_eq_true (by decide +kernel)),
      of_decide_eq_true (by decide +kernel), ?_⟩
    refine .created rfl (toOption_eq_some.mp (of_decide_eq_true (by decide +kernel))) rfl
      (of_decide_eq_true (by decide +kernel)) ?_
    refine .nothing (toOption_eq_some.mp (of_decide_eq_true (by decide +kernel))) ?_
    refine .founded rfl rfl (of_decide_eq_true (by decide +kernel)) ?_
    exact .nothing (toOption_eq_some.mp (of_decide_eq_true (by decide +kernel))) .done
  exact ⟨hclean, restart_resumes (displayLaws_ideal _) (of_decide_eq_true (by decide +kernel))
    hclean⟩

/-- The block with the funding of the subnet. -/
def fundBlock : List Transaction := [fundTx (address 10).scriptPubkey]

/-- After a crash between the funding and the height, the subnet is funded twice. -/
theorem crash_funds_twice :
    ¬ ∀ X : Library, DisplayLaws X → ∀ cfg ctx txs db k, Reachable X db →
      ctx.blockHeight = db.getLastProcessedBlock + 1 →
      k ≤ (syncBlock X cfg ctx txs db).commits.length →
      restarted X cfg ctx txs (crashedAt X cfg ctx txs db k) =
        (syncBlock X cfg ctx txs db).store db := by
  intro hall
  have hlaws : DisplayLaws (library 10000 []) := displayLaws_ideal _
  have hsame := hall (library 10000 []) hlaws ⟨none⟩ context fundBlock startedDb 1
    reachable_startedDb (of_decide_eq_true (by decide +kernel))
    (of_decide_eq_true (by decide +kernel))
  have hmessages : ((restarted (library 10000 []) ⟨none⟩ context fundBlock
        (crashedAt (library 10000 []) ⟨none⟩ context fundBlock startedDb 1)).getAllRootnetMsgs
          (library 10000 []) (.fromTxid20 subnet)).length = 2 ∧
      (((syncBlock (library 10000 []) ⟨none⟩ context fundBlock startedDb).store
        startedDb).getAllRootnetMsgs (library 10000 []) (.fromTxid20 subnet)).length = 1 :=
    of_decide_eq_true (by decide +kernel)
  rw [hsame] at hmessages
  omega

end Monitor
