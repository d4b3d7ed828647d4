import BitcoinIpc.Sound
import BitcoinIpc.IdealCrates

/-!
# The life of a subnet

A subnet starts alive, is marked by enough kill requests, and is killed by a kill
checkpoint. The delay between the mark and the kill and the end of a killed
subnet are checked where a checkpoint is built and not where it is processed: a
run keeps to the life cycle exactly when every checkpoint that is processed
meets these checks.
-/

namespace Monitor

open Faults Bytes Chain Messages Crates Multisig Db Commits OrderedTable

variable {X : Library}

inductive StateStep (X : Library) (db : HeedDb) (t : Txid20) : Event → Option SubnetState → Prop
  | same {e} : StateStep X db t e (db.getSubnetState X (.fromTxid20 t))
  | start {e s} : db.getSubnetState X (.fromTxid20 t) = none → s.killed = .notKilled →
      s.markedForKillCheckpointNumber = none → StateStep X db t e (some s)
  | stake {e s next} : db.getSubnetState X (.fromTxid20 t) = some s → s.killed = .notKilled →
      StateStep X db t e (some { s with waitingCommittee := some next })
  | mark {e s} : db.getSubnetState X (.fromTxid20 t) = some s → s.killed = .notKilled →
      StateStep X db t e (some { s with
        killed := .toBeKilled
        markedForKillCheckpointNumber :=
          s.lastCheckpointNumber.orElse (fun _ => s.markedForKillCheckpointNumber) })
  | checkpoint {ctx tx m s change} : m.subnetId = .fromTxid20 t →
      db.getSubnetState X (.fromTxid20 t) = some s → m.rotation X db s = .ok change →
      StateStep X db t (.message ctx tx (.checkpointSubnet m))
        (some (m.checkpointedState s change ctx.blockHeight))

section Steps

variable (laws : DisplayLaws X) {db db' : HeedDb} {e : Event} {t u : Txid20}
include laws

/-- A state that is written for one subnet leaves the others as they are. -/
theorem stateStep_of_put {s : SubnetState}
    (h : db'.subnetDb = db.subnetDb.put (subnetStateKey X (.fromTxid20 u)) s)
    (hstep : t = u → StateStep X db t e (some s)) :
    StateStep X db t e (db'.getSubnetState X (.fromTxid20 t)) := by
  rw [getSubnetState_of_put laws h]
  split_ifs with htu
  · exact hstep htu
  · exact .same

theorem stateStep_join {m : IpcJoinSubnetMsg} {h : Nat} {hash : BlockHash} {txid : Txid}
    {saved : HeedDb × Option SubnetState} (hs : Sound X db)
    (hsave : m.saveToDb X db h hash txid = .ok saved) :
    StateStep X db t e (saved.1.getSubnetState X (.fromTxid20 t)) := by
  cases hst : db.getSubnetState X m.subnetId with
  | none =>
    obtain ⟨g, hg, -, -, ⟨-, rfl⟩ | ⟨s, -, hsub, rfl⟩⟩ := IpcJoinSubnetMsg.saveToDb_pre hst hsave
    · exact .same
    · obtain ⟨-, ⟨u, hu⟩, -⟩ := hs.genesis _ _ hg
      rw [hu] at hst ⊢
      refine stateStep_of_put laws (u := u) (s := s) rfl ?_
      rintro rfl
      obtain ⟨c, -, hsub⟩ := bind_eq_ok.mp hsub
      cases hsub
      exact .start hst rfl rfl
  | some s =>
    obtain ⟨next, -, hkill, -, rfl⟩ := IpcJoinSubnetMsg.saveToDb_post hst hsave
    obtain ⟨u, hu, -⟩ := hs.state laws hst
    rw [hu] at hst ⊢
    refine stateStep_of_put laws (subnetDb_recordStake _ _ _ _ _) ?_
    rintro rfl
    exact .stake hst (killed_of_not_pending (by rw [hkill]; decide))

/-- Every commit does one of five things to the state of a subnet. -/
theorem stateStep_of_commit (hs : Sound X db) (h : Commit X db e db') (t : Txid20) :
    StateStep X db t e (db'.getSubnetState X (.fromTxid20 t)) := by
  cases h with
  | createSubnet => exact .same
  | joinSubnet _ _ hsave => exact stateStep_join laws hs hsave
  | prefundSubnet _ _ hsave =>
    obtain ⟨g, -, -, rfl⟩ := IpcPrefundSubnetMsg.saveToDb_eq_ok hsave
    exact .same
  | fundSubnet _ _ hsave =>
    obtain ⟨s, -, rfl⟩ := IpcFundSubnetMsg.saveToDb_eq_ok hsave
    exact .same
  | checkpointSubnet _ _ hsave =>
    obtain ⟨s, change, hst, hrot, rfl⟩ := IpcCheckpointSubnetMsg.saveToDb_eq_ok hsave
    obtain ⟨u, hu, -⟩ := hs.state laws hst
    refine stateStep_of_put laws (hu ▸ subnetDb_checkpointedDb) ?_
    rintro rfl
    exact .checkpoint hu (hu ▸ hst) hrot
  | batchTransfer _ _ hsave =>
    obtain ⟨_, _, _, heq⟩ := IpcBatchTransferMsg.sameButBatch_saveToDb hsave
    rw [heq]
    exact .same
  | stakeCollateral _ _ hsave =>
    obtain ⟨s, v, next, hst, -, -, hdb⟩ := IpcStakeCollateralMsg.saveToDb_eq_ok hsave
    have hkill := IpcStakeCollateralMsg.notKilled_of_saveToDb hsave hst
    obtain ⟨u, hu, -⟩ := hs.state laws hst
    subst hdb
    rw [hu] at hst ⊢
    refine stateStep_of_put laws (subnetDb_recordStake _ _ _ _ _) ?_
    rintro rfl
    exact .stake hst hkill
  | unstakeCollateral _ _ hsave =>
    obtain ⟨s, v, next, hst, -, -, -, -, hdb⟩ := IpcUnstakeCollateralMsg.saveToDb_eq_ok hsave
    have hkill := IpcUnstakeCollateralMsg.notKilled_of_saveToDb hsave hst
    obtain ⟨u, hu, -⟩ := hs.state laws hst
    subst hdb
    rw [hu] at hst ⊢
    refine stateStep_of_put laws (subnetDb_recordStake _ _ _ _ _) ?_
    rintro rfl
    exact .stake hst hkill
  | killSubnet _ _ hsave =>
    obtain ⟨s, r, hst, rfl | ⟨marked, ⟨hk, rfl⟩, rfl⟩⟩ := IpcKillSubnetMsg.saveToDb_eq_ok hsave
    · exact .same
    · obtain ⟨u, hu, -⟩ := hs.state laws hst
      rw [hu] at hst ⊢
      refine stateStep_of_put laws (u := u) rfl ?_
      rintro rfl
      exact .mark hst hk
  | transaction => exact .same
  | rewards hsame =>
    obtain ⟨_, _, rfl⟩ := hsame
    exact .same
  | block => exact .same

end Steps

/-- The checks of the provider, made of every checkpoint that is processed: the
subnet is not killed, and it is due to be killed if the checkpoint kills it. -/
def KillAllowed (X : Library) (db : HeedDb) : Event → HeedDb → Prop
  | .message _ _ (.checkpointSubnet m), _ =>
    ∀ s, db.getSubnetState X m.subnetId = some s → s.isKilled = false ∧
      (m.isKillCheckpoint = true → (s.shouldKill : Outcome IpcLibError Bool) = .ok true)
  | _, _ => True

/-- How the kill state of a subnet may move in one commit: on to the mark, or from the
mark to killed by a kill checkpoint that is due. -/
inductive KillMove (t : Txid20) (e : Event) (s s' : SubnetState) : Prop
  | stays : s'.killed = s.killed → KillMove t e s s'
  | marked : s.killed = .notKilled → s'.killed = .toBeKilled → KillMove t e s s'
  | killed {ctx tx m} : e = .message ctx tx (.checkpointSubnet m) →
      m.subnetId = .fromTxid20 t → m.isKillCheckpoint = true → s.killed = .toBeKilled →
      (s.shouldKill : Outcome IpcLibError Bool) = .ok true →
      s'.killed = .killed ctx.blockHeight → KillMove t e s s'

/-- A mark is the number of a checkpoint that was made. -/
def MarkedLe (s : SubnetState) : Prop :=
  ∀ marked ∈ s.markedForKillCheckpointNumber, ∃ last ∈ s.lastCheckpointNumber, marked ≤ last

/-- The life cycle of every subnet across one commit: it starts alive, its kill state
moves forward, and once it is killed its state stays as it is. -/
structure Lifecycle (X : Library) (db : HeedDb) (e : Event) (db' : HeedDb) : Prop where
  starts : ∀ t s', db.getSubnetState X (.fromTxid20 t) = none →
    db'.getSubnetState X (.fromTxid20 t) = some s' → s'.killed = .notKilled
  moves : ∀ t s, db.getSubnetState X (.fromTxid20 t) = some s →
    ∃ s', db'.getSubnetState X (.fromTxid20 t) = some s' ∧ KillMove t e s s' ∧
      (s.isKilled = true → s' = s)
  marked_le : ∀ t s', db'.getSubnetState X (.fromTxid20 t) = some s' → MarkedLe s'
  decides : ∀ t s', db'.getSubnetState X (.fromTxid20 t) = some s' →
    ∃ b, (s'.shouldKill : Outcome IpcLibError Bool) = .ok b

theorem shouldKill_eq_ok {ε : Type} {s : SubnetState} (h : MarkedLe s) :
    ∃ b, (s.shouldKill : Outcome ε Bool) = .ok b := by
  unfold SubnetState.shouldKill
  split_ifs with hk
  · cases hm : s.markedForKillCheckpointNumber with
    | none =>
      cases s.lastCheckpointNumber with
      | none => exact ⟨_, rfl⟩
      | some last => exact ⟨_, rfl⟩
    | some marked =>
      obtain ⟨last, hlast, hle⟩ := h marked hm
      rw [show s.lastCheckpointNumber = some last from hlast]
      refine ⟨decide (killPeriodNumberOfCheckpoints ≤ last - marked), ?_⟩
      dsimp only
      rw [(assertThat_eq_ok (u := ())).mpr hle]
      rfl
  · exact ⟨_, rfl⟩

theorem MarkedLe.checkpointed {s : SubnetState} (h : MarkedLe s) (m : IpcCheckpointSubnetMsg)
    (change : Option StakeChangeRequest) (height : Nat) :
    MarkedLe (m.checkpointedState s change height) := by
  rw [IpcCheckpointSubnetMsg.checkpointedState_eq]
  have hsame : (IpcCheckpointSubnetMsg.rotated s change).markedForKillCheckpointNumber =
      s.markedForKillCheckpointNumber := by
    cases change with
    | none => rfl
    | some c =>
      simp only [IpcCheckpointSubnetMsg.rotated, SubnetState.rotateToCommittee]
      split_ifs <;> rfl
  intro marked hmarked
  dsimp only at hmarked
  rw [hsame] at hmarked
  obtain ⟨last, hlast, hle⟩ := h marked hmarked
  refine ⟨last + 1, ?_, by omega⟩
  rw [show s.lastCheckpointNumber = some last from hlast]
  rfl

theorem MarkedLe.marked {s : SubnetState} (h : MarkedLe s) :
    MarkedLe { s with
      killed := .toBeKilled
      markedForKillCheckpointNumber :=
        s.lastCheckpointNumber.orElse (fun _ => s.markedForKillCheckpointNumber) } := by
  intro marked hmarked
  cases hlast : s.lastCheckpointNumber with
  | none =>
    simp only [hlast, Option.orElse_none] at hmarked
    obtain ⟨last, hlast', -⟩ := h marked hmarked
    rw [hlast] at hlast'
    cases hlast'
  | some last =>
    simp only [hlast] at hmarked
    obtain rfl : last = marked := Option.some.inj hmarked
    exact ⟨last, rfl, le_refl last⟩

theorem markedLe_of_stateStep {db : HeedDb} {t : Txid20} {e : Event} {o : Option SubnetState}
    (h : ∀ s, db.getSubnetState X (.fromTxid20 t) = some s → MarkedLe s)
    (hstep : StateStep X db t e o) : ∀ s ∈ o, MarkedLe s := by
  intro s hs
  cases hstep with
  | same => exact h s hs
  | start _ _ hmarked =>
    cases hs
    intro marked hm
    rw [hmarked] at hm
    cases hm
  | stake hget _ =>
    cases hs
    have hle := h _ hget
    exact fun marked hmarked => hle marked hmarked
  | mark hget _ =>
    cases hs
    exact (h _ hget).marked
  | checkpoint _ hget _ =>
    cases hs
    exact (h _ hget).checkpointed _ _ _

section Runs

variable (laws : DisplayLaws X) {db db' : HeedDb} {e : Event}
include laws

omit laws in
/-- A checkpoint changes the number of the last checkpoint. -/
theorem checkpointedState_ne (m : IpcCheckpointSubnetMsg) (s : SubnetState)
    (change : Option StakeChangeRequest) (height : Nat) :
    m.checkpointedState s change height ≠ s := by
  intro h
  have hlast := congrArg SubnetState.lastCheckpointNumber h
  rw [IpcCheckpointSubnetMsg.checkpointedState_eq] at hlast
  cases hs : s.lastCheckpointNumber with
  | none => simp [hs] at hlast
  | some n => simp [hs] at hlast

omit laws in
theorem killed_checkpointedState (m : IpcCheckpointSubnetMsg) (s : SubnetState)
    (change : Option StakeChangeRequest) (height : Nat) :
    (m.checkpointedState s change height).killed =
      if m.isKillCheckpoint then .killed height else s.killed := by
  rw [IpcCheckpointSubnetMsg.checkpointedState_eq]

/-- A checkpoint that keeps to the life cycle is allowed. -/
theorem killAllowed_of_lifecycle (hs : Sound X db) (h : Commit X db e db')
    (hlife : Lifecycle X db e db') : KillAllowed X db e db' := by
  cases h with
  | @checkpointSubnet ctx tx m saved _ _ hsave =>
    intro s hst
    obtain ⟨s₀, change, hst₀, -, rfl⟩ := IpcCheckpointSubnetMsg.saveToDb_eq_ok hsave
    rw [hst] at hst₀
    cases hst₀
    obtain ⟨t, ht, -⟩ := hs.state laws hst
    obtain ⟨s', hs', hmove, hfinal⟩ := hlife.moves t s (ht ▸ hst)
    rw [getSubnetState_of_put laws (ht ▸ subnetDb_checkpointedDb), if_pos rfl] at hs'
    obtain rfl := Option.some.inj hs'
    have halive : s.isKilled = false := by
      by_contra hkilled
      exact checkpointedState_ne m s change _ (hfinal (by simpa using hkilled))
    refine ⟨halive, ?_⟩
    intro hkill
    have hnow := killed_checkpointedState m s change ctx.blockHeight
    rw [if_pos hkill] at hnow
    cases hmove with
    | stays hsame =>
      rw [hnow] at hsame
      simp [SubnetState.isKilled, ← hsame] at halive
    | marked _ hmarked =>
      rw [hnow] at hmarked
      cases hmarked
    | killed _ _ _ _ hdue _ => exact hdue
  | _ => trivial

omit laws in
theorem notKilled_of_start {t : Txid20} (hnone : db.getSubnetState X (.fromTxid20 t) = none)
    {o : Option SubnetState} (hstep : StateStep X db t e o) : ∀ s ∈ o, s.killed = .notKilled := by
  intro s hs
  cases hstep with
  | same =>
    rw [hnone] at hs
    cases hs
  | start _ hk _ =>
    cases hs
    exact hk
  | stake hget _ =>
    rw [hnone] at hget
    cases hget
  | mark hget _ =>
    rw [hnone] at hget
    cases hget
  | checkpoint _ hget _ =>
    rw [hnone] at hget
    cases hget

omit laws in
theorem killMove_of_stateStep {t : Txid20} {s : SubnetState}
    (hallowed : KillAllowed X db e db') (hst : db.getSubnetState X (.fromTxid20 t) = some s)
    {o : Option SubnetState} (hstep : StateStep X db t e o) :
    ∃ s', o = some s' ∧ KillMove t e s s' ∧ (s.isKilled = true → s' = s) := by
  cases hstep with
  | same => exact ⟨s, hst, .stays rfl, fun _ => rfl⟩
  | start hnone =>
    rw [hst] at hnone
    cases hnone
  | stake hget hk =>
    rw [hst] at hget
    cases hget
    exact ⟨_, rfl, .stays rfl, fun hkilled => by simp [SubnetState.isKilled, hk] at hkilled⟩
  | mark hget hk =>
    rw [hst] at hget
    cases hget
    exact ⟨_, rfl, .marked hk rfl, fun hkilled => by simp [SubnetState.isKilled, hk] at hkilled⟩
  | @checkpoint ctx tx m _ change hm hget _ =>
    rw [hst] at hget
    cases hget
    obtain ⟨halive, hdue⟩ := hallowed s (hm ▸ hst)
    refine ⟨_, rfl, ?_, fun hkilled => by rw [halive] at hkilled; cases hkilled⟩
    have hnow := killed_checkpointedState m s change ctx.blockHeight
    by_cases hkill : m.isKillCheckpoint = true
    · rw [if_pos hkill] at hnow
      have hpending : s.killed = .toBeKilled := by
        by_contra hne
        have hdue := hdue hkill
        rw [SubnetState.shouldKill, if_neg hne] at hdue
        cases hdue
      exact .killed rfl hm hkill hpending (hdue hkill) hnow
    · rw [if_neg hkill] at hnow
      exact .stays hnow

/-- A commit keeps to the life cycle exactly when its checkpoint is allowed. -/
theorem lifecycle_iff (hs : Sound X db)
    (hmarked : ∀ t s, db.getSubnetState X (.fromTxid20 t) = some s → MarkedLe s)
    (h : Commit X db e db') : KillAllowed X db e db' ↔ Lifecycle X db e db' := by
  have hstep := stateStep_of_commit laws hs h
  have hle : ∀ t s', db'.getSubnetState X (.fromTxid20 t) = some s' → MarkedLe s' :=
    fun t s' hs' => markedLe_of_stateStep (hmarked t) (hstep t) s' hs'
  refine ⟨?_, killAllowed_of_lifecycle laws hs h⟩
  intro hallowed
  refine ⟨?_, ?_, hle, fun t s' hs' => shouldKill_eq_ok (hle t s' hs')⟩
  · intro t s' hnone hs'
    exact notKilled_of_start hnone (hstep t) s' hs'
  · intro t s hst
    exact killMove_of_stateStep hallowed hst (hstep t)

theorem markedLe_of_reachable (h : Reachable X db) {t : Txid20} {s : SubnetState}
    (hs : db.getSubnetState X (.fromTxid20 t) = some s) : MarkedLe s := by
  obtain ⟨l, hl, rfl⟩ := h
  refine (invariant_last (C := fun _ _ _ => True) (I := fun db => Sound X db ∧
    ∀ t s, db.getSubnetState X (.fromTxid20 t) = some s → MarkedLe s) ?_ ?_ hl
    (allSteps_of_events (fun _ _ => trivial))).2 t s hs
  · rintro db e db' ⟨hs, hmarked⟩ h -
    exact ⟨hs.commit laws h, fun t s' hs' =>
      markedLe_of_stateStep (hmarked t) (stateStep_of_commit laws hs h t) s' hs'⟩
  · refine ⟨sound_empty, ?_⟩
    intro t s hs
    cases hs

/-- A run of the monitor keeps to the life cycle of subnets exactly when every
checkpoint it processes is allowed. -/
theorem kill_lifecycle_iff {l : List (Event × HeedDb)} (hrun : Trail (Commit X) HeedDb.empty l) :
    AllSteps (KillAllowed X) HeedDb.empty l ↔ AllSteps (Lifecycle X) HeedDb.empty l := by
  refine allSteps_iff (I := fun db => Sound X db ∧
    ∀ t s, db.getSubnetState X (.fromTxid20 t) = some s → MarkedLe s) ?_ ?_ ?_ hrun
  · rintro db e db' ⟨hs, hmarked⟩ h
    exact ⟨hs.commit laws h, fun t s' hs' =>
      markedLe_of_stateStep (hmarked t) (stateStep_of_commit laws hs h t) s' hs'⟩
  · rintro db e db' ⟨hs, hmarked⟩ h
    exact lifecycle_iff laws hs hmarked h
  · refine ⟨sound_empty, ?_⟩
    intro t s hs
    cases hs

end Runs

open Solo

/-- A request of the validator to kill the subnet. -/
def killTx : Transaction := payingTx 12 ipcKillSubnetTag signature.bytes 330 10

/-- The library that knows the signature of the kill request. -/
def killLibrary : Library :=
  library 10000 [((bytes32 12).bytes ++ key.bytes ++ subnet.bytes, signature)]

/-- A checkpoint that kills the subnet. -/
def killCheckpoint : IpcCheckpointSubnetMsg := { checkpointMsg 0 with isKillCheckpoint := true }

def killCheckpointTx : Transaction :=
  spending (bytes32 19) 0 [] [⟨330, makeOpReturnScript (killCheckpoint.metadata subnet)⟩]

/-- The kill checkpoint can be saved on the database. -/
def KillAccepted (db : HeedDb) : Prop :=
  IpcCheckpointSubnetMsg.fromCheckpointTx killLibrary db killCheckpointTx = .ok killCheckpoint ∧
  killCheckpoint.validate = .ok () ∧
  (killCheckpoint.saveToDb killLibrary db context.blockHeight context.blockHash
    (killLibrary.computeTxid killCheckpointTx)).toOption.isSome = true

instance (db : HeedDb) : Decidable (KillAccepted db) := by
  unfold KillAccepted
  infer_instance

theorem KillAccepted.commit {db : HeedDb} (h : KillAccepted db) : ∃ db',
    Commit killLibrary db (.message context killCheckpointTx (.checkpointSubnet killCheckpoint))
      db' := by
  obtain ⟨hparsed, hvalid, hsave⟩ := h
  obtain ⟨saved, hsaved⟩ := exists_ok_of_isSome hsave
  exact ⟨_, .checkpointSubnet hparsed hvalid hsaved⟩

/-- Requested and delayed by five checkpoints. -/
def delayedTxs : List Transaction :=
  [createTx, joinTx 100000, killTx, checkpointTx 14 0, checkpointTx 15 0, checkpointTx 16 0,
    checkpointTx 17 0, checkpointTx 18 0]

/-- No subnet is killed, and no transaction of the list has a kill checkpoint. -/
def NoKill (txs : List Transaction) (db : HeedDb) : Prop :=
  ∀ tx ∈ txs, (IpcCheckpointSubnetMsg.fromCheckpointTx killLibrary db tx).toOption.all (fun m =>
    !m.isKillCheckpoint && (db.getSubnetState killLibrary m.subnetId).all (fun s => !s.isKilled))

instance (txs : List Transaction) (db : HeedDb) : Decidable (NoKill txs db) := by
  unfold NoKill
  infer_instance

theorem killAllowed_of_noKill {txs : List Transaction} {db db' : HeedDb} {e : Event}
    (hstep : Commit killLibrary db e db') (h : NoKill txs db)
    (hmem : ∀ a, messageOf e = some a → (a.1, a.2.1) ∈ txs.map (fun tx => (context, tx))) :
    KillAllowed killLibrary db e db' := by
  cases hstep with
  | @checkpointSubnet ctx tx m saved hparsed _ _ =>
    intro s hs
    obtain ⟨tx', htx', heq⟩ := List.mem_map.mp (hmem _ rfl)
    cases heq
    have hall := h tx htx'
    rw [toOption_eq_some.mpr hparsed, Option.all_some, Bool.and_eq_true, hs] at hall
    simp only [Option.all_some, Bool.not_eq_true'] at hall
    refine ⟨hall.2, ?_⟩
    intro hkill
    rw [hall.1] at hkill
    cases hkill
  | _ => trivial

/-- A kill checkpoint after the delay keeps to the life cycle. -/
theorem kill_lifecycle_of_delayed_kill : ∃ l db', Trail (Commit killLibrary) HeedDb.empty
      (l ++ [(.message context killCheckpointTx (.checkpointSubnet killCheckpoint), db')]) ∧
    AllSteps (Lifecycle killLibrary) HeedDb.empty
      (l ++ [(.message context killCheckpointTx (.checkpointSubnet killCheckpoint), db')]) := by
  have hok : (run killLibrary delayedTxs).outcome.toOption = some () :=
    of_decide_eq_true (by decide +kernel)
  obtain ⟨l, hl, hc, hlast⟩ := exists_chainTrail ⟨none⟩ context delayedTxs HeedDb.empty hok
  have haccepted : KillAccepted (lastStore HeedDb.empty l) := by
    rw [hlast]
    exact of_decide_eq_true (by decide +kernel)
  obtain ⟨db', hcommit⟩ := haccepted.commit
  have htrail := trail_snoc.mpr ⟨hl.trail, hcommit⟩
  refine ⟨l, db', htrail, (kill_lifecycle_iff (displayLaws_ideal _) htrail).mp
    (allSteps_snoc.mpr ⟨?_, ?_⟩)⟩
  · refine hl.allSteps (P := NoKill delayedTxs)
      (fun _ _ _ hstep hP hmem => killAllowed_of_noKill hstep hP hmem) ?_
    rw [hc]
    exact of_decide_eq_true (by decide +kernel)
  · have hdue : ((lastStore HeedDb.empty l).getSubnetState killLibrary
        (.fromTxid20 subnet)).all (fun s => !s.isKilled &&
          decide ((s.shouldKill : Outcome IpcLibError Bool) = .ok true)) = true := by
      rw [hlast]
      decide +kernel
    intro s hs
    rw [show (lastStore HeedDb.empty l).getSubnetState killLibrary (.fromTxid20 subnet) = some s
      from hs, Option.all_some, Bool.and_eq_true, Bool.not_eq_true', decide_eq_true_iff] at hdue
    exact ⟨hdue.1, fun _ => hdue.2⟩

/-- A kill checkpoint kills a subnet that no validator asked to kill. -/
theorem kill_checkpoint_without_requests :
    ¬ ∀ X : Library, DisplayLaws X → ∀ l, Trail (Commit X) HeedDb.empty l →
      AllSteps (Lifecycle X) HeedDb.empty l := by
  intro hall
  obtain ⟨l, hl, hc, hlast⟩ := exists_trail (X := killLibrary) ⟨none⟩ context
    [createTx, joinTx 100000] HeedDb.empty
  have haccepted : KillAccepted (lastStore HeedDb.empty l) := by
    rw [hlast]
    exact of_decide_eq_true (by decide +kernel)
  obtain ⟨db', hcommit⟩ := haccepted.commit
  have hlife := hall killLibrary (displayLaws_ideal _) _ (trail_snoc.mpr ⟨hl, hcommit⟩)
  have hallowed := killAllowed_of_lifecycle (displayLaws_ideal _)
    (sound_of_trail (displayLaws_ideal _) sound_empty hl) hcommit (allSteps_snoc.mp hlife).2
  have hstate : ((lastStore HeedDb.empty l).getSubnetState killLibrary
      (.fromTxid20 subnet)).any (fun s =>
        decide ((s.shouldKill : Outcome IpcLibError Bool) = .ok false)) = true := by
    rw [hlast]
    decide +kernel
  obtain ⟨s, hs, hnot⟩ := (Option.any_eq_true _ _).mp hstate
  have hdue := (hallowed s hs).2 rfl
  rw [of_decide_eq_true hnot] at hdue
  cases hdue

end Monitor
