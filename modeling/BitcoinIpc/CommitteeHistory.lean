import BitcoinIpc.Configurations

/-!
# The history of committees

A checkpoint record says which committee is active after it, the committee table
holds the committees under their numbers, and the committee active at a height is
looked up in the records. A record and the state of its subnet are computed apart
from each other: they agree along a run exactly when every rotation is to a
committee of another address with the number that was asked for.
-/

namespace Monitor

open Faults Bytes Chain Messages Crates Multisig Db Commits OrderedTable

variable (X : Library)

/-- The number of checkpoints of a subnet up to its last one. -/
def numberOfCheckpoints (db : HeedDb) (t : Txid20) : Nat :=
  (((db.getSubnetState X (.fromTxid20 t)).bind (·.lastCheckpointNumber)).map (· + 1)).getD 0

/-- The stored checkpoints up to the last one, in the order of their numbers. -/
def checkpointsOf (db : HeedDb) (t : Txid20) : List SubnetCheckpoint :=
  (List.range (numberOfCheckpoints X db t)).filterMap (db.getCheckpoint X (.fromTxid20 t))

/-- The documented lookup of the committee that is active at a height. -/
def committeeNumberAt (db : HeedDb) (t : Txid20) (height : Nat) : Nat :=
  (checkpointsOf X db t).foldl
    (fun n c => if c.blockHeight ≤ height then c.nextCommitteeNumber else n) 1

/-- A checkpoint that rotates does so to a committee of another address, which has
the number that the checkpoint asks for. -/
def RotationMoves (t : Txid20) (db : HeedDb) : Event → HeedDb → Prop
  | .message _ _ (.checkpointSubnet m), _ => m.subnetId = .fromTxid20 t →
    ∀ s c, db.getSubnetState X (.fromTxid20 t) = some s →
      s.committee.configurationNumber < m.nextCommitteeConfigurationNumber →
      db.getStakeChange X (.fromTxid20 t) m.nextCommitteeConfigurationNumber = some c →
      s.committee.multisigAddress ≠ c.committeeAfterChange.multisigAddress ∧
        c.committeeAfterChange.configurationNumber = m.nextCommitteeConfigurationNumber
  | _, _ => True

/-- After a checkpoint, the state of the subnet has the committee number and the
configuration number of the checkpoint's record, and its committee is the one in
the table of committees. -/
def FollowsRecord (t : Txid20) (_ : HeedDb) : Event → HeedDb → Prop
  | .message _ tx (.checkpointSubnet m), db' => m.subnetId = .fromTxid20 t →
    ∃ s number record, db'.getSubnetState X (.fromTxid20 t) = some s ∧
      s.lastCheckpointNumber = some number ∧
      db'.getCheckpoint X (.fromTxid20 t) number = some record ∧
      record.txid = X.computeTxid tx ∧ s.committeeNumber = record.nextCommitteeNumber ∧
      s.committee.configurationNumber = record.nextConfigurationNumber ∧
      db'.getCommittee X (.fromTxid20 t) s.committeeNumber = some s.committee
  | _, _ => True

/-- The checkpoints of a run determine the active committee of a subnet: the state
follows every record, and the lookup at a height gives the committee that was
active when the messages up to this height were processed. -/
structure HistoryDetermines (t : Txid20) (l : List (Event × HeedDb)) : Prop where
  follows : AllSteps (FollowsRecord X t) HeedDb.empty l
  lookup : ∀ l₁ l₂ height s, l = l₁ ++ l₂ → (∀ a ∈ messages l₁, a.1.blockHeight ≤ height) →
    (∀ a ∈ messages l₂, height < a.1.blockHeight) →
    (lastStore HeedDb.empty l₁).getSubnetState X (.fromTxid20 t) = some s →
    committeeNumberAt X (lastStore HeedDb.empty l) t height = s.committeeNumber

variable {X} {db db' : HeedDb} {t : Txid20} {e : Event}

/-- Only checkpoints and batch transfers write checkpoint records. -/
theorem checkpointsDb_of_commit (h : Commit X db e db') (hb : batchOf e = none)
    (he : ∀ ctx tx m, e ≠ .message ctx tx (.checkpointSubnet m)) :
    db'.checkpointsDb = db.checkpointsDb := by
  have hstake : ∀ id s next requests,
      (recordStake X db id s next requests).checkpointsDb = db.checkpointsDb := by
    intro id s next requests
    obtain ⟨table, hframe⟩ := foldl_addStakeChange_frame (X := X) id requests
      (db.saveSubnetState X id { s with waitingCommittee := some next })
    rw [recordStake, hframe]
    rfl
  cases h with
  | createSubnet => rfl
  | @joinSubnet ctx tx m₀ m saved _ _ hsave =>
    cases hst : db.getSubnetState X m.subnetId with
    | none =>
      obtain ⟨g, -, -, -, ⟨-, rfl⟩ | ⟨s, -, -, rfl⟩⟩ := IpcJoinSubnetMsg.saveToDb_pre hst hsave
      · rfl
      · rfl
    | some s =>
      obtain ⟨next, -, -, -, rfl⟩ := IpcJoinSubnetMsg.saveToDb_post hst hsave
      exact hstake _ _ _ _
  | prefundSubnet _ _ hsave =>
    obtain ⟨g, -, -, rfl⟩ := IpcPrefundSubnetMsg.saveToDb_eq_ok hsave
    rfl
  | fundSubnet _ _ hsave =>
    obtain ⟨s, -, rfl⟩ := IpcFundSubnetMsg.saveToDb_eq_ok hsave
    rfl
  | checkpointSubnet => exact absurd rfl (he _ _ _)
  | batchTransfer => cases hb
  | stakeCollateral _ _ hsave =>
    obtain ⟨s, v, next, -, -, -, rfl⟩ := IpcStakeCollateralMsg.saveToDb_eq_ok hsave
    exact hstake _ _ _ _
  | unstakeCollateral _ _ hsave =>
    obtain ⟨s, v, next, -, -, -, -, -, rfl⟩ := IpcUnstakeCollateralMsg.saveToDb_eq_ok hsave
    exact hstake _ _ _ _
  | killSubnet _ _ hsave =>
    obtain ⟨s, r, -, rfl | ⟨marked, -, rfl⟩⟩ := IpcKillSubnetMsg.saveToDb_eq_ok hsave
    · rfl
    · rfl
  | transaction => rfl
  | rewards hsame =>
    obtain ⟨_, _, rfl⟩ := hsame
    rfl
  | block => rfl

section Laws

variable (laws : DisplayLaws X)
include laws

/-- The record that a batch transfer writes is not among the checkpoints. -/
theorem getCheckpoint_of_commit (hs : Sound X db) (h : Commit X db e db')
    (he : ∀ ctx tx m, e ≠ .message ctx tx (.checkpointSubnet m)) {i : Nat}
    (hi : i < numberOfCheckpoints X db t) :
    db'.getCheckpoint X (.fromTxid20 t) i = db.getCheckpoint X (.fromTxid20 t) i := by
  cases hb : batchOf e with
  | none => rw [HeedDb.getCheckpoint, checkpointsDb_of_commit h hb he]; rfl
  | some m =>
    cases h with
    | batchTransfer _ _ hsave =>
      obtain ⟨s, number, record, hst, hlast, _, _, heq⟩ :=
        IpcBatchTransferMsg.saveToDb_eq_ok hsave
      obtain ⟨u, hu, -⟩ := hs.state laws hst
      have hsaved := HeedDb.getCheckpoint_save db laws (.fromTxid20 u) (.fromTxid20 t) record
        (number + 1) i
      rw [if_neg] at hsaved
      · rw [heq, hu]
        exact hsaved
      · rintro ⟨htu, rfl⟩
        rw [hu, ← htu] at hst
        rw [numberOfCheckpoints, hst, Option.bind_some, hlast, Option.map_some,
          Option.getD_some] at hi
        omega
    | _ => cases hb

/-- What another message than a checkpoint leaves of the committee of a subnet. -/
inductive KeepsCommittee (X : Library) (db : HeedDb) (t : Txid20) (db' : HeedDb) : Prop
  | same : (db'.getSubnetState X (.fromTxid20 t)).map
        (fun s => (s.committeeNumber, s.committee, s.lastCheckpointNumber)) =
      (db.getSubnetState X (.fromTxid20 t)).map
        (fun s => (s.committeeNumber, s.committee, s.lastCheckpointNumber)) →
      (∀ n, db'.getCommittee X (.fromTxid20 t) n = db.getCommittee X (.fromTxid20 t) n) →
      KeepsCommittee X db t db'
  | starts {s} : db.getSubnetState X (.fromTxid20 t) = none →
      db'.getSubnetState X (.fromTxid20 t) = some s → s.committeeNumber = 1 →
      s.lastCheckpointNumber = none →
      db'.getCommittee X (.fromTxid20 t) 1 = some s.committee → KeepsCommittee X db t db'

theorem keepsCommittee_of_subnetStep (h : SubnetStep X db e db')
    (he : ∀ ctx tx m, e ≠ .message ctx tx (.checkpointSubnet m)) : KeepsCommittee X db t db' := by
  cases h with
  | frame hsame =>
    refine .same ?_ ?_
    · rw [HeedDb.getSubnetState, hsame.1]
      rfl
    · intro n
      rw [HeedDb.getCommittee, hsame.2.2.2]
      rfl
  | genesis => exact .same rfl (fun _ => rfl)
  | @start _ u g s hnone hid hreg hsub =>
    have hlast : s.lastCheckpointNumber = none := by
      obtain ⟨c, -, hsub⟩ := bind_eq_ok.mp hsub
      cases hsub
      rfl
    obtain ⟨-, -, -, hnum, -⟩ := good_toSubnet hid hreg hsub
    have hstate := HeedDb.getSubnetState_save db laws (.fromTxid20 u) (.fromTxid20 t) s
    have hcommittee := fun n => HeedDb.getCommittee_save db laws (.fromTxid20 u) (.fromTxid20 t)
      s.committee s.committeeNumber n
    by_cases htu : t = u
    · subst htu
      rw [if_pos rfl] at hstate
      have hone := hcommittee 1
      rw [if_pos ⟨rfl, hnum.symm⟩] at hone
      exact .starts hnone hstate hnum hlast hone
    · have hne : ¬ (SubnetId.fromTxid20 t = SubnetId.fromTxid20 u) :=
        fun heq => htu (SubnetId.fromTxid20_injective heq)
      rw [if_neg hne] at hstate
      refine .same (congrArg _ hstate) ?_
      intro n
      have hn := hcommittee n
      rw [if_neg (fun hand => hne hand.1)] at hn
      exact hn
  | @stake _ u s next requests hs _ =>
    refine .same ?_ ?_
    · rw [getSubnetState_of_put laws (subnetDb_recordStake _ _ _ _ _)]
      split_ifs with htu
      · rw [htu, hs]
        rfl
      · rfl
    · intro n
      obtain ⟨table, hframe⟩ := foldl_addStakeChange_frame (X := X) (.fromTxid20 u) requests
        (db.saveSubnetState X (.fromTxid20 u) { s with waitingCommittee := some next })
      rw [recordStake, hframe]
      rfl
  | @kill _ u s killed marked _ hs hdb _ _ hcom =>
    refine .same ?_ ?_
    · rw [getSubnetState_of_put laws hdb]
      split_ifs with htu
      · rw [htu, hs]
        rfl
      · rfl
    · intro n
      rw [HeedDb.getCommittee, hcom]
      rfl
  | checkpoint => exact absurd rfl (he _ _ _)

omit laws in
theorem checkpointsOf_eq (hn : numberOfCheckpoints X db' t = numberOfCheckpoints X db t)
    (hget : ∀ i, i < numberOfCheckpoints X db t →
      db'.getCheckpoint X (.fromTxid20 t) i = db.getCheckpoint X (.fromTxid20 t) i) :
    checkpointsOf X db' t = checkpointsOf X db t := by
  rw [checkpointsOf, hn]
  apply List.filterMap_congr
  intro i hi
  exact hget i (List.mem_range.mp hi)

omit laws in
theorem KeepsCommittee.numberOfCheckpoints_eq (h : KeepsCommittee X db t db') :
    numberOfCheckpoints X db' t = numberOfCheckpoints X db t := by
  cases h with
  | same hstate _ =>
    have hlast := congrArg (fun o : Option (Nat × SubnetCommittee × Option Nat) =>
      o.bind (fun a => a.2.2)) hstate
    simp only [Option.bind_map, Function.comp_def] at hlast
    rw [numberOfCheckpoints, hlast]
    rfl
  | starts hnone hs _ hlast _ =>
    rw [numberOfCheckpoints, numberOfCheckpoints, hnone, hs, Option.bind_some, hlast]
    rfl

section Checkpoint

variable {m : IpcCheckpointSubnetMsg} (db : HeedDb) (s : SubnetState)
  (change : Option StakeChangeRequest) (height : Nat) (hash : BlockHash) (txid : Txid)

/-- A checkpoint stores its record under its number. -/
theorem getCheckpoint_checkpointedDb (hm : m.subnetId = .fromTxid20 t) (u : Txid20) (i : Nat) :
    (m.checkpointedDb X db s change height hash txid).getCheckpoint X (.fromTxid20 u) i =
      if u = t ∧ i = (m.checkpointRecord s change height txid).checkpointNumber then
        some (m.checkpointRecord s change height txid)
      else db.getCheckpoint X (.fromTxid20 u) i := by
  have hsave := HeedDb.getCheckpoint_save db laws (.fromTxid20 t) (.fromTxid20 u)
    (m.checkpointRecord s change height txid)
    (m.checkpointRecord s change height txid).checkpointNumber i
  simp only [SubnetId.fromTxid20_injective.eq_iff] at hsave
  unfold IpcCheckpointSubnetMsg.checkpointedDb
  cases change with
  | none =>
    rw [hm]
    exact hsave
  | some c =>
    obtain ⟨table, hframe⟩ := foldl_addStakeChange_frame (X := X) m.subnetId _ _
    dsimp only
    rw [HeedDb.confirmStakeChanges, hframe, hm]
    exact hsave

/-- The committees after a checkpoint: a rotation stores the new one. -/
theorem getCommittee_checkpointedDb (hm : m.subnetId = .fromTxid20 t) (u : Txid20) (n : Nat) :
    (m.checkpointedDb X db s change height hash txid).getCommittee X (.fromTxid20 u) n =
      match change with
      | none => db.getCommittee X (.fromTxid20 u) n
      | some c => if u = t ∧ n = s.committeeNumber + 1 then some c.committeeAfterChange
        else db.getCommittee X (.fromTxid20 u) n := by
  unfold IpcCheckpointSubnetMsg.checkpointedDb
  cases change with
  | none => rfl
  | some c =>
    have hsave := HeedDb.getCommittee_save db laws (.fromTxid20 t) (.fromTxid20 u)
      c.committeeAfterChange (s.committeeNumber + 1) n
    simp only [SubnetId.fromTxid20_injective.eq_iff] at hsave
    obtain ⟨table, hframe⟩ := foldl_addStakeChange_frame (X := X) m.subnetId _ _
    dsimp only
    rw [HeedDb.confirmStakeChanges, hframe, hm]
    exact hsave

theorem getSubnetState_checkpointedDb (hm : m.subnetId = .fromTxid20 t) (u : Txid20) :
    (m.checkpointedDb X db s change height hash txid).getSubnetState X (.fromTxid20 u) =
      if u = t then some (m.checkpointedState s change height)
      else db.getSubnetState X (.fromTxid20 u) :=
  getSubnetState_of_put laws (hm ▸ subnetDb_checkpointedDb)

omit laws in
theorem lastCheckpointNumber_checkpointedState :
    (m.checkpointedState s change height).lastCheckpointNumber =
      some (m.checkpointRecord s change height txid).checkpointNumber := by
  rw [IpcCheckpointSubnetMsg.checkpointedState_eq]
  rfl

omit laws in
/-- The number of a checkpoint is the number of checkpoints before it. -/
theorem checkpointNumber_eq (hs : db.getSubnetState X (.fromTxid20 t) = some s) :
    (m.checkpointRecord s change height txid).checkpointNumber = numberOfCheckpoints X db t := by
  rw [numberOfCheckpoints, hs, Option.bind_some]
  rfl

theorem numberOfCheckpoints_checkpointedDb (hm : m.subnetId = .fromTxid20 t)
    (hs : db.getSubnetState X (.fromTxid20 t) = some s) :
    numberOfCheckpoints X (m.checkpointedDb X db s change height hash txid) t =
      numberOfCheckpoints X db t + 1 := by
  rw [numberOfCheckpoints, getSubnetState_checkpointedDb laws _ _ _ _ _ _ hm, if_pos rfl,
    Option.bind_some, lastCheckpointNumber_checkpointedState s change height txid,
    checkpointNumber_eq _ _ _ _ _ hs]
  rfl

/-- A checkpoint appends its record to the history of its subnet. -/
theorem checkpointsOf_checkpointedDb (hm : m.subnetId = .fromTxid20 t)
    (hs : db.getSubnetState X (.fromTxid20 t) = some s) :
    checkpointsOf X (m.checkpointedDb X db s change height hash txid) t =
      checkpointsOf X db t ++ [m.checkpointRecord s change height txid] := by
  have hnumber := numberOfCheckpoints_checkpointedDb laws db s change height hash txid hm hs
  have hget := getCheckpoint_checkpointedDb laws db s change height hash txid hm t
  rw [checkpointsOf, hnumber, List.range_succ, List.filterMap_append]
  congr 1
  · apply List.filterMap_congr
    intro i hi
    rw [hget, if_neg]
    rintro ⟨-, hnum⟩
    rw [checkpointNumber_eq _ _ _ _ _ hs] at hnum
    exact absurd (List.mem_range.mp hi) (by omega)
  · rw [List.filterMap_cons, hget, if_pos ⟨rfl, (checkpointNumber_eq _ _ _ _ _ hs).symm⟩]
    rfl

omit laws in
/-- Where a rotation leaves a subnet: at the new committee, or where it was when the
addresses are the same. -/
theorem rotated_cases (s : SubnetState) (c : StakeChangeRequest) :
    (s.committee.multisigAddress = c.committeeAfterChange.multisigAddress ∧
      IpcCheckpointSubnetMsg.rotated s (some c) = s) ∨
    (s.committee.multisigAddress ≠ c.committeeAfterChange.multisigAddress ∧
      (IpcCheckpointSubnetMsg.rotated s (some c)).committee = c.committeeAfterChange ∧
      (IpcCheckpointSubnetMsg.rotated s (some c)).committeeNumber = s.committeeNumber + 1) := by
  by_cases hsame : s.committee.multisigAddress = c.committeeAfterChange.multisigAddress
  · refine Or.inl ⟨hsame, ?_⟩
    simp [IpcCheckpointSubnetMsg.rotated, SubnetState.rotateToCommittee, SubnetCommittee.sameAs,
      hsame]
  · refine Or.inr ⟨hsame, ?_⟩
    simp [IpcCheckpointSubnetMsg.rotated, SubnetState.rotateToCommittee, SubnetCommittee.sameAs,
      hsame]

end Checkpoint

/-- What a commit does to the committee of a subnet and the history of it. -/
inductive CommitteeStep (X : Library) (db : HeedDb) (t : Txid20) : Event → HeedDb → Prop
  | other {ev new} : (∀ ctx tx m, ev = .message ctx tx (.checkpointSubnet m) →
        m.subnetId ≠ .fromTxid20 t) →
      KeepsCommittee X db t new → checkpointsOf X new t = checkpointsOf X db t →
      CommitteeStep X db t ev new
  | checkpoint {ctx tx m s change} : m.subnetId = .fromTxid20 t →
      db.getSubnetState X (.fromTxid20 t) = some s → m.rotation X db s = .ok change →
      CommitteeStep X db t (.message ctx tx (.checkpointSubnet m))
        (m.checkpointedDb X db s change ctx.blockHeight ctx.blockHash (X.computeTxid tx))

theorem committeeStep_of_commit (hs : Sound X db) (h : Commit X db e db') (t : Txid20) :
    CommitteeStep X db t e db' := by
  by_cases he : ∃ ctx tx m, e = .message ctx tx (.checkpointSubnet m)
  · obtain ⟨ctx, tx, m, rfl⟩ := he
    cases h with
    | checkpointSubnet _ _ hsave =>
      obtain ⟨s, change, hst, hrot, rfl⟩ := IpcCheckpointSubnetMsg.saveToDb_eq_ok hsave
      obtain ⟨u, hu, -⟩ := hs.state laws hst
      rw [hu] at hst
      by_cases htu : t = u
      · subst htu
        exact .checkpoint hu hst hrot
      · -- a checkpoint of another subnet
        have hkeeps : KeepsCommittee X db t (m.checkpointedDb X db s change ctx.blockHeight
            ctx.blockHash (X.computeTxid tx)) := by
          refine .same (by rw [getSubnetState_checkpointedDb laws _ _ _ _ _ _ hu, if_neg htu]) ?_
          intro n
          rw [getCommittee_checkpointedDb laws _ _ _ _ _ _ hu]
          cases change with
          | none => rfl
          | some c => exact if_neg (fun hand => htu hand.1)
        refine .other ?_ hkeeps (checkpointsOf_eq hkeeps.numberOfCheckpoints_eq ?_)
        · rintro _ _ _ ⟨⟩ hm
          exact htu (SubnetId.fromTxid20_injective (hm.symm.trans hu))
        · intro i _
          rw [getCheckpoint_checkpointedDb laws _ _ _ _ _ _ hu, if_neg (fun hand => htu hand.1)]
  · have hne : ∀ ctx tx m, e ≠ .message ctx tx (.checkpointSubnet m) :=
      fun ctx tx m heq => he ⟨ctx, tx, m, heq⟩
    have hkeeps : KeepsCommittee X db t db' :=
      keepsCommittee_of_subnetStep laws (subnetStep_of_commit laws hs h) hne
    refine .other (fun ctx tx m heq => absurd heq (hne ctx tx m)) hkeeps
      (checkpointsOf_eq hkeeps.numberOfCheckpoints_eq ?_)
    intro i hi
    exact getCheckpoint_of_commit laws hs h hne hi

/-- The active committee stands in the table under its number. -/
def CommitteeStored (X : Library) (db : HeedDb) (t : Txid20) : Prop :=
  ∀ s, db.getSubnetState X (.fromTxid20 t) = some s →
    db.getCommittee X (.fromTxid20 t) s.committeeNumber = some s.committee

theorem CommitteeStored.step (h : CommitteeStored X db t) (hstep : CommitteeStep X db t e db') :
    CommitteeStored X db' t := by
  intro s' hs'
  cases hstep with
  | other _ hkeeps _ =>
    cases hkeeps with
    | same hstate hcommittee =>
      rw [hs', Option.map_some] at hstate
      obtain ⟨s, hs, heq⟩ := Option.map_eq_some_iff.mp hstate.symm
      obtain ⟨hnum, hrest⟩ := Prod.mk.inj heq
      rw [hcommittee, ← hnum, ← (Prod.mk.inj hrest).1]
      exact h s hs
    | starts _ hs hnum _ hone =>
      rw [hs] at hs'
      cases hs'
      rw [hnum]
      exact hone
  | @checkpoint ctx tx m s change hm hs _ =>
    rw [getSubnetState_checkpointedDb laws _ _ _ _ _ _ hm, if_pos rfl] at hs'
    obtain rfl := Option.some.inj hs'
    rw [getCommittee_checkpointedDb laws _ _ _ _ _ _ hm, IpcCheckpointSubnetMsg.checkpointedState_eq]
    cases change with
    | none => exact h s hs
    | some c =>
      dsimp only
      rcases rotated_cases s c with ⟨-, heq⟩ | ⟨-, hcommittee, hnum⟩
      · rw [heq, if_neg (fun hand => by omega)]
        exact h s hs
      · rw [hcommittee, hnum, if_pos ⟨rfl, rfl⟩]

omit laws in
/-- The rotation of a checkpoint with its record. -/
theorem checkpointRecord_next (m : IpcCheckpointSubnetMsg) (s : SubnetState)
    (change : Option StakeChangeRequest) (height : Nat) (txid : Txid) :
    (m.checkpointRecord s change height txid).nextCommitteeNumber =
        (if change.isSome then s.committeeNumber + 1 else s.committeeNumber) ∧
      (m.checkpointRecord s change height txid).nextConfigurationNumber =
        (change.map (·.configurationNumber)).getD s.committee.configurationNumber := ⟨rfl, rfl⟩

omit laws in
/-- The condition on a checkpoint that rotates. -/
theorem rotationMoves_iff {m : IpcCheckpointSubnetMsg} {s : SubnetState} {c : StakeChangeRequest}
    {ctx : BlockContext} {tx : Transaction} (hm : m.subnetId = .fromTxid20 t)
    (hs : db.getSubnetState X (.fromTxid20 t) = some s)
    (hlt : s.committee.configurationNumber < m.nextCommitteeConfigurationNumber)
    (hc : db.getStakeChange X (.fromTxid20 t) m.nextCommitteeConfigurationNumber = some c) :
    RotationMoves X t db (.message ctx tx (.checkpointSubnet m)) db' ↔
      s.committee.multisigAddress ≠ c.committeeAfterChange.multisigAddress ∧
        c.committeeAfterChange.configurationNumber = m.nextCommitteeConfigurationNumber := by
  constructor
  · intro h
    exact h hm s c hs hlt hc
  · intro h _ s₁ c₁ hs₁ _ hc₁
    rw [hs] at hs₁
    rw [hc] at hc₁
    cases hs₁
    cases hc₁
    exact h

/-- The state agrees with the record exactly when the rotation moves. -/
theorem agrees_iff {m : IpcCheckpointSubnetMsg} {s : SubnetState}
    {change : Option StakeChangeRequest} {ctx : BlockContext} {tx : Transaction}
    (hsound : Sound X db) (hm : m.subnetId = .fromTxid20 t)
    (hs : db.getSubnetState X (.fromTxid20 t) = some s) (hrot : m.rotation X db s = .ok change) :
    ((m.checkpointedState s change ctx.blockHeight).committeeNumber =
        (m.checkpointRecord s change ctx.blockHeight (X.computeTxid tx)).nextCommitteeNumber ∧
      (m.checkpointedState s change ctx.blockHeight).committee.configurationNumber =
        (m.checkpointRecord s change ctx.blockHeight (X.computeTxid tx)).nextConfigurationNumber) ↔
      RotationMoves X t db (.message ctx tx (.checkpointSubnet m)) db' := by
  obtain ⟨hnumber, hconf⟩ := checkpointRecord_next m s change ctx.blockHeight (X.computeTxid tx)
  rw [hnumber, hconf, IpcCheckpointSubnetMsg.checkpointedState_eq]
  cases change with
  | none =>
    refine iff_of_true ⟨rfl, rfl⟩ ?_
    intro _ s₁ c hs₁ hlt hc
    rw [hs] at hs₁
    cases hs₁
    rcases rotation_eq_none hrot with hn | hn <;> omega
  | some c =>
    obtain ⟨hlt, hc⟩ := IpcCheckpointSubnetMsg.rotation_eq_some hrot
    rw [hm] at hc
    have hnum := (hsound.request laws hc).1
    rw [rotationMoves_iff hm hs hlt hc]
    simp only [Option.isSome_some, if_true, Option.map_some, Option.getD_some, hnum]
    rcases rotated_cases s c with ⟨hsame, heq⟩ | ⟨hne, hcommittee, hnext⟩
    · rw [heq]
      exact iff_of_false (fun hand => by omega) (fun hand => hand.1 hsame)
    · rw [hcommittee, hnext]
      exact ⟨fun hand => ⟨hne, hand.2⟩, fun hand => ⟨rfl, hand.2⟩⟩

theorem followsRecord_iff (hs : Sound X db) (hstored : CommitteeStored X db t)
    (h : Commit X db e db') : RotationMoves X t db e db' ↔ FollowsRecord X t db e db' := by
  have hstep : CommitteeStep X db t e db' := committeeStep_of_commit laws hs h t
  have hstored' := hstored.step laws hstep
  cases hstep with
  | other hne _ _ =>
    refine iff_of_true ?_ ?_
    · unfold RotationMoves
      split
      · exact fun hm => absurd hm (hne _ _ _ rfl)
      · trivial
    · unfold FollowsRecord
      split
      · exact fun hm => absurd hm (hne _ _ _ rfl)
      · trivial
  | @checkpoint ctx tx m s change hm hst hrot =>
    rw [← agrees_iff laws hs hm hst hrot]
    have hstate := getSubnetState_checkpointedDb laws db s change ctx.blockHeight ctx.blockHash
      (X.computeTxid tx) hm t
    rw [if_pos rfl] at hstate
    have hlast := lastCheckpointNumber_checkpointedState (m := m) s change ctx.blockHeight
      (X.computeTxid tx)
    have hrecord := getCheckpoint_checkpointedDb laws db s change ctx.blockHeight ctx.blockHash
      (X.computeTxid tx) hm t
      (m.checkpointRecord s change ctx.blockHeight (X.computeTxid tx)).checkpointNumber
    rw [if_pos ⟨rfl, rfl⟩] at hrecord
    constructor
    · rintro ⟨hnumber, hconf⟩ _
      exact ⟨_, _, _, hstate, hlast, hrecord, rfl, hnumber, hconf, hstored' _ hstate⟩
    · intro hfollows
      obtain ⟨s', number, record, hs', hn, hr, -, hnumber, hconf, -⟩ := hfollows hm
      rw [hstate] at hs'
      obtain rfl := Option.some.inj hs'
      rw [hlast] at hn
      obtain rfl := Option.some.inj hn
      rw [hrecord] at hr
      obtain rfl := Option.some.inj hr
      exact ⟨hnumber, hconf⟩

/-- A message after a height leaves the lookup at this height as it is. -/
theorem lookup_of_later {height : Nat} (hstep : CommitteeStep X db t e db')
    (hlater : ∀ a, messageOf e = some a → height < a.1.blockHeight) :
    committeeNumberAt X db' t height = committeeNumberAt X db t height := by
  cases hstep with
  | other _ _ hsame => rw [committeeNumberAt, hsame]; rfl
  | @checkpoint ctx tx m s change hm hs hrot =>
    have hlt : height < ctx.blockHeight := hlater _ rfl
    rw [committeeNumberAt, checkpointsOf_checkpointedDb laws _ _ _ _ _ _ hm hs, List.foldl_append]
    exact if_neg (not_le.mpr hlt)

/-- A message up to a height keeps the lookup at this height at the active committee. -/
theorem lookup_of_earlier {height : Nat} (hsound : Sound X db) (hstep : CommitteeStep X db t e db')
    (hmoves : RotationMoves X t db e db')
    (hearlier : ∀ a, messageOf e = some a → a.1.blockHeight ≤ height)
    (h : ∀ s, db.getSubnetState X (.fromTxid20 t) = some s →
      committeeNumberAt X db t height = s.committeeNumber) :
    ∀ s, db'.getSubnetState X (.fromTxid20 t) = some s →
      committeeNumberAt X db' t height = s.committeeNumber := by
  intro s' hs'
  cases hstep with
  | other _ hkeeps hsame =>
    have hlookup : committeeNumberAt X db' t height = committeeNumberAt X db t height := by
      rw [committeeNumberAt, hsame]
      rfl
    rw [hlookup]
    cases hkeeps with
    | same hstate _ =>
      rw [hs', Option.map_some] at hstate
      obtain ⟨s, hs, heq⟩ := Option.map_eq_some_iff.mp hstate.symm
      rw [← (Prod.mk.inj heq).1]
      exact h s hs
    | starts hnone hs hnum _ _ =>
      rw [hs] at hs'
      cases hs'
      rw [hnum, committeeNumberAt, checkpointsOf, numberOfCheckpoints, hnone]
      rfl
  | @checkpoint ctx tx m s change hm hs hrot =>
    have hle : ctx.blockHeight ≤ height := hearlier _ rfl
    obtain ⟨hnumber, -⟩ := (agrees_iff laws hsound hm hs hrot).mpr hmoves
    rw [getSubnetState_checkpointedDb laws _ _ _ _ _ _ hm, if_pos rfl] at hs'
    obtain rfl := Option.some.inj hs'
    rw [hnumber, committeeNumberAt, checkpointsOf_checkpointedDb laws _ _ _ _ _ _ hm hs,
      List.foldl_append]
    exact if_pos hle

/-- The database is sound and the active committee of the subnet is stored. -/
def StoredSoundly (X : Library) (t : Txid20) (db : HeedDb) : Prop :=
  Sound X db ∧ CommitteeStored X db t

theorem storedSoundly_commit (h : StoredSoundly X t db) (hstep : Commit X db e db') :
    StoredSoundly X t db' :=
  ⟨h.1.commit laws hstep, h.2.step laws (committeeStep_of_commit laws h.1 hstep t)⟩

omit laws in
theorem storedSoundly_empty : StoredSoundly X t HeedDb.empty := by
  refine ⟨sound_empty, ?_⟩
  intro s hs
  cases hs

/-- The lookup at a height after the messages up to this height. -/
theorem lookup_earlier_run {height : Nat} {l : List (Event × HeedDb)}
    (hrun : Trail (Commit X) HeedDb.empty l)
    (hmoves : AllSteps (RotationMoves X t) HeedDb.empty l)
    (hearlier : ∀ a ∈ messages l, a.1.blockHeight ≤ height) {s : SubnetState}
    (hs : (lastStore HeedDb.empty l).getSubnetState X (.fromTxid20 t) = some s) :
    committeeNumberAt X (lastStore HeedDb.empty l) t height = s.committeeNumber := by
  induction l using List.reverseRec generalizing s with
  | nil => cases hs
  | append_singleton l a ih =>
    obtain ⟨e, db'⟩ := a
    obtain ⟨hl, hstep⟩ := trail_snoc.mp hrun
    obtain ⟨hm, hmove⟩ := allSteps_snoc.mp hmoves
    rw [messages_append] at hearlier
    rw [lastStore_snoc] at hs ⊢
    have hsound := sound_of_trail laws sound_empty hl
    refine lookup_of_earlier laws hsound (committeeStep_of_commit laws hsound hstep t) hmove ?_
      (fun s hs => ih hl hm (fun a ha => hearlier a (List.mem_append_left _ ha)) hs) s hs
    intro a ha
    exact hearlier a (List.mem_append_right _
      (List.mem_filterMap.mpr ⟨_, List.mem_singleton_self _, ha⟩))

/-- The lookup at a height does not change with later messages. -/
theorem lookup_later_run {height : Nat} {l : List (Event × HeedDb)} (hsound : Sound X db)
    (hrun : Trail (Commit X) db l) (hlater : ∀ a ∈ messages l, height < a.1.blockHeight) :
    committeeNumberAt X (lastStore db l) t height = committeeNumberAt X db t height := by
  induction l generalizing db with
  | nil => rfl
  | cons a rest ih =>
    obtain ⟨e, d⟩ := a
    rw [lastStore_cons, ih (hsound.commit laws hrun.1) hrun.2]
    · refine lookup_of_later laws (committeeStep_of_commit laws hsound hrun.1 t) ?_
      intro a ha
      exact hlater a (List.mem_filterMap.mpr ⟨_, List.mem_cons_self, ha⟩)
    · intro a ha
      refine hlater a ?_
      obtain ⟨b, hb, hab⟩ := List.mem_filterMap.mp ha
      exact List.mem_filterMap.mpr ⟨b, List.mem_cons_of_mem _ hb, hab⟩

/-- The checkpoints of a run determine the active committee of a subnet exactly when
every rotation of it moves to the committee that was asked for. -/
theorem history_determines_committee_iff {l : List (Event × HeedDb)}
    (hrun : Trail (Commit X) HeedDb.empty l) :
    AllSteps (RotationMoves X t) HeedDb.empty l ↔ HistoryDetermines X t l := by
  have hiff : AllSteps (RotationMoves X t) HeedDb.empty l ↔
      AllSteps (FollowsRecord X t) HeedDb.empty l :=
    allSteps_iff (I := StoredSoundly X t) (fun _ _ _ h hstep => storedSoundly_commit laws h hstep)
      (fun _ _ _ h hstep => followsRecord_iff laws h.1 h.2 hstep) storedSoundly_empty hrun
  constructor
  · intro hmoves
    refine ⟨hiff.mp hmoves, ?_⟩
    rintro l₁ l₂ height s rfl hearlier hlater hs
    obtain ⟨hl₁, hl₂⟩ := trail_append.mp hrun
    rw [lastStore_append, lookup_later_run laws (sound_of_trail laws sound_empty hl₁) hl₂ hlater]
    exact lookup_earlier_run laws hl₁ (allSteps_append.mp hmoves).1 hearlier hs
  · intro h
    exact hiff.mpr h.follows

end Laws

/-- A request after the configuration of a committee leads to another address, and
to the committee of its own number. -/
def RequestsMove (db : HeedDb) : Prop :=
  ∀ x ∈ db.subnetDb.entries, ∀ y ∈ db.stakeChangesDb.entries,
    x.2.committee.configurationNumber < y.2.configurationNumber →
      x.2.committee.multisigAddress ≠ y.2.committeeAfterChange.multisigAddress ∧
        y.2.committeeAfterChange.configurationNumber = y.2.configurationNumber

instance (db : HeedDb) : Decidable (RequestsMove db) := by
  unfold RequestsMove
  infer_instance

theorem rotationMoves_of_requestsMove (laws : DisplayLaws X) (hs : Sound X db)
    (h : RequestsMove db) : RotationMoves X t db e db' := by
  unfold RotationMoves
  split
  · intro _ s c hst hlt hc
    have hnum := (hs.request laws hc).1
    obtain ⟨hne, hconf⟩ := h _ ((Table.get_eq_some_iff _).mp hst) _
      ((Table.get_eq_some_iff _).mp hc) (hnum ▸ hlt)
    exact ⟨hne, hconf.trans hnum⟩
  · trivial

open Solo

/-- After a stake that changes the power, the rotation of a checkpoint moves. -/
theorem moves_after_stake : ∃ l, Trail (Commit stakeLibrary) HeedDb.empty l ∧
    lastStore HeedDb.empty l = (run stakeLibrary
      [createTx, joinTx 100000, stakeTx, checkpointTx 14 1]).store HeedDb.empty ∧
    AllSteps (RotationMoves stakeLibrary subnet) HeedDb.empty l := by
  have hlaws : DisplayLaws stakeLibrary := displayLaws_ideal _
  obtain ⟨l, hl, hc, hlast⟩ := exists_trail (X := stakeLibrary) ⟨none⟩ context
    [createTx, joinTx 100000, stakeTx, checkpointTx 14 1] HeedDb.empty
  have hrequests : AllSteps (fun db _ _ => RequestsMove db) HeedDb.empty l := by
    apply allSteps_of_stores (P := RequestsMove)
    · exact fun _ _ _ h => h
    · rw [hc]
      decide +kernel
  have hsound : AllSteps (fun db _ _ => Sound stakeLibrary db) HeedDb.empty l :=
    invariant_before (fun _ _ _ h hstep _ => h.commit hlaws hstep) sound_empty hl hrequests
  exact ⟨l, hl, hlast, allSteps_of_trail
    (fun _ _ _ _ h => rotationMoves_of_requestsMove hlaws h.1 h.2) hl
    (allSteps_and hsound hrequests)⟩

/-- The rotation of this checkpoint is to committee two. -/
theorem history_determines_committee_after_rotation :
    ∃ l s, Trail (Commit stakeLibrary) HeedDb.empty l ∧
      (lastStore HeedDb.empty l).getSubnetState stakeLibrary (.fromTxid20 subnet) = some s ∧
      s.committeeNumber = 2 ∧ HistoryDetermines stakeLibrary subnet l := by
  have hlaws : DisplayLaws stakeLibrary := displayLaws_ideal _
  obtain ⟨l, hl, hlast, hmoves⟩ := moves_after_stake
  have hstate : ((lastStore HeedDb.empty l).getSubnetState stakeLibrary
      (.fromTxid20 subnet)).map (·.committeeNumber) = some 2 := by
    rw [hlast]
    decide +kernel
  obtain ⟨s, hs, hnum⟩ := Option.map_eq_some_iff.mp hstate
  exact ⟨l, s, hl, hs, hnum, (history_determines_committee_iff hlaws hl).mp hmoves⟩

/-- A stake of 5000 keeps the power and the address: the record of the rotation says
committee two, and the subnet stays at committee one. -/
theorem rotation_to_same_address_keeps_number :
    ¬ ∀ X : Library, DisplayLaws X → ∀ t l, Trail (Commit X) HeedDb.empty l →
      HistoryDetermines X t l := by
  intro hall
  have hok : (run stakeLibrary [createTx, joinTx 100000, payingTx 12 ipcStakeTag key.bytes 5000 10,
      checkpointTx 14 1]).outcome.toOption = some () := of_decide_eq_true (by decide +kernel)
  obtain ⟨l, hl, -, hlast⟩ := exists_chainTrail ⟨none⟩ context _ HeedDb.empty hok
  have hheights : ∀ a ∈ messages l, a.1.blockHeight ≤ 1 := by
    intro a ha
    obtain ⟨tx, -, heq⟩ := List.mem_map.mp (hl.message_mem ha)
    rw [← (Prod.mk.inj heq).1]
    exact le_refl 1
  have hstate : ((lastStore HeedDb.empty l).getSubnetState stakeLibrary
      (.fromTxid20 subnet)).map (·.committeeNumber) = some 1 := by
    rw [hlast]
    decide +kernel
  have hlookup : committeeNumberAt stakeLibrary (lastStore HeedDb.empty l) subnet 1 = 2 := by
    rw [hlast]
    decide +kernel
  obtain ⟨s, hs, hnum⟩ := Option.map_eq_some_iff.mp hstate
  have heq := (hall stakeLibrary (displayLaws_ideal _) subnet l hl.trail).lookup l [] 1 s
    (List.append_nil l).symm hheights (fun a ha => by cases ha) hs
  rw [hlookup, hnum] at heq
  cases heq

end Monitor
