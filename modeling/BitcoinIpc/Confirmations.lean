import BitcoinIpc.CommitteeHistory

/-!
# Confirmed and applied requests

A checkpoint that rotates confirms the requests up to the number it asks for, and
the active committee carries a number of its own. The confirmed requests of a
subnet are those up to the number of its committee after every checkpoint exactly
when every rotation is to a committee of another address with the number that was
asked for.
-/

namespace Monitor

open Faults Bytes Chain Messages Crates Multisig Db Commits OrderedTable

variable {X : Library}

/-- A request is confirmed exactly if its number is not above that of the committee. -/
def Applied (X : Library) (db : HeedDb) (t : Txid20) : Prop :=
  ∀ s k c, db.getSubnetState X (.fromTxid20 t) = some s →
    db.getStakeChange X (.fromTxid20 t) k = some c →
    (c.checkpointBlockHeight.isSome = true ↔ k ≤ s.committee.configurationNumber)

/-- After a checkpoint of the subnet the confirmed requests are those up to the number of its
committee, and the requests up to the number it asks for are confirmed. -/
def ConfirmsApplied (X : Library) (t : Txid20) (_ : HeedDb) : Event → HeedDb → Prop
  | .message _ _ (.checkpointSubnet m), db' => m.subnetId = .fromTxid20 t →
    Applied X db' t ∧ ∀ k c, db'.getStakeChange X (.fromTxid20 t) k = some c →
      k ≤ m.nextCommitteeConfigurationNumber → c.checkpointBlockHeight.isSome = true
  | _, _ => True

/-- After every checkpoint of a run the confirmed requests are the applied ones, those that a
checkpoint reaches are confirmed, and a confirmation is never changed. -/
structure ConfirmedAreApplied (X : Library) (t : Txid20) (l : List (Event × HeedDb)) : Prop where
  applied : AllSteps (ConfirmsApplied X t) HeedDb.empty l
  lasting : ∀ l₁ l₂ k c height, l = l₁ ++ l₂ →
    (lastStore HeedDb.empty l₁).getStakeChange X (.fromTxid20 t) k = some c →
    c.checkpointBlockHeight = some height →
    ∃ c', (lastStore HeedDb.empty l).getStakeChange X (.fromTxid20 t) k = some c' ∧
      c'.checkpointBlockHeight = some height ∧ c'.checkpointBlockHash = c.checkpointBlockHash

variable {db db' : HeedDb} {t : Txid20} {e : Event} {asked : List Nat}

/-- The requests and the committee of the state are all that is read. -/
theorem Applied.congr (h : Applied X db t)
    (hreq : ∀ k, db'.getStakeChange X (.fromTxid20 t) k = db.getStakeChange X (.fromTxid20 t) k)
    (hstate : ∀ s', db'.getSubnetState X (.fromTxid20 t) = some s' →
      ∃ s, db.getSubnetState X (.fromTxid20 t) = some s ∧ s.committee = s'.committee) :
    Applied X db' t := by
  intro s' k c hs' hc
  obtain ⟨s, hs, heq⟩ := hstate s' hs'
  rw [← heq]
  exact h s k c hs (hreq k ▸ hc)

theorem applied_empty : Applied X HeedDb.empty t := by
  intro s k c hs
  cases hs

section Laws

variable (laws : DisplayLaws X)
include laws

/-- The requests of a stake change are open and have numbers above that of the committee. -/
theorem Applied.stake {s : SubnetState} {next : SubnetCommittee}
    {requests : List StakeChangeRequest} (h : Applied X db t) (hacc : Accounted X asked db t)
    (hs : db.getSubnetState X (.fromTxid20 t) = some s)
    (hstep : StakeStep X t s.latestCommittee next
      (db.getNextStakeChangeConfigurationNumber X (.fromTxid20 t)) requests) :
    Applied X (recordStake X db (.fromTxid20 t) s next requests) t := by
  intro s' k c hs' hc
  rw [getSubnetState_of_put laws (subnetDb_recordStake _ _ _ _ _), if_pos rfl] at hs'
  cases hs'
  rcases getStakeChange_recordStake laws hstep hc with ⟨hnew, hlt⟩ | hold
  · have hopen := hstep.open_ c hnew
    have hle := (hacc.configuration_le s hs).1
    rw [hopen]
    refine iff_of_false (by simp) ?_
    exact not_le.mpr (lt_of_le_of_lt hle hlt)
  · exact h s k c hs hold

/-- Another message than a checkpoint. -/
theorem Applied.subnetStep (h : Applied X db t) (hacc : Accounted X asked db t)
    (hstep : SubnetStep X db e db')
    (he : ∀ ctx tx m, e ≠ .message ctx tx (.checkpointSubnet m)) : Applied X db' t := by
  have hsame : db'.stakeChangesDb = db.stakeChangesDb →
      (∀ s', db'.getSubnetState X (.fromTxid20 t) = some s' →
        ∃ s, db.getSubnetState X (.fromTxid20 t) = some s ∧ s.committee = s'.committee) →
      Applied X db' t := by
    intro hr hstate
    refine h.congr ?_ hstate
    intro k
    rw [HeedDb.getStakeChange, hr]
    rfl
  cases hstep with
  | frame hframe =>
    refine hsame hframe.2.2.1 ?_
    intro s hs
    rw [HeedDb.getSubnetState, hframe.1] at hs
    exact ⟨s, hs, rfl⟩
  | genesis => exact hsame rfl (fun s hs => ⟨s, hs, rfl⟩)
  | @start _ u g s hnone hid hreg hsub =>
    have hstate := HeedDb.getSubnetState_save db laws (.fromTxid20 u) (.fromTxid20 t) s
    by_cases htu : t = u
    · -- a subnet that starts has no requests
      subst htu
      intro s' k c _ hc
      have hbounds := hacc.number_bounds (k := k) (c := c) hc
      rw [hacc.before hnone] at hbounds
      omega
    · rw [if_neg (fun heq => htu (SubnetId.fromTxid20_injective heq))] at hstate
      exact hsame rfl (fun s' hs' => ⟨s', hstate.symm.trans hs', rfl⟩)
  | @stake _ u s next requests hs hstake =>
    by_cases htu : t = u
    · subst htu
      exact h.stake laws hacc hs hstake
    · have hstate := getSubnetState_of_put laws (t := t)
        (subnetDb_recordStake (X := X) db (.fromTxid20 u) s next requests)
      rw [if_neg htu] at hstate
      refine h.congr ?_ (fun s' hs' => ⟨s', hstate.symm.trans hs', rfl⟩)
      intro k
      rw [recordStake, getStakeChange_foldl laws, if_neg htu]
      · rfl
      · have hnodup : (requests.map (·.configurationNumber)).Nodup := by
          rw [hstake.numbers_eq]
          exact List.nodup_range'
        exact fun a ha b hb hab => List.inj_on_of_nodup_map hnodup ha hb hab
  | @kill _ u s killed marked _ hs hdb _ hr _ =>
    refine hsame hr ?_
    intro s' hs'
    rw [getSubnetState_of_put laws hdb] at hs'
    split_ifs at hs' with htu
    · cases hs'
      subst htu
      exact ⟨s, hs, rfl⟩
    · exact ⟨s', hs', rfl⟩
  | checkpoint => exact absurd rfl (he _ _ _)

section Checkpoint

variable {m : IpcCheckpointSubnetMsg} {s : SubnetState} {change : Option StakeChangeRequest}

/-- A checkpoint of another subnet. -/
theorem Applied.checkpoint_other {u : Txid20} (h : Applied X db t) (hsound : Sound X db)
    (hm : m.subnetId = .fromTxid20 u) (htu : t ≠ u)
    (hs : db.getSubnetState X (.fromTxid20 u) = some s) (hrot : m.rotation X db s = .ok change)
    (height : Nat) (hash : BlockHash) (txid : Txid) :
    Applied X (m.checkpointedDb X db s change height hash txid) t := by
  refine h.congr ?_ ?_
  · intro k
    cases change with
    | none => rfl
    | some c =>
      rw [(requests_of_checkpoint laws height hash txid hsound hm hs hrot).2 t k]
      simp [htu]
  · intro s' hs'
    rw [getSubnetState_checkpointedDb laws _ _ _ _ _ _ hm, if_neg htu] at hs'
    exact ⟨s', hs', rfl⟩

/-- A checkpoint without a rotation. -/
theorem Applied.ask (h : Applied X db t) (hm : m.subnetId = .fromTxid20 t)
    (hs : db.getSubnetState X (.fromTxid20 t) = some s) (height : Nat) (hash : BlockHash)
    (txid : Txid) : Applied X (m.checkpointedDb X db s none height hash txid) t := by
  refine h.congr (fun _ => rfl) ?_
  intro s' hs'
  rw [getSubnetState_checkpointedDb laws _ _ _ _ _ _ hm, if_pos rfl,
    IpcCheckpointSubnetMsg.checkpointedState_eq] at hs'
  cases hs'
  exact ⟨s, hs, rfl⟩

/-- The requests after a rotation: those that were confirmed, and those up to the number. -/
theorem confirmed_after {c : StakeChangeRequest} (hsound : Sound X db)
    (hm : m.subnetId = .fromTxid20 t) (hs : db.getSubnetState X (.fromTxid20 t) = some s)
    (hrot : m.rotation X db s = .ok (some c)) (height : Nat) (hash : BlockHash) (txid : Txid)
    {k : Nat} {r' : StakeChangeRequest}
    (hr' : (m.checkpointedDb X db s (some c) height hash txid).getStakeChange X (.fromTxid20 t) k =
      some r') :
    ∃ r, db.getStakeChange X (.fromTxid20 t) k = some r ∧
      (r'.checkpointBlockHeight.isSome = true ↔ r.checkpointBlockHeight.isSome = true ∨
        k ≤ m.nextCommitteeConfigurationNumber) := by
  rw [(requests_of_checkpoint laws height hash txid hsound hm hs hrot).2 t k] at hr'
  obtain ⟨r, hr, rfl⟩ := Option.map_eq_some_iff.mp hr'
  refine ⟨r, hr, ?_⟩
  simp only [true_and]
  rw [← not_iff_not, Option.not_isSome_iff_eq_none, open_confirms, (hsound.request laws hr).1]
  simp

/-- The number of the active committee after a rotation. -/
theorem configuration_rotated (c : StakeChangeRequest) (hm : m.subnetId = .fromTxid20 t)
    (height : Nat) (hash : BlockHash) (txid : Txid) {s' : SubnetState}
    (hs' : (m.checkpointedDb X db s (some c) height hash txid).getSubnetState X (.fromTxid20 t) =
      some s') :
    (s.committee.multisigAddress = c.committeeAfterChange.multisigAddress ∧
        s'.committee = s.committee) ∨
      (s.committee.multisigAddress ≠ c.committeeAfterChange.multisigAddress ∧
        s'.committee = c.committeeAfterChange) := by
  rw [getSubnetState_checkpointedDb laws _ _ _ _ _ _ hm, if_pos rfl,
    IpcCheckpointSubnetMsg.checkpointedState_eq] at hs'
  cases hs'
  rcases rotated_cases s c with ⟨hsame, heq⟩ | ⟨hne, heq, -⟩
  · have hcommittee := congrArg SubnetState.committee heq
    exact Or.inl ⟨hsame, hcommittee⟩
  · exact Or.inr ⟨hne, heq⟩

/-- After a rotation the confirmed requests are the applied ones exactly when it moves to the
committee of the number that was asked for. -/
theorem Applied.rotate_iff {c : StakeChangeRequest} (h : Applied X db t)
    (hacc : Accounted X asked db t) (hsound : Sound X db) (hm : m.subnetId = .fromTxid20 t)
    (hs : db.getSubnetState X (.fromTxid20 t) = some s) (hrot : m.rotation X db s = .ok (some c))
    (height : Nat) (hash : BlockHash) (txid : Txid) :
    Applied X (m.checkpointedDb X db s (some c) height hash txid) t ↔
      s.committee.multisigAddress ≠ c.committeeAfterChange.multisigAddress ∧
        c.committeeAfterChange.configurationNumber = m.nextCommitteeConfigurationNumber := by
  obtain ⟨hlt, hc⟩ := IpcCheckpointSubnetMsg.rotation_eq_some hrot
  rw [hm] at hc
  have hreads := (requests_of_checkpoint laws height hash txid hsound hm hs hrot).2 t
  have hstate := getSubnetState_checkpointedDb laws db s (some c) height hash txid hm t
  rw [if_pos rfl] at hstate
  have hafter := configuration_rotated laws c hm height hash txid hstate
  constructor
  · intro happlied
    -- the request that was asked for is confirmed
    have hget := hreads m.nextCommitteeConfigurationNumber
    rw [hc, Option.map_some] at hget
    obtain ⟨r, -, hconf⟩ := confirmed_after laws hsound hm hs hrot height hash txid hget
    have hle := (happlied _ _ _ hstate hget).mp (hconf.mpr (Or.inr le_rfl))
    rcases hafter with ⟨-, hcommittee⟩ | ⟨hne, hcommittee⟩
    · rw [hcommittee] at hle
      exact absurd hlt (not_lt.mpr hle)
    · rw [hcommittee] at hle
      refine ⟨hne, le_antisymm ?_ hle⟩
      -- so is the request with the number of the new committee
      obtain ⟨q, hq⟩ := entry_isSome.mp ((hacc.dense c.committeeAfterChange.configurationNumber).mpr
        ⟨by omega, (hacc.after_le _ c hc).1⟩)
      have hget' := hreads c.committeeAfterChange.configurationNumber
      rw [hq, Option.map_some] at hget'
      obtain ⟨q', hq', hconf'⟩ := confirmed_after laws hsound hm hs hrot height hash txid hget'
      have hsome := (happlied _ _ _ hstate hget').mpr (by rw [hcommittee])
      rcases hconf'.mp hsome with hold | hnumber
      · have hactive := (h s _ q' hs hq').mp hold
        omega
      · exact hnumber
  · rintro ⟨hne, hnumber⟩ s' k r' hs' hr'
    obtain rfl := Option.some.inj (hstate.symm.trans hs')
    obtain ⟨r, hr, hconf⟩ := confirmed_after laws hsound hm hs hrot height hash txid hr'
    have hcommittee := (hafter.resolve_left (fun h => hne h.1)).2
    rw [hconf, h s k r hs hr, hcommittee, hnumber]
    constructor
    · rintro (hle | hle)
      · omega
      · exact hle
    · exact Or.inr

end Checkpoint

theorem confirmsApplied_iff (h : Applied X db t) (hacc : Accounted X asked db t)
    (hsound : Sound X db) (hstep : Commit X db e db') :
    (RotationMoves X t db e db' ↔ ConfirmsApplied X t db e db') ∧
      (RotationMoves X t db e db' → Applied X db' t) := by
  by_cases he : ∃ ctx tx m, e = .message ctx tx (.checkpointSubnet m)
  · obtain ⟨ctx, tx, m, rfl⟩ := he
    cases hstep with
    | checkpointSubnet _ _ hsave =>
      obtain ⟨s, change, hs, hrot, rfl⟩ := IpcCheckpointSubnetMsg.saveToDb_eq_ok hsave
      obtain ⟨u, hu, -⟩ := hsound.state laws hs
      rw [hu] at hs
      by_cases htu : t = u
      · subst htu
        cases change with
        | none =>
          have happlied := h.ask laws hu hs ctx.blockHeight ctx.blockHash (X.computeTxid tx)
          refine ⟨iff_of_true ?_ ?_, fun _ => happlied⟩
          · intro _ s' c hs' hlt
            rw [hs] at hs'
            cases hs'
            rcases rotation_eq_none hrot with hn | hn <;> omega
          · intro _
            refine ⟨happlied, ?_⟩
            intro k c hc hle
            refine (h s k c hs hc).mpr ?_
            rcases rotation_eq_none hrot with hn | hn <;> omega
        | some c =>
          obtain ⟨hlt, hc⟩ := IpcCheckpointSubnetMsg.rotation_eq_some hrot
          rw [hu] at hc
          have hiff := h.rotate_iff laws hacc hsound hu hs hrot ctx.blockHeight ctx.blockHash
            (X.computeTxid tx)
          rw [rotationMoves_iff hu hs hlt hc]
          refine ⟨⟨fun hmove _ => ⟨hiff.mpr hmove, ?_⟩, fun hall => hiff.mp (hall hu).1⟩, hiff.mpr⟩
          intro k r' hr' hle
          obtain ⟨r, -, hconf⟩ := confirmed_after laws hsound hu hs hrot ctx.blockHeight
            ctx.blockHash (X.computeTxid tx) hr'
          exact hconf.mpr (Or.inr hle)
      · have hno : m.subnetId ≠ .fromTxid20 t :=
          fun hm => htu (SubnetId.fromTxid20_injective (hm.symm.trans hu))
        exact ⟨iff_of_true (fun hm => absurd hm hno) (fun hm => absurd hm hno),
          fun _ => h.checkpoint_other laws hsound hu htu hs hrot _ _ _⟩
  · have hne : ∀ ctx tx m, e ≠ .message ctx tx (.checkpointSubnet m) :=
      fun ctx tx m heq => he ⟨ctx, tx, m, heq⟩
    refine ⟨iff_of_true ?_ ?_,
      fun _ => h.subnetStep laws hacc (subnetStep_of_commit laws hsound hstep) hne⟩
    · unfold RotationMoves
      split
      · exact absurd rfl (hne _ _ _)
      · trivial
    · unfold ConfirmsApplied
      split
      · exact absurd rfl (hne _ _ _)
      · trivial

/-- A confirmation stays as it is. -/
theorem confirmation_of_trail {l : List (Event × HeedDb)} (h : Reachable X db)
    (hl : Trail (Commit X) db l) {k height : Nat} {c : StakeChangeRequest}
    (hc : db.getStakeChange X (.fromTxid20 t) k = some c)
    (hheight : c.checkpointBlockHeight = some height) :
    (lastStore db l).getStakeChange X (.fromTxid20 t) k = some c := by
  induction l generalizing db with
  | nil => exact hc
  | cons a rest ih =>
    obtain ⟨e, d⟩ := a
    obtain ⟨c₁, hc₁, hsame⟩ := (appendOnly_of_commit laws h hl.1 t).requests k c hc
    rcases hsame with rfl | ⟨_, _, _, -, -, hconfirms, -⟩
    · obtain ⟨l₀, hl₀, rfl⟩ := h
      rw [lastStore_cons]
      exact ih ⟨l₀ ++ [(e, d)], trail_snoc.mpr ⟨hl₀, hl.1⟩, lastStore_snoc _ _ _ _⟩ hl.2 hc₁
    · rw [HeedDb.confirms, hheight] at hconfirms
      cases hconfirms

/-- Along a run, the confirmed requests of a subnet are the applied ones exactly when every
rotation of it moves to the committee that was asked for. -/
theorem confirmed_are_applied_iff {l : List (Event × HeedDb)}
    (hrun : Trail (Commit X) HeedDb.empty l) :
    AllSteps (RotationMoves X t) HeedDb.empty l ↔ ConfirmedAreApplied X t l := by
  have hsteps : ∀ l, Trail (Commit X) HeedDb.empty l →
      (AllSteps (RotationMoves X t) HeedDb.empty l ↔
        AllSteps (ConfirmsApplied X t) HeedDb.empty l) ∧
      (AllSteps (RotationMoves X t) HeedDb.empty l →
        Applied X (lastStore HeedDb.empty l) t) := by
    intro l
    induction l using List.reverseRec with
    | nil => exact fun _ => ⟨Iff.rfl, fun _ => applied_empty⟩
    | append_singleton l a ih =>
      intro hrun
      obtain ⟨e, db'⟩ := a
      obtain ⟨hl, hstep⟩ := trail_snoc.mp hrun
      obtain ⟨hiff, happlied⟩ := ih hl
      have hacc := accounted_of_trail laws hl t
      have hsound := sound_of_trail laws sound_empty hl
      rw [allSteps_snoc, allSteps_snoc, lastStore_snoc, ← hiff]
      refine ⟨and_congr_right fun hmoves => ?_, fun hmoves => ?_⟩
      · exact (confirmsApplied_iff laws (happlied hmoves) hacc hsound hstep).1
      · exact (confirmsApplied_iff laws (happlied hmoves.1) hacc hsound hstep).2 hmoves.2
  constructor
  · intro hmoves
    refine ⟨(hsteps l hrun).1.mp hmoves, ?_⟩
    rintro l₁ l₂ k c height rfl hc hheight
    obtain ⟨hl₁, hl₂⟩ := trail_append.mp hrun
    rw [lastStore_append]
    exact ⟨c, confirmation_of_trail laws ⟨l₁, hl₁, rfl⟩ hl₂ hc hheight, hheight, rfl⟩
  · exact fun h => (hsteps l hrun).1.mpr h.applied

end Laws

open Solo

/-- After a stake that changes the power, the checkpoint confirms and applies it. -/
theorem confirmed_are_applied_after_stake :
    ∃ l s c, Trail (Commit stakeLibrary) HeedDb.empty l ∧
      (lastStore HeedDb.empty l).getSubnetState stakeLibrary (.fromTxid20 subnet) = some s ∧
      (lastStore HeedDb.empty l).getStakeChange stakeLibrary (.fromTxid20 subnet) 1 = some c ∧
      s.committee.configurationNumber = 1 ∧ c.checkpointBlockHeight.isSome = true ∧
      ConfirmedAreApplied stakeLibrary subnet l := by
  have hlaws : DisplayLaws stakeLibrary := displayLaws_ideal _
  obtain ⟨l, hl, hlast, hmoves⟩ := moves_after_stake
  have hstate : ((lastStore HeedDb.empty l).getSubnetState stakeLibrary
      (.fromTxid20 subnet)).map (·.committee.configurationNumber) = some 1 := by
    rw [hlast]
    decide +kernel
  have hrequest : ((lastStore HeedDb.empty l).getStakeChange stakeLibrary
      (.fromTxid20 subnet) 1).map (·.checkpointBlockHeight.isSome) = some true := by
    rw [hlast]
    decide +kernel
  obtain ⟨s, hs, hnum⟩ := Option.map_eq_some_iff.mp hstate
  obtain ⟨c, hc, hconf⟩ := Option.map_eq_some_iff.mp hrequest
  exact ⟨l, s, c, hl, hs, hc, hnum, hconf, (confirmed_are_applied_iff hlaws hl).mp hmoves⟩

/-- The database after a stake of 5000, which keeps the power and the address. -/
def idleDb : HeedDb :=
  (run stakeLibrary [createTx, joinTx 100000,
    payingTx 12 ipcStakeTag key.bytes 5000 10]).store HeedDb.empty

/-- What a checkpoint with the number of the stake saves. -/
def idleSaved : Outcome IpcLibError (HeedDb × SubnetCheckpoint) :=
  (checkpointMsg 1).saveToDb stakeLibrary idleDb context.blockHeight context.blockHash
    (stakeLibrary.computeTxid (checkpointTx 14 1))

/-- The checkpoint confirms request one, and the committee stays at number zero. -/
theorem rotation_to_same_address_confirms :
    ¬ ∀ X : Library, DisplayLaws X → ∀ t l, Trail (Commit X) HeedDb.empty l →
      ConfirmedAreApplied X t l := by
  intro hall
  obtain ⟨l, hl, -, hlast⟩ := exists_trail (X := stakeLibrary) ⟨none⟩ context
    [createTx, joinTx 100000, payingTx 12 ipcStakeTag key.bytes 5000 10] HeedDb.empty
  have hdb : lastStore HeedDb.empty l = idleDb := hlast
  have hparsed : IpcCheckpointSubnetMsg.fromCheckpointTx stakeLibrary idleDb (checkpointTx 14 1) =
      .ok (checkpointMsg 1) := of_decide_eq_true (by decide +kernel)
  obtain ⟨saved, hsaved⟩ := exists_ok_of_isSome
    (by decide +kernel : idleSaved.toOption.isSome = true)
  have hcommit : Commit stakeLibrary idleDb
      (.message context (checkpointTx 14 1) (.checkpointSubnet (checkpointMsg 1))) saved.1 :=
    .checkpointSubnet hparsed (by decide +kernel) hsaved
  have hrun := trail_snoc.mpr ⟨hl, hdb ▸ hcommit⟩
  have happlied := (allSteps_snoc.mp
    (hall stakeLibrary (displayLaws_ideal _) subnet _ hrun).applied).2 rfl
  have hafter : idleSaved.toOption.any (fun saved =>
      (saved.1.getSubnetState stakeLibrary (.fromTxid20 subnet)).any (fun s =>
        (saved.1.getStakeChange stakeLibrary (.fromTxid20 subnet) 1).any (fun c =>
          c.checkpointBlockHeight.isSome && decide (s.committee.configurationNumber < 1)))) =
      true := by
    decide +kernel
  rw [toOption_eq_some.mpr hsaved, Option.any_some] at hafter
  obtain ⟨s, hs, hafter⟩ := (Option.any_eq_true _ _).mp hafter
  obtain ⟨c, hc, hafter⟩ := (Option.any_eq_true _ _).mp hafter
  rw [Bool.and_eq_true, decide_eq_true_iff] at hafter
  exact absurd hafter.2 (not_lt.mpr ((happlied.1 s 1 c hs hc).mp hafter.1))

end Monitor
