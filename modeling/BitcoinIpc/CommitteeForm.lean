import BitcoinIpc.Bootstrap
import BitcoinIpc.CommitteeHistory

/-!
# Form of the stored committees

The committees that are stored for a subnet: the active and the waiting one,
those its requests lead to and those of the committee table. Keys, thresholds
and addresses are right in every state. A collateral that reaches the minimum
stake gives a positive power only from 10000 satoshis on, and the minimum stake
is whatever the last creation said.
-/

namespace Monitor

open Faults Bytes Chain Messages Crates Multisig Db Grouping Commits OrderedTable

variable {X : Library}

/-- A committee that is stored for a subnet. -/
inductive Stored (X : Library) (db : HeedDb) (t : Txid20) : SubnetCommittee → Prop
  | active {s} : db.getSubnetState X (.fromTxid20 t) = some s → Stored X db t s.committee
  | waiting {s c} : db.getSubnetState X (.fromTxid20 t) = some s → s.waitingCommittee = some c →
      Stored X db t c
  | request {n r} : db.getStakeChange X (.fromTxid20 t) n = some r →
      Stored X db t r.committeeAfterChange
  | table {n c} : db.getCommittee X (.fromTxid20 t) n = some c → Stored X db t c

/-- Distinct keys, the threshold of the total power, the address of the keys with their powers
and the threshold, and for every validator the minimum stake and the positive power of it. -/
structure WellFormed (X : Library) (t : Txid20) (minStake : Amount) (c : SubnetCommittee) :
    Prop where
  nodup : (c.validators.map (·.pubkey)).Nodup
  threshold_eq : (SubnetValidators.threshold c.validators : Outcome MultisigError Power) =
    .ok c.threshold
  address_eq : createSubnetMultisigAddress X (.fromTxid20 t) c.validatorWeightedKeys c.threshold =
    .ok c.multisigAddress
  stake_le : ∀ v ∈ c.validators, minStake ≤ v.collateral
  power_eq : ∀ v ∈ c.validators, collateralToPower v.collateral minStake = .ok v.power
  power_pos : ∀ v ∈ c.validators, 0 < v.power

/-- The committees of a subnet that runs are well formed, for the minimum of its creation. -/
def CommitteesFormed (X : Library) (db : HeedDb) : Prop :=
  ∀ t s, db.getSubnetState X (.fromTxid20 t) = some s →
    ∃ g, db.getSubnetGenesisInfo X (.fromTxid20 t) = some g ∧
      ∀ c, Stored X db t c → WellFormed X t g.createSubnetMsg.minValidatorStake c

/-- A creation asks for no more than the collaterals that are stored for its subnet, and
a validator that enters a committee by a join has a power. -/
def BringsPower (X : Library) (db : HeedDb) : Event → HeedDb → Prop
  | .message _ tx (.createSubnet m), _ =>
    (db.getSubnetState X (.fromTxid (X.computeTxid tx))).isSome = true →
      ∀ c, Stored X db (.fromTxid (X.computeTxid tx)) c →
        ∀ v ∈ c.validators, m.minValidatorStake ≤ v.collateral
  | .message _ tx (.joinSubnet m), _ =>
    ((db.getSubnetState X m.subnetId).isSome = true → powerScaleFactor ≤ m.collateral) ∧
    (db.getSubnetState X m.subnetId = none → ∀ g, db.getSubnetGenesisInfo X m.subnetId = some g →
      (m.joinedGenesis X g (X.computeTxid tx)).enoughToBootstrap = true →
        (∀ v ∈ g.genesisValidators, powerScaleFactor ≤ v.collateral) ∧
          powerScaleFactor ≤ m.collateral)
  | _, _ => True

theorem powerOf_pos_iff {amount : Amount} : 0 < powerOf amount ↔ powerScaleFactor ≤ amount := by
  have hmax : powerScaleFactor ≤ maxPower := by decide
  rw [powerOf, Nat.div_pos_iff, le_min_iff]
  constructor
  · exact fun h => h.2.1
  · exact fun h => ⟨by decide, h, hmax⟩

/-- A good committee is well formed as soon as its validators have the minimum and a power. -/
theorem wellFormed_of_good {t : Txid20} {minStake : Amount} {c : SubnetCommittee}
    (h : Good X t c) (hmin : ∀ v ∈ c.validators, minStake ≤ v.collateral)
    (hpower : ∀ v ∈ c.validators, 0 < powerOf v.collateral) : WellFormed X t minStake c := by
  refine ⟨h.regular.nodup, ?_, ?_, hmin, ?_, ?_⟩
  · rw [h.derived.threshold_eq]
    exact threshold_of_viable h.derived.viable
  · rw [h.derived.threshold_eq, h.derived.address_eq, createSubnetMultisigAddress,
      SubnetCommittee.validatorWeightedKeys, createMultisigScript_of_viable h.derived.viable]
    simp [addressOf]
  · intro v hv
    rw [h.regular.power_eq v hv]
    exact collateralToPower_of_le (hmin v hv)
  · intro v hv
    rw [h.regular.power_eq v hv]
    exact hpower v hv

section Tables

variable {db db' : HeedDb} {t : Txid20} {c : SubnetCommittee}

/-- Lookups that give the same committees store the same committees. -/
theorem Stored.congr (h : Stored X db' t c)
    (hstate : ∀ s', db'.getSubnetState X (.fromTxid20 t) = some s' →
      ∃ s, db.getSubnetState X (.fromTxid20 t) = some s ∧ s.committee = s'.committee ∧
        s.waitingCommittee = s'.waitingCommittee)
    (hreq : db'.stakeChangesDb = db.stakeChangesDb)
    (hcom : db'.committeeDb = db.committeeDb) : Stored X db t c := by
  cases h with
  | active hs' =>
    obtain ⟨s, hs, hc, -⟩ := hstate _ hs'
    rw [← hc]
    exact .active hs
  | waiting hs' hw =>
    obtain ⟨s, hs, -, hwait⟩ := hstate _ hs'
    exact .waiting hs (hwait.trans hw)
  | @request n r hr =>
    refine .request (n := n) ?_
    rw [HeedDb.getStakeChange, ← hreq]
    exact hr
  | @table n _ hc =>
    refine .table (n := n) ?_
    rw [HeedDb.getCommittee, ← hcom]
    exact hc

/-- The committee tables are left alone. -/
theorem Stored.of_tables (h : Stored X db' t c) (hs : db'.subnetDb = db.subnetDb)
    (hreq : db'.stakeChangesDb = db.stakeChangesDb)
    (hcom : db'.committeeDb = db.committeeDb) : Stored X db t c := by
  refine h.congr ?_ hreq hcom
  intro s hget
  refine ⟨s, ?_, rfl, rfl⟩
  rw [HeedDb.getSubnetState, ← hs]
  exact hget

end Tables

/-- What one commit does to the committees stored for a subnet. -/
inductive FormStep (X : Library) (t : Txid20) (db : HeedDb) (e : Event) (db' : HeedDb) : Prop
  | kept : (∀ c, Stored X db' t c → Stored X db t c) →
      (db'.getSubnetState X (.fromTxid20 t)).isSome =
        (db.getSubnetState X (.fromTxid20 t)).isSome → FormStep X t db e db'
  | started {s} : db.getSubnetState X (.fromTxid20 t) = none →
      db'.getSubnetState X (.fromTxid20 t) = some s →
      (∀ c, Stored X db' t c → c = s.committee ∨ Stored X db t c) → FormStep X t db e db'
  | changed {s s' next} : db.getSubnetState X (.fromTxid20 t) = some s →
      db'.getSubnetState X (.fromTxid20 t) = some s' → s'.waitingCommittee = some next →
      db'.getSubnetGenesisInfo X (.fromTxid20 t) = db.getSubnetGenesisInfo X (.fromTxid20 t) →
      (∀ c, Stored X db' t c → c = next ∨ Stored X db t c) →
      (∀ w ∈ next.validators, w ∈ s.latestCommittee.validators ∨
        (∃ g, db.getSubnetGenesisInfo X (.fromTxid20 t) = some g ∧
          g.createSubnetMsg.minValidatorStake ≤ w.collateral) ∧
        ((∃ m, joinOf (.fromTxid20 t) e = some m ∧ m.collateral = w.collateral) ∨
          (∃ v ∈ s.latestCommittee.validators, v.collateral ≤ w.collateral) ∨
          0 < powerOf w.collateral)) → FormStep X t db e db'

section Steps

variable (laws : DisplayLaws X) {db db' : HeedDb} {e : Event} {t : Txid20}
include laws

/-- A state is written that has the committees of the one before it. -/
theorem stored_of_put {id : SubnetId} {s s' : SubnetState} {c : SubnetCommittee}
    (hs : db.getSubnetState X id = some s)
    (h : db'.subnetDb = db.subnetDb.put (subnetStateKey X id) s')
    (hc : s.committee = s'.committee) (hw : s.waitingCommittee = s'.waitingCommittee)
    (hreq : db'.stakeChangesDb = db.stakeChangesDb)
    (hcom : db'.committeeDb = db.committeeDb) (hstored : Stored X db' t c) : Stored X db t c := by
  refine hstored.congr ?_ hreq hcom
  intro s₁ hs₁
  have hget : db'.getSubnetState X (.fromTxid20 t) =
      (db.saveSubnetState X id s').getSubnetState X (.fromTxid20 t) := by
    rw [HeedDb.getSubnetState, h]
    rfl
  rw [hget, HeedDb.getSubnetState_save db laws] at hs₁
  split_ifs at hs₁ with hid
  · cases hs₁
    exact ⟨s, by rw [hid, hs], hc, hw⟩
  · exact ⟨s₁, hs₁, rfl, rfl⟩

theorem formStep_of_put {id : SubnetId} {s s' : SubnetState}
    (hs : db.getSubnetState X id = some s)
    (h : db'.subnetDb = db.subnetDb.put (subnetStateKey X id) s')
    (hc : s.committee = s'.committee) (hw : s.waitingCommittee = s'.waitingCommittee)
    (hreq : db'.stakeChangesDb = db.stakeChangesDb)
    (hcom : db'.committeeDb = db.committeeDb) : FormStep X t db e db' :=
  .kept (fun _ hstored => stored_of_put laws hs h hc hw hreq hcom hstored)
    (isSome_getSubnetState_of_put laws hs h _)

/-- After a stake change, the committee it leads to is stored with those before. -/
theorem stored_recordStake {u : Txid20} {s : SubnetState} {next : SubnetCommittee}
    {requests : List StakeChangeRequest} (hs : db.getSubnetState X (.fromTxid20 u) = some s)
    (hafter : ∀ r ∈ requests, r.committeeAfterChange = next) {c : SubnetCommittee}
    (h : Stored X (recordStake X db (.fromTxid20 u) s next requests) t c) :
    (t = u ∧ c = next) ∨ Stored X db t c := by
  have hstate := getSubnetState_of_put laws (t := t)
    (subnetDb_recordStake (X := X) db (.fromTxid20 u) s next requests)
  cases h with
  | active hs' =>
    rw [hstate] at hs'
    split_ifs at hs' with htu
    · cases hs'
      subst htu
      exact Or.inr (.active (s := s) hs)
    · exact Or.inr (.active hs')
  | waiting hs' hw =>
    rw [hstate] at hs'
    split_ifs at hs' with htu
    · cases hs'
      cases hw
      exact Or.inl ⟨htu, rfl⟩
    · exact Or.inr (.waiting hs' hw)
  | @request n r hr =>
    have hmem := (Table.get_eq_some_iff _).mp hr
    rcases mem_foldl_addStakeChange hmem with hold | ⟨a, ha, hkey⟩
    · exact Or.inr (.request ((Table.get_eq_some_iff _).mpr hold))
    · obtain ⟨hkey, rfl⟩ := Prod.mk.inj hkey
      refine Or.inl ⟨?_, hafter r ha⟩
      exact SubnetId.fromTxid20_injective (numberedKey_inj laws hkey).1
  | @table n c hc =>
    refine Or.inr (.table (n := n) ?_)
    obtain ⟨table, hframe⟩ := foldl_addStakeChange_frame (X := X) (.fromTxid20 u) requests
      (db.saveSubnetState X (.fromTxid20 u) { s with waitingCommittee := some next })
    rw [recordStake, hframe] at hc
    exact hc

/-- The committees after a checkpoint were stored before it. -/
theorem stored_checkpointedDb {m : IpcCheckpointSubnetMsg} {u : Txid20} {s : SubnetState}
    {change : Option StakeChangeRequest} {height : Nat} {hash : BlockHash} {txid : Txid}
    (hsound : Sound X db) (hm : m.subnetId = .fromTxid20 u)
    (hs : db.getSubnetState X (.fromTxid20 u) = some s) (hrot : m.rotation X db s = .ok change)
    {c : SubnetCommittee} (h : Stored X (m.checkpointedDb X db s change height hash txid) t c) :
    Stored X db t c := by
  have hnew : ∀ r, change = some r → Stored X db u r.committeeAfterChange := by
    rintro r rfl
    have hget := (IpcCheckpointSubnetMsg.rotation_eq_some hrot).2
    rw [hm] at hget
    exact .request hget
  have hold := rotated_committees (P := Stored X db u) (.active hs) (fun w hw => .waiting hs hw) hnew
  cases h with
  | @active s' hs' =>
    rw [getSubnetState_checkpointedDb laws _ _ _ _ _ _ hm] at hs'
    split_ifs at hs' with htu
    · obtain rfl := Option.some.inj hs'
      rw [htu, IpcCheckpointSubnetMsg.checkpointedState_eq]
      exact hold.2.1
    · exact .active hs'
  | @waiting s' c hs' hw =>
    rw [getSubnetState_checkpointedDb laws _ _ _ _ _ _ hm] at hs'
    split_ifs at hs' with htu
    · obtain rfl := Option.some.inj hs'
      rw [IpcCheckpointSubnetMsg.checkpointedState_eq] at hw
      rw [htu]
      exact hold.2.2 _ hw
    · exact .waiting hs' hw
  | @request n r hr =>
    cases change with
    | none => exact .request (n := n) hr
    | some a =>
      obtain ⟨-, hreads⟩ := requests_of_checkpoint laws height hash txid hsound hm hs hrot
      rw [hreads t n] at hr
      obtain ⟨r₀, hr₀, rfl⟩ := Option.map_eq_some_iff.mp hr
      have hsame : (if t = u ∧ HeedDb.confirms m.nextCommitteeConfigurationNumber r₀ = true then
          HeedDb.confirmed height hash r₀ else r₀).committeeAfterChange =
            r₀.committeeAfterChange := by
        split_ifs <;> rfl
      rw [hsame]
      exact .request hr₀
  | @table n c hc =>
    rw [getCommittee_checkpointedDb laws _ _ _ _ _ _ hm] at hc
    cases change with
    | none => exact .table hc
    | some a =>
      dsimp only at hc
      split_ifs at hc with htu
      · obtain rfl := Option.some.inj hc
        rw [htu.1]
        exact hnew a rfl
      · exact .table hc

/-- A stake change of a subnet, seen from one subnet. -/
theorem formStep_recordStake {u : Txid20} {s : SubnetState} {next : SubnetCommittee}
    {requests : List StakeChangeRequest} (hs : db.getSubnetState X (.fromTxid20 u) = some s)
    (hafter : ∀ r ∈ requests, r.committeeAfterChange = next)
    (hnext : t = u → ∀ w ∈ next.validators, w ∈ s.latestCommittee.validators ∨
      (∃ g, db.getSubnetGenesisInfo X (.fromTxid20 t) = some g ∧
        g.createSubnetMsg.minValidatorStake ≤ w.collateral) ∧
      ((∃ m, joinOf (.fromTxid20 t) e = some m ∧ m.collateral = w.collateral) ∨
        (∃ v ∈ s.latestCommittee.validators, v.collateral ≤ w.collateral) ∨
        0 < powerOf w.collateral)) :
    FormStep X t db e (recordStake X db (.fromTxid20 u) s next requests) := by
  have hstate := getSubnetState_of_put laws (t := t)
    (subnetDb_recordStake (X := X) db (.fromTxid20 u) s next requests)
  by_cases htu : t = u
  · subst htu
    rw [if_pos rfl] at hstate
    refine .changed hs hstate rfl ?_ ?_ (hnext rfl)
    · rw [HeedDb.getSubnetGenesisInfo, subnetGenesisDb_recordStake]
      rfl
    · intro c hc
      exact (stored_recordStake laws hs hafter hc).imp_left (fun h => h.2)
  · rw [if_neg htu] at hstate
    refine .kept ?_ (by rw [hstate])
    intro c hc
    exact (stored_recordStake laws hs hafter hc).resolve_left (fun h => htu h.1)

theorem formStep_join {ctx : BlockContext} {tx : Transaction} {m : IpcJoinSubnetMsg}
    {height : Nat} {hash : BlockHash} {txid : Txid} {saved : HeedDb × Option SubnetState}
    (hsound : Sound X db) (hsave : m.saveToDb X db height hash txid = .ok saved) :
    FormStep X t db (.message ctx tx (.joinSubnet m)) saved.1 := by
  cases hst : db.getSubnetState X m.subnetId with
  | none =>
    obtain ⟨g, hg, -, -, hcase⟩ := IpcJoinSubnetMsg.saveToDb_pre hst hsave
    obtain ⟨-, ⟨u, hu⟩, -⟩ := hsound.genesis _ _ hg
    rcases hcase with ⟨-, rfl⟩ | ⟨s, -, hsub, rfl⟩
    · exact .kept (fun c hc => hc.of_tables rfl rfl rfl) rfl
    · rw [hu] at hst ⊢
      have hstate := HeedDb.getSubnetState_save db laws (.fromTxid20 u) (.fromTxid20 t) s
      have htable := fun n => HeedDb.getCommittee_save db laws (.fromTxid20 u) (.fromTxid20 t)
        s.committee s.committeeNumber n
      by_cases htu : t = u
      · subst htu
        rw [if_pos rfl] at hstate
        refine .started hst hstate ?_
        intro c hc
        cases hc with
        | active hs' =>
          obtain rfl := Option.some.inj (hstate.symm.trans hs')
          exact Or.inl rfl
        | waiting hs' hw =>
          obtain rfl := Option.some.inj (hstate.symm.trans hs')
          obtain ⟨c, -, hsub⟩ := bind_eq_ok.mp hsub
          cases hsub
          cases hw
        | request hr => exact Or.inr (.request hr)
        | @table n c hc =>
          have hread := (htable n).symm.trans hc
          split_ifs at hread with hn
          · exact Or.inl (Option.some.inj hread).symm
          · exact Or.inr (.table hread)
      · have hne : ¬ (SubnetId.fromTxid20 t = SubnetId.fromTxid20 u) :=
          fun heq => htu (SubnetId.fromTxid20_injective heq)
        rw [if_neg hne] at hstate
        refine .kept ?_ (congrArg Option.isSome hstate)
        intro c hc
        cases hc with
        | active hs' => exact .active (hstate.symm.trans hs')
        | waiting hs' hw => exact .waiting (hstate.symm.trans hs') hw
        | request hr => exact .request hr
        | @table n c hc =>
          have hread := (htable n).symm.trans hc
          rw [if_neg (fun h => hne h.1)] at hread
          exact .table hread
  | some s =>
    obtain ⟨next, -, -, hjoin, rfl⟩ := IpcJoinSubnetMsg.saveToDb_post hst hsave
    obtain ⟨u, hu, hsid, -, -⟩ := hsound.state laws hst
    obtain ⟨g, hg, hmin⟩ := IpcJoinSubnetMsg.minStake_of_saveToDb hsave
    rw [hsid] at hjoin
    obtain ⟨-, hrebuilt⟩ := SubnetCommittee.joinNewValidator_eq_ok hjoin
    rw [hu] at hst hg ⊢
    refine formStep_recordStake laws hst ?_ ?_
    · intro r hr
      simp only [IpcJoinSubnetMsg.requests, List.mem_cons, List.not_mem_nil, or_false] at hr
      rcases hr with rfl | rfl <;> rfl
    · rintro rfl w hw
      rw [hrebuilt.validators_eq] at hw
      rcases List.mem_append.mp hw with hw | hw
      · exact Or.inl hw
      · rw [List.mem_singleton.mp hw]
        refine Or.inr ⟨⟨g, hg, hmin⟩, Or.inl ⟨m, ?_, rfl⟩⟩
        simp only [joinOf, hu, if_true]

theorem formStep_stake {m : IpcStakeCollateralMsg} {height : Nat} {hash : BlockHash} {txid : Txid}
    (hsound : Sound X db) (hsave : m.saveToDb X db height hash txid = .ok db') :
    FormStep X t db e db' := by
  obtain ⟨s, v, next, hst, hv, hmod, rfl⟩ := IpcStakeCollateralMsg.saveToDb_eq_ok hsave
  obtain ⟨g, hg, hmin⟩ := IpcStakeCollateralMsg.minStake_of_saveToDb hsave hst hv
  obtain ⟨u, hu, -⟩ := hsound.state laws hst
  rw [hu] at hst hg hmod ⊢
  obtain ⟨i, -, hrebuilt⟩ := SubnetCommittee.modifyValidator_eq_ok hmod
  refine formStep_recordStake laws hst ?_ ?_
  · intro r hr
    rw [List.mem_singleton.mp hr]
    rfl
  · rintro rfl w hw
    rw [hrebuilt.validators_eq] at hw
    rcases List.mem_or_eq_of_mem_set hw with hw | rfl
    · exact Or.inl hw
    · exact Or.inr ⟨⟨g, hg, hmin⟩, Or.inr (Or.inl ⟨v,
        (SubnetCommittee.findValidator_eq_some hv).1, Nat.le_add_left _ _⟩)⟩

theorem formStep_unstake {m : IpcUnstakeCollateralMsg} {height : Nat} {hash : BlockHash}
    {txid : Txid} (hsound : Sound X db) (hsave : m.saveToDb X db height hash txid = .ok db') :
    FormStep X t db e db' := by
  obtain ⟨s, v, next, hst, hpk, hv, -, hafter, rfl⟩ :=
    IpcUnstakeCollateralMsg.saveToDb_eq_ok hsave
  obtain ⟨u, hu, -⟩ := hsound.state laws hst
  have hmin := IpcUnstakeCollateralMsg.minStake_of_saveToDb hsave hst hpk hv
  rw [hu] at hst hafter hmin ⊢
  refine formStep_recordStake laws hst ?_ ?_
  · intro r hr
    rw [List.mem_singleton.mp hr]
    rfl
  · rintro rfl w hw
    unfold IpcUnstakeCollateralMsg.afterUnstake at hafter
    split_ifs at hafter with hzero
    · obtain ⟨i, -, hrebuilt⟩ := SubnetCommittee.removeValidator_eq_ok hafter
      rw [hrebuilt.validators_eq] at hw
      exact Or.inl (List.mem_of_mem_eraseIdx hw)
    · obtain ⟨i, -, hrebuilt⟩ := SubnetCommittee.modifyValidator_eq_ok hafter
      rw [hrebuilt.validators_eq] at hw
      rcases List.mem_or_eq_of_mem_set hw with hw | rfl
      · exact Or.inl hw
      · exact Or.inr ⟨hmin hzero, Or.inr (Or.inr (Nat.pos_of_ne_zero hzero))⟩

/-- On a sound database every commit is one of the three steps, for every subnet. -/
theorem formStep_of_commit (hsound : Sound X db) (h : Commit X db e db') (t : Txid20) :
    FormStep X t db e db' := by
  have hframe : db'.subnetDb = db.subnetDb → db'.stakeChangesDb = db.stakeChangesDb →
      db'.committeeDb = db.committeeDb → FormStep X t db e db' := by
    intro hs hreq hcom
    refine .kept (fun c hc => hc.of_tables hs hreq hcom) ?_
    rw [HeedDb.getSubnetState, hs]
    rfl
  cases h with
  | createSubnet => exact hframe rfl rfl rfl
  | joinSubnet _ _ hsave => exact formStep_join laws hsound hsave
  | prefundSubnet _ _ hsave =>
    obtain ⟨g, -, -, rfl⟩ := IpcPrefundSubnetMsg.saveToDb_eq_ok hsave
    exact hframe rfl rfl rfl
  | fundSubnet _ _ hsave =>
    obtain ⟨s, -, rfl⟩ := IpcFundSubnetMsg.saveToDb_eq_ok hsave
    exact hframe rfl rfl rfl
  | checkpointSubnet _ _ hsave =>
    obtain ⟨s, change, hs, hrot, rfl⟩ := IpcCheckpointSubnetMsg.saveToDb_eq_ok hsave
    obtain ⟨u, hu, -⟩ := hsound.state laws hs
    refine .kept (fun c hc => stored_checkpointedDb laws hsound hu (hu ▸ hs) hrot hc) ?_
    exact isSome_getSubnetState_of_put laws hs subnetDb_checkpointedDb _
  | batchTransfer _ _ hsave =>
    obtain ⟨_, _, _, heq⟩ := IpcBatchTransferMsg.sameButBatch_saveToDb hsave
    exact hframe (by rw [heq]) (by rw [heq]) (by rw [heq])
  | stakeCollateral _ _ hsave => exact formStep_stake laws hsound hsave
  | unstakeCollateral _ _ hsave => exact formStep_unstake laws hsound hsave
  | killSubnet _ _ hsave =>
    obtain ⟨s, r, hs, rfl | ⟨marked, -, rfl⟩⟩ := IpcKillSubnetMsg.saveToDb_eq_ok hsave
    · exact hframe rfl rfl rfl
    · exact formStep_of_put laws hs rfl rfl rfl rfl rfl
  | transaction => exact hframe rfl rfl rfl
  | rewards hsame =>
    obtain ⟨_, _, rfl⟩ := hsame
    exact hframe rfl rfl rfl
  | block => exact hframe rfl rfl rfl

omit laws in
theorem minStake_of_joinOf {id : SubnetId} {m : IpcJoinSubnetMsg} (h : Commit X db e db')
    (hjoin : joinOf id e = some m) : m.subnetId = id ∧
      ∃ g, db.getSubnetGenesisInfo X id = some g ∧
        g.createSubnetMsg.minValidatorStake ≤ m.collateral := by
  cases h with
  | joinSubnet _ _ hsave =>
    simp only [joinOf] at hjoin
    split_ifs at hjoin with hid
    cases hjoin
    exact ⟨hid, hid ▸ IpcJoinSubnetMsg.minStake_of_saveToDb hsave⟩
  | _ => cases hjoin

/-- A subnet that runs was created, its genesis validators reach the minimum, and for a subnet
that does not run no committee is stored. -/
structure Housed (X : Library) (t : Txid20) (db : HeedDb) : Prop where
  genesis : (db.getSubnetState X (.fromTxid20 t)).isSome = true →
    (db.getSubnetGenesisInfo X (.fromTxid20 t)).isSome = true
  staked : ∀ g, db.getSubnetGenesisInfo X (.fromTxid20 t) = some g →
    ∀ v ∈ g.genesisValidators, g.createSubnetMsg.minValidatorStake ≤ v.collateral
  unstored : db.getSubnetState X (.fromTxid20 t) = none → ∀ c, ¬ Stored X db t c

omit laws in
theorem housed_empty : Housed X t HeedDb.empty := by
  refine ⟨?_, ?_, ?_⟩
  · intro h
    cases h
  · intro g hg
    cases hg
  · intro _ c hc
    cases hc with
    | active h => cases h
    | waiting h => cases h
    | request h => cases h
    | table h => cases h

omit laws in
theorem staked_joined {m : IpcJoinSubnetMsg} {g : SubnetGenesisInfo} {txid : Txid}
    (h : Housed X t db) (hstep : Commit X db e db') (hjoin : joinOf (.fromTxid20 t) e = some m)
    (hg : db.getSubnetGenesisInfo X (.fromTxid20 t) = some g) :
    ∀ v ∈ (m.joinedGenesis X g txid).genesisValidators,
      g.createSubnetMsg.minValidatorStake ≤ v.collateral := by
  obtain ⟨-, g', hg', hmin⟩ := minStake_of_joinOf hstep hjoin
  rw [hg] at hg'
  cases hg'
  intro v hv
  rcases List.mem_append.mp hv with hv | hv
  · exact h.staked g hg v hv
  · rw [List.mem_singleton.mp hv]
    exact hmin

theorem Housed.commit (h : Housed X t db) (hsound : Sound X db) (hstep : Commit X db e db') :
    Housed X t db' := by
  refine ⟨?_, ?_, ?_⟩
  · intro hsome
    cases genesisStep_of_commit laws hstep (.fromTxid20 t) with
    | other _ hg hs =>
      rw [hg]
      exact h.genesis (hs ▸ hsome)
    | created _ _ _ _ hg _ => rw [hg]; rfl
    | prefunded _ _ _ hg _ => rw [hg]; rfl
    | joined _ _ _ _ _ _ hg _ => rw [hg]; rfl
    | started _ _ _ _ _ _ _ hg _ _ => rw [hg]; rfl
    | member _ hs hg _ =>
      rw [hg]
      exact h.genesis hs
  · intro g' hg'
    cases genesisStep_of_commit laws hstep (.fromTxid20 t) with
    | other _ hg _ => exact h.staked g' (hg ▸ hg')
    | created _ _ _ _ hg _ =>
      rw [hg] at hg'
      cases hg'
      intro v hv
      cases hv
    | prefunded _ hget _ hg _ =>
      rw [hg] at hg'
      cases hg'
      have hstaked := h.staked _ hget
      exact hstaked
    | joined hjoin _ hget _ _ _ hg _ =>
      rw [hg] at hg'
      cases hg'
      exact staked_joined h hstep hjoin hget
    | started hjoin _ hget _ _ _ _ hg _ _ =>
      rw [hg] at hg'
      cases hg'
      exact staked_joined h hstep hjoin hget
    | member _ _ hg _ => exact h.staked g' (hg ▸ hg')
  · intro hnone c hc
    cases formStep_of_commit laws hsound hstep t with
    | kept hkept hs =>
      rw [hnone] at hs
      exact h.unstored (by simpa using hs.symm) c (hkept c hc)
    | started _ hs _ =>
      rw [hnone] at hs
      cases hs
    | changed _ hs _ _ _ _ =>
      rw [hnone] at hs
      cases hs

theorem housed_of_trail (t : Txid20) {l : List (Event × HeedDb)}
    (h : Trail (Commit X) HeedDb.empty l) : Housed X t (lastStore HeedDb.empty l) := by
  refine (invariant_last (C := fun _ _ _ => True)
    (I := fun db => Sound X db ∧ Housed X t db) ?_ ⟨sound_empty, housed_empty⟩ h
    (allSteps_of_events (fun _ _ => trivial))).2
  rintro db e db' ⟨hs, hh⟩ hstep -
  exact ⟨hs.commit laws hstep, hh.commit laws hs hstep⟩

omit laws in
/-- What the condition says of a join that starts its subnet. -/
theorem powers_of_join {m : IpcJoinSubnetMsg} {g : SubnetGenesisInfo} {txid : Txid}
    (hcond : BringsPower X db e db') (hjoin : joinOf (.fromTxid20 t) e = some m)
    (hnone : db.getSubnetState X (.fromTxid20 t) = none)
    (hg : db.getSubnetGenesisInfo X (.fromTxid20 t) = some g)
    (henough : (m.joinedGenesis X g txid).enoughToBootstrap = true) :
    (∀ v ∈ g.genesisValidators, powerScaleFactor ≤ v.collateral) ∧
      powerScaleFactor ≤ m.collateral := by
  unfold joinOf at hjoin
  split at hjoin
  · split_ifs at hjoin with hid
    cases hjoin
    simp only [BringsPower, hid] at hcond
    refine hcond.2 hnone g hg ?_
    simpa [SubnetGenesisInfo.enoughToBootstrap, IpcJoinSubnetMsg.joinedGenesis] using henough
  · cases hjoin

omit laws in
/-- What the condition says of a join of a subnet that runs. -/
theorem power_of_join {m : IpcJoinSubnetMsg} (hcond : BringsPower X db e db')
    (hjoin : joinOf (.fromTxid20 t) e = some m)
    (hsome : (db.getSubnetState X (.fromTxid20 t)).isSome = true) :
    powerScaleFactor ≤ m.collateral := by
  unfold joinOf at hjoin
  split at hjoin
  · split_ifs at hjoin with hid
    cases hjoin
    simp only [BringsPower, hid] at hcond
    exact hcond.1 hsome
  · cases hjoin

omit laws in
theorem stored_latest {s : SubnetState} (hs : db.getSubnetState X (.fromTxid20 t) = some s) :
    Stored X db t s.latestCommittee := by
  rw [latestCommittee_eq]
  cases hwait : s.waitingCommittee with
  | none => exact .active hs
  | some w => exact .waiting hs hwait

omit laws in
theorem WellFormed.powerOf_pos {minStake : Amount} {c : SubnetCommittee} {v : SubnetValidator}
    (h : WellFormed X t minStake c) (hv : v ∈ c.validators) : 0 < powerOf v.collateral := by
  have hpos := h.power_pos v hv
  rwa [(collateralToPower_eq_ok.mp (h.power_eq v hv)).2] at hpos

/-- The first committee of a subnet, when every genesis validator has a power. -/
theorem wellFormed_started {s' : SubnetState} (hsound' : Sound X db') (hhoused : Housed X t db)
    (hstep : Commit X db e db') (hcond : BringsPower X db e db')
    (hnone : db.getSubnetState X (.fromTxid20 t) = none)
    (hs' : db'.getSubnetState X (.fromTxid20 t) = some s') :
    ∃ g, db'.getSubnetGenesisInfo X (.fromTxid20 t) = some g ∧
      WellFormed X t g.createSubnetMsg.minValidatorStake s'.committee := by
  obtain ⟨⟨m, hjoin⟩, hopened⟩ := opened_of_commit laws hstep hnone hs'
  obtain ⟨u, hu, -, hgood, -⟩ := hsound'.state laws hs'
  cases SubnetId.fromTxid20_injective hu
  cases genesisStep_of_commit laws hstep (.fromTxid20 t) with
  | @started m' g txid height s hjoin' _ hg _ _ henough _ hg' _ _ =>
    rw [hjoin] at hjoin'
    cases hjoin'
    obtain ⟨g₁, hg₁, hvals⟩ := hopened.validators_eq
    rw [hg'] at hg₁
    cases hg₁
    refine ⟨_, hg', wellFormed_of_good hgood ?_ ?_⟩
    · rw [hvals]
      exact staked_joined hhoused hstep hjoin hg
    · obtain ⟨hpowers, hpower⟩ := powers_of_join hcond hjoin hnone hg henough
      rw [hvals]
      intro v hv
      rcases List.mem_append.mp hv with hv | hv
      · exact powerOf_pos_iff.mpr (hpowers v hv)
      · rw [List.mem_singleton.mp hv]
        exact powerOf_pos_iff.mpr hpower
  | other hnojoin _ _ =>
    rw [hjoin] at hnojoin
    cases hnojoin
  | created he _ _ _ _ _ =>
    subst he
    cases hjoin
  | prefunded hnojoin _ _ _ _ =>
    rw [hjoin] at hnojoin
    cases hnojoin
  | joined _ _ _ _ _ _ _ hsame =>
    rw [hs'] at hsame
    cases hsame
  | member _ hsome _ _ =>
    rw [hnone] at hsome
    cases hsome

omit laws in
/-- A committee stays well formed when the minimum changes to one that its collaterals reach. -/
theorem WellFormed.restake {minStake minStake' : Amount} {c : SubnetCommittee}
    (h : WellFormed X t minStake c) (hmin : ∀ v ∈ c.validators, minStake' ≤ v.collateral) :
    WellFormed X t minStake' c := by
  refine ⟨h.nodup, h.threshold_eq, h.address_eq, hmin, ?_, h.power_pos⟩
  intro v hv
  rw [(collateralToPower_eq_ok.mp (h.power_eq v hv)).2]
  exact collateralToPower_of_le (hmin v hv)

/-- A step of a subnet that runs which adds no committee. -/
theorem formed_of_kept {s : SubnetState} {g : SubnetGenesisInfo}
    (hstep : Commit X db e db') (hcond : BringsPower X db e db')
    (hs : db.getSubnetState X (.fromTxid20 t) = some s)
    (hg : db.getSubnetGenesisInfo X (.fromTxid20 t) = some g)
    (hwell : ∀ c, Stored X db t c → WellFormed X t g.createSubnetMsg.minValidatorStake c)
    (hkept : ∀ c, Stored X db' t c → Stored X db t c) :
    ∃ g', db'.getSubnetGenesisInfo X (.fromTxid20 t) = some g' ∧
      ∀ c, Stored X db' t c → WellFormed X t g'.createSubnetMsg.minValidatorStake c := by
  cases genesisStep_of_commit laws hstep (.fromTxid20 t) with
  | other _ hg' _ => exact ⟨g, hg'.trans hg, fun c hc => hwell c (hkept c hc)⟩
  | @created ctx tx m he hid _ _ hg' _ =>
    subst he
    obtain rfl : t = Txid20.fromTxid (X.computeTxid tx) := SubnetId.fromTxid20_injective hid
    refine ⟨_, hg', ?_⟩
    intro c hc
    exact (hwell c (hkept c hc)).restake (hcond (by rw [← hid, hs]; rfl) c (hkept c hc))
  | prefunded _ hget _ hg' _ =>
    rw [hg] at hget
    cases hget
    exact ⟨_, hg', fun c hc => hwell c (hkept c hc)⟩
  | joined _ hnone _ _ _ _ _ _ =>
    rw [hs] at hnone
    cases hnone
  | started _ hnone _ _ _ _ _ _ _ _ =>
    rw [hs] at hnone
    cases hnone
  | member _ _ hg' _ => exact ⟨g, hg'.trans hg, fun c hc => hwell c (hkept c hc)⟩

omit laws in
/-- The committee that a stake change makes wait. -/
theorem wellFormed_changed {s : SubnetState} {g : SubnetGenesisInfo} {next : SubnetCommittee}
    (hcond : BringsPower X db e db') (hgood : Good X t next)
    (hs : db.getSubnetState X (.fromTxid20 t) = some s)
    (hg : db.getSubnetGenesisInfo X (.fromTxid20 t) = some g)
    (hlatest : WellFormed X t g.createSubnetMsg.minValidatorStake s.latestCommittee)
    (hnext : ∀ w ∈ next.validators, w ∈ s.latestCommittee.validators ∨
      (∃ g, db.getSubnetGenesisInfo X (.fromTxid20 t) = some g ∧
        g.createSubnetMsg.minValidatorStake ≤ w.collateral) ∧
      ((∃ m, joinOf (.fromTxid20 t) e = some m ∧ m.collateral = w.collateral) ∨
        (∃ v ∈ s.latestCommittee.validators, v.collateral ≤ w.collateral) ∨
        0 < powerOf w.collateral)) :
    WellFormed X t g.createSubnetMsg.minValidatorStake next := by
  refine wellFormed_of_good hgood ?_ ?_
  · intro w hw
    rcases hnext w hw with hw | ⟨⟨g₁, hg₁, hmin⟩, -⟩
    · exact hlatest.stake_le w hw
    · rw [hg] at hg₁
      cases hg₁
      exact hmin
  · intro w hw
    rcases hnext w hw with hw | ⟨-, ⟨m, hjoin, hcol⟩ | ⟨v, hv, hle⟩ | hpos⟩
    · exact hlatest.powerOf_pos hw
    · exact powerOf_pos_iff.mpr (hcol ▸ power_of_join hcond hjoin (by rw [hs]; rfl))
    · exact powerOf_pos_iff.mpr (le_trans (powerOf_pos_iff.mp (hlatest.powerOf_pos hv)) hle)
    · exact hpos

/-- The committees stay well formed when a creation and the joins keep the condition. -/
theorem formed_of_bringsPower (hsound : Sound X db) (hhoused : ∀ t, Housed X t db)
    (hstep : Commit X db e db') (hformed : CommitteesFormed X db)
    (hcond : BringsPower X db e db') : CommitteesFormed X db' := by
  have hsound' := hsound.commit laws hstep
  intro t s' hs'
  cases formStep_of_commit laws hsound hstep t with
  | kept hkept hsame =>
    obtain ⟨s, hs⟩ : ∃ s, db.getSubnetState X (.fromTxid20 t) = some s := by
      rw [hs'] at hsame
      exact Option.isSome_iff_exists.mp hsame.symm
    obtain ⟨g, hg, hwell⟩ := hformed t s hs
    exact formed_of_kept laws hstep hcond hs hg hwell hkept
  | @started s hnone hs hstored =>
    rw [hs'] at hs
    cases hs
    obtain ⟨g, hg, hwell⟩ := wellFormed_started laws hsound' (hhoused t) hstep hcond hnone hs'
    refine ⟨g, hg, ?_⟩
    intro c hc
    rcases hstored c hc with rfl | hold
    · exact hwell
    · exact absurd hold ((hhoused t).unstored hnone c)
  | @changed s s₁ next hs hs₁ hwait hg' hstored hnext =>
    obtain ⟨g, hg, hwell⟩ := hformed t s hs
    refine ⟨g, hg'.trans hg, ?_⟩
    intro c hc
    rcases hstored c hc with rfl | hold
    · obtain ⟨u, hu, -, -, hgood⟩ := hsound'.state laws hs₁
      cases SubnetId.fromTxid20_injective hu
      exact wellFormed_changed hcond (hgood c hwait) hs hg (hwell _ (stored_latest hs)) hnext
    · exact hwell c hold

/-- A join of a subnet that runs brings a power when the committees after it are well formed. -/
theorem power_of_formed_running {m : IpcJoinSubnetMsg} {s : SubnetState} {height : Nat}
    {hash : BlockHash} {txid : Txid} {saved : HeedDb × Option SubnetState} (hsound : Sound X db)
    (hs : db.getSubnetState X m.subnetId = some s)
    (hsave : m.saveToDb X db height hash txid = .ok saved)
    (hformed : CommitteesFormed X saved.1) : powerScaleFactor ≤ m.collateral := by
  obtain ⟨next, -, -, hjoin, rfl⟩ := IpcJoinSubnetMsg.saveToDb_post hs hsave
  obtain ⟨u, hu, hsid, -, -⟩ := hsound.state laws hs
  rw [hsid] at hjoin
  obtain ⟨-, hrebuilt⟩ := SubnetCommittee.joinNewValidator_eq_ok hjoin
  rw [hu] at hformed
  have hstate := getSubnetState_of_put laws (t := u) (subnetDb_recordStake (X := X) db
    (.fromTxid20 u) s next (m.requests X next
      (db.getNextStakeChangeConfigurationNumber X (.fromTxid20 u)) height hash txid))
  rw [if_pos rfl] at hstate
  obtain ⟨g, -, hwell⟩ := hformed u _ hstate
  have hmem : m.newValidator X (powerOf m.collateral) txid ∈ next.validators := by
    rw [hrebuilt.validators_eq]
    exact List.mem_append_right _ List.mem_cons_self
  exact powerOf_pos_iff.mp ((hwell next (.waiting hstate rfl)).powerOf_pos hmem)

/-- A join that starts a subnet finds powers, and brings one, when the first committee is well
formed. -/
theorem powers_of_formed_first {m : IpcJoinSubnetMsg} {g : SubnetGenesisInfo} {height : Nat}
    {hash : BlockHash} {txid : Txid} {saved : HeedDb × Option SubnetState} (hsound : Sound X db)
    (hnone : db.getSubnetState X m.subnetId = none)
    (hg : db.getSubnetGenesisInfo X m.subnetId = some g)
    (henough : (m.joinedGenesis X g txid).enoughToBootstrap = true)
    (hsave : m.saveToDb X db height hash txid = .ok saved)
    (hformed : CommitteesFormed X saved.1) :
    ∀ v ∈ (m.joinedGenesis X g txid).genesisValidators, powerScaleFactor ≤ v.collateral := by
  obtain ⟨g', hg', -, -, hcase⟩ := IpcJoinSubnetMsg.saveToDb_pre hnone hsave
  obtain ⟨-, ⟨u, hu⟩, -⟩ := hsound.genesis _ _ hg
  rw [hg] at hg'
  cases hg'
  rcases hcase with ⟨hless, -⟩ | ⟨s, -, hsub, rfl⟩
  · rw [henough] at hless
    cases hless
  · rw [hu] at hformed
    have hstate := HeedDb.getSubnetState_save db laws (.fromTxid20 u) (.fromTxid20 u) s
    rw [if_pos rfl] at hstate
    obtain ⟨g₁, -, hwell⟩ := hformed u s hstate
    have hvals : s.committee.validators = (m.joinedGenesis X g txid).genesisValidators := by
      obtain ⟨c, hc, heq⟩ := bind_eq_ok.mp hsub
      obtain ⟨th, -, hc⟩ := bind_eq_ok.mp hc
      obtain ⟨a, -, hc⟩ := bind_eq_ok.mp hc
      cases hc
      cases heq
      rfl
    intro v hv
    exact powerOf_pos_iff.mp ((hwell _ (.active hstate)).powerOf_pos (hvals ▸ hv))

/-- A creation or a join that leaves the committees well formed keeps the condition. -/
theorem bringsPower_of_formed (hsound : Sound X db) (hstep : Commit X db e db')
    (hformed : CommitteesFormed X db') : BringsPower X db e db' := by
  cases hstep with
  | @createSubnet ctx tx m hparsed hvalid =>
    intro hsome c hc v hv
    obtain ⟨s, hs⟩ := Option.isSome_iff_exists.mp hsome
    obtain ⟨g, hg, hwell⟩ := hformed (.fromTxid (X.computeTxid tx)) s hs
    have hg' : (m.saveToDb X db ctx.blockHeight (X.computeTxid tx)).1.getSubnetGenesisInfo X
        (.fromTxid (X.computeTxid tx)) = some (m.genesisInfo ctx.blockHeight (X.computeTxid tx)) :=
      (HeedDb.getSubnetGenesisInfo_save db laws _ _ _).trans (if_pos rfl)
    obtain rfl := Option.some.inj (hg'.symm.trans hg)
    exact (hwell c (hc.of_tables rfl rfl rfl)).stake_le v hv
  | @joinSubnet ctx tx m₀ m saved _ _ hsave =>
    refine ⟨?_, ?_⟩
    · intro hsome
      obtain ⟨s, hs⟩ := Option.isSome_iff_exists.mp hsome
      exact power_of_formed_running laws hsound hs hsave hformed
    · intro hnone g hg henough
      have hpos := powers_of_formed_first laws hsound hnone hg henough hsave hformed
      exact ⟨fun v hv => hpos v (List.mem_append_left _ hv),
        hpos _ (List.mem_append_right _ List.mem_cons_self)⟩
  | _ => trivial

/-- Along every run, the stored committees are well formed after every step exactly when every
creation and every join meets the condition. -/
theorem committees_well_formed_iff {l : List (Event × HeedDb)}
    (hrun : Trail (Commit X) HeedDb.empty l) :
    AllSteps (BringsPower X) HeedDb.empty l ↔
      ∀ l', l' <+: l → CommitteesFormed X (lastStore HeedDb.empty l') := by
  refine allSteps_iff_prefixes ?_ ?_
  · intro t s hs
    cases hs
  · rintro l₁ e db' l₂ rfl hformed
    obtain ⟨hl₁, hrest⟩ := trail_append.mp hrun
    have hsound := sound_of_trail laws sound_empty hl₁
    have hhoused : ∀ t, Housed X t (lastStore HeedDb.empty l₁) :=
      fun t => housed_of_trail laws t hl₁
    exact ⟨formed_of_bringsPower laws hsound hhoused hrest.1 hformed,
      bringsPower_of_formed laws hsound hrest.1⟩

end Steps

open Solo

/-- The subnet does not run. -/
def NotRunning (X : Library) (id : SubnetId) (db : HeedDb) : Prop :=
  db.getSubnetState X id = none

instance (X : Library) (id : SubnetId) (db : HeedDb) : Decidable (NotRunning X id db) := by
  unfold NotRunning
  infer_instance

/-- The genesis validators of the subnet have a power. -/
def PoweredGenesis (X : Library) (id : SubnetId) (db : HeedDb) : Prop :=
  ∀ g ∈ db.getSubnetGenesisInfo X id, ∀ v ∈ g.genesisValidators, powerScaleFactor ≤ v.collateral

instance (X : Library) (id : SubnetId) (db : HeedDb) : Decidable (PoweredGenesis X id db) := by
  unfold PoweredGenesis
  infer_instance

/-- The collateral of a join is the value of the first output. -/
theorem collateral_of_checkJoin {tx : Transaction} {db : HeedDb} {m m' : IpcJoinSubnetMsg}
    (h : checkJoin X tx db m = .ok m') : ∃ out, tx.output.head? = some out ∧
      m'.collateral = out.value ∧ m'.subnetId = m.subnetId := by
  obtain ⟨out, hout, h⟩ := bind_eq_ok.mp h
  obtain ⟨_, -, h⟩ := bind_eq_ok.mp h
  obtain ⟨_, -, h⟩ := bind_eq_ok.mp h
  obtain ⟨_, -, h⟩ := bind_eq_ok.mp h
  cases h
  exact ⟨out, okOr_eq_ok.mp hout, rfl, rfl⟩

theorem committees_well_formed_after_join :
    ∃ l, Trail (Commit (library 10000 [])) HeedDb.empty l ∧
      ((lastStore HeedDb.empty l).getSubnetState (library 10000 [])
        (.fromTxid20 subnet)).isSome ∧
      CommitteesFormed (library 10000 []) (lastStore HeedDb.empty l) := by
  have hlaws : DisplayLaws (library 10000 []) := displayLaws_ideal _
  obtain ⟨l₁, l₂, hl₁, hc₁, hlast₁, hl₂, hc₂⟩ := soloTrails
  have hrun : Trail (Commit (library 10000 [])) HeedDb.empty (l₁ ++ l₂) :=
    trail_append.mpr ⟨hl₁.trail, hl₂.trail⟩
  have hcond₁ : AllSteps (BringsPower (library 10000 [])) HeedDb.empty l₁ := by
    refine hl₁.allSteps (P := NotRunning (library 10000 []) (.fromTxid20 subnet)) ?_ ?_
    · intro db e db' hstep hno hmem
      cases hstep with
      | createSubnet =>
        obtain ⟨rfl, rfl⟩ := Prod.mk.inj (List.mem_singleton.mp (hmem _ rfl))
        intro hsome
        have hnone : db.getSubnetState (library 10000 [])
          (.fromTxid ((library 10000 []).computeTxid createTx)) = none := hno
        rw [hnone] at hsome
        cases hsome
      | @joinSubnet ctx tx m₀ m saved hparsed _ _ =>
        obtain ⟨rfl, rfl⟩ := Prod.mk.inj (List.mem_singleton.mp (hmem _ rfl))
        have hmsgs : witnessMessages (library 10000 []) createTx =
          [.createSubnet (createMsg 10000)] := of_decide_eq_true (by decide +kernel)
        have hm : IpcMessage.joinSubnet m₀ ∈ witnessMessages (library 10000 []) createTx := hparsed
        rw [hmsgs] at hm
        cases List.mem_singleton.mp hm
      | _ => trivial
    · rw [hc₁]
      exact of_decide_eq_true (by decide +kernel)
  have hcond₂ : AllSteps (BringsPower (library 10000 [])) (lastStore HeedDb.empty l₁) l₂ := by
    refine hl₂.allSteps (P := PoweredGenesis (library 10000 []) (.fromTxid20 subnet)) ?_ ?_
    · intro db e db' hstep hpowered hmem
      cases hstep with
      | createSubnet hparsed hvalid =>
        obtain ⟨rfl, rfl⟩ := Prod.mk.inj (List.mem_singleton.mp (hmem _ rfl))
        exact absurd (.createSubnet hparsed hvalid) not_created_by_join
      | @joinSubnet ctx tx m₀ m saved hparsed hcheck _ =>
        obtain ⟨rfl, rfl⟩ := Prod.mk.inj (List.mem_singleton.mp (hmem _ rfl))
        have hmsgs : witnessMessages (library 10000 []) (joinTx 100000) = [.joinSubnet joinMsg] :=
          of_decide_eq_true (by decide +kernel)
        have hm : IpcMessage.joinSubnet m₀ ∈ witnessMessages (library 10000 []) (joinTx 100000) :=
          hparsed
        rw [hmsgs] at hm
        cases List.mem_singleton.mp hm
        obtain ⟨out, hout, hcol, hid⟩ := collateral_of_checkJoin hcheck
        cases hout
        have hle : powerScaleFactor ≤ m.collateral := by
          rw [hcol]
          decide
        refine ⟨fun _ => hle, ?_⟩
        intro _ g hg _
        rw [hid] at hg
        exact ⟨hpowered g hg, hle⟩
      | _ => trivial
    · rw [hc₂, hlast₁]
      exact of_decide_eq_true (by decide +kernel)
  refine ⟨l₁ ++ l₂, hrun, ?_, (committees_well_formed_iff hlaws hrun).mp
    (allSteps_append.mpr ⟨hcond₁, hcond₂⟩) _ (List.prefix_refl _)⟩
  rw [lastStore_append, lastStore, hc₂, hlast₁]
  decide +kernel

/-- A second validator, whose join brings 500 satoshis. -/
def secondJoin : IpcJoinSubnetMsg := { joinMsg with pubkey := bytes32 9 }

def secondJoinTx : Transaction :=
  spending (bytes32 13) 0 [makePushDataScript (tagBytes ipcJoinSubnetTag ++ [1])]
    [⟨500, backup.scriptPubkey⟩]

/-- A subnet that asks for one satoshi. -/
def cheapLibrary : Library := ideal { creates := [createMsg 1], joins := [joinMsg, secondJoin] }

def cheapTxs : List Transaction := [createTx, joinTx 100000, secondJoinTx]

/-- The join of 500 satoshis is accepted, and a committee with a validator without power waits. -/
theorem join_without_power :
    ¬ ∀ X : Library, DisplayLaws X → ∀ l, Trail (Commit X) HeedDb.empty l →
      CommitteesFormed X (lastStore HeedDb.empty l) := by
  intro hall
  have hlaws : DisplayLaws cheapLibrary := displayLaws_ideal _
  obtain ⟨l, hl, -, hlast⟩ :=
    exists_trail (X := cheapLibrary) ⟨none⟩ context cheapTxs HeedDb.empty
  have hformed := hall cheapLibrary hlaws l hl
  have hpowers : (((lastStore HeedDb.empty l).getSubnetState cheapLibrary
      (.fromTxid20 subnet)).bind (·.waitingCommittee)).map
        (fun c => c.validators.map (·.power)) = some [10, 0] := by
    rw [hlast]
    decide +kernel
  obtain ⟨w, hw, hvals⟩ := Option.map_eq_some_iff.mp hpowers
  obtain ⟨s, hs, hwait⟩ := Option.bind_eq_some_iff.mp hw
  obtain ⟨g, -, hwell⟩ := hformed subnet s hs
  have hpos := (hwell w (.waiting hs hwait)).power_pos
  have hzero : 0 ∈ w.validators.map (·.power) := by
    rw [hvals]
    decide
  obtain ⟨v, hv, hv0⟩ := List.mem_map.mp hzero
  have hlt := hpos v hv
  rw [hv0] at hlt
  exact Nat.lt_irrefl 0 hlt

end Monitor
