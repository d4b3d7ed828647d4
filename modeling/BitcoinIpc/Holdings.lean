import BitcoinIpc.CommitteeForm

/-!
# Holdings

In every state the monitor reaches, each validator of a stored committee has a
collateral and a backup address of the network, and each recorded withdrawal takes
something out: a join or a stake of nothing is refused, and who is left without
power leaves the committee.
-/

namespace Monitor

open Faults Bytes Chain Messages Crates Multisig Db Commits OrderedTable

variable {X : Library}

/-- Genesis validators and the validators of the stored committees have a collateral, and
the recorded withdrawals an amount. -/
structure Holding (X : Library) (db : HeedDb) : Prop where
  genesis : ∀ id g, db.getSubnetGenesisInfo X id = some g →
    ∀ v ∈ g.genesisValidators, v.collateral ≠ 0
  stored : ∀ t c, Stored X db t c → ∀ v ∈ c.validators, v.collateral ≠ 0
  withdrawn : ∀ e ∈ db.stakeChangesDb.entries, withdrawnAmount e.2 ≠ some 0

theorem holding_empty : Holding X HeedDb.empty := by
  refine ⟨?_, ?_, ?_⟩
  · intro id g hg
    cases hg
  · intro t c hc
    cases hc with
    | active h => cases h
    | waiting h => cases h
    | request h => cases h
    | table h => cases h
  · intro e he
    cases he

variable {db db' : HeedDb} {e : Event}

/-- An accepted join brings a collateral. -/
theorem collateral_of_joinOf {id : SubnetId} {m : IpcJoinSubnetMsg} (h : Commit X db e db')
    (hjoin : joinOf id e = some m) : m.collateral ≠ 0 := by
  cases h with
  | joinSubnet _ hcheck _ =>
    simp only [joinOf] at hjoin
    split_ifs at hjoin
    cases hjoin
    obtain ⟨_, -, h⟩ := bind_eq_ok.mp hcheck
    obtain ⟨_, -, h⟩ := bind_eq_ok.mp h
    obtain ⟨_, -, h⟩ := bind_eq_ok.mp h
    obtain ⟨_, hvalid, h⟩ := bind_eq_ok.mp h
    cases h
    obtain ⟨_, -, hvalid⟩ := bind_eq_ok.mp (mapErr_eq_ok.mp hvalid)
    obtain ⟨_, hne, -⟩ := bind_eq_ok.mp hvalid
    exact ensure_eq_ok.mp hne
  | _ => cases hjoin

/-- A stake change without a withdrawal of nothing. -/
theorem withdrawn_recordStake {id : SubnetId} {s : SubnetState} {next : SubnetCommittee}
    {requests : List StakeChangeRequest}
    (h : ∀ x ∈ db.stakeChangesDb.entries, withdrawnAmount x.2 ≠ some 0)
    (hnew : ∀ r ∈ requests, withdrawnAmount r ≠ some 0) :
    ∀ x ∈ (recordStake X db id s next requests).stakeChangesDb.entries,
      withdrawnAmount x.2 ≠ some 0 := by
  intro x hx
  rcases mem_foldl_addStakeChange hx with hx | ⟨r, hr, rfl⟩
  · exact h x hx
  · exact hnew r hr

theorem withdrawn_checkpointedDb {m : IpcCheckpointSubnetMsg} {s : SubnetState}
    {change : Option StakeChangeRequest} {height : Nat} {hash : BlockHash} {txid : Txid}
    (h : ∀ x ∈ db.stakeChangesDb.entries, withdrawnAmount x.2 ≠ some 0) :
    ∀ x ∈ (m.checkpointedDb X db s change height hash txid).stakeChangesDb.entries,
      withdrawnAmount x.2 ≠ some 0 := by
  cases change with
  | none => exact h
  | some c =>
    intro x hx
    rcases mem_foldl_addStakeChange hx with hx | ⟨r, hr, rfl⟩
    · exact h x hx
    · -- what is written back was found by the scan, with the same change
      obtain ⟨old, hold, rfl⟩ := List.mem_map.mp hr
      obtain ⟨k, -, hk⟩ := (Table.mem_scan_iff _ _ _).mp (List.mem_of_mem_filter hold)
      have hold := h (k, old) ((Table.get_eq_some_iff db.stakeChangesDb).mp hk)
      exact hold

theorem withdrawn_commit (h : ∀ x ∈ db.stakeChangesDb.entries, withdrawnAmount x.2 ≠ some 0)
    (hstep : Commit X db e db') :
    ∀ x ∈ db'.stakeChangesDb.entries, withdrawnAmount x.2 ≠ some 0 := by
  cases hstep with
  | createSubnet => exact h
  | @joinSubnet ctx tx m₀ m saved _ _ hsave =>
    cases hst : db.getSubnetState X m.subnetId with
    | none =>
      obtain ⟨g, -, -, -, ⟨-, rfl⟩ | ⟨s, -, -, rfl⟩⟩ := IpcJoinSubnetMsg.saveToDb_pre hst hsave
      · exact h
      · exact h
    | some s =>
      obtain ⟨next, -, -, -, rfl⟩ := IpcJoinSubnetMsg.saveToDb_post hst hsave
      refine withdrawn_recordStake h ?_
      intro r hr
      rcases List.mem_pair.mp hr with rfl | rfl
      · exact Option.some_ne_none 0 ∘ Eq.symm
      · exact Option.some_ne_none 0 ∘ Eq.symm
  | prefundSubnet _ _ hsave =>
    obtain ⟨g, -, -, rfl⟩ := IpcPrefundSubnetMsg.saveToDb_eq_ok hsave
    exact h
  | fundSubnet _ _ hsave =>
    obtain ⟨s, -, rfl⟩ := IpcFundSubnetMsg.saveToDb_eq_ok hsave
    exact h
  | checkpointSubnet _ _ hsave =>
    obtain ⟨s, change, -, -, rfl⟩ := IpcCheckpointSubnetMsg.saveToDb_eq_ok hsave
    exact withdrawn_checkpointedDb h
  | batchTransfer _ _ hsave =>
    obtain ⟨_, _, _, heq⟩ := IpcBatchTransferMsg.sameButBatch_saveToDb hsave
    rw [heq]
    exact h
  | stakeCollateral _ _ hsave =>
    obtain ⟨s, v, next, -, -, -, rfl⟩ := IpcStakeCollateralMsg.saveToDb_eq_ok hsave
    refine withdrawn_recordStake h ?_
    intro r hr
    rw [List.mem_singleton.mp hr]
    exact Option.some_ne_none 0 ∘ Eq.symm
  | @unstakeCollateral ctx tx m _ _ hvalid hsave =>
    obtain ⟨s, v, next, -, -, -, -, -, rfl⟩ := IpcUnstakeCollateralMsg.saveToDb_eq_ok hsave
    obtain ⟨_, -, hamount⟩ := bind_eq_ok.mp hvalid
    refine withdrawn_recordStake h ?_
    intro r hr
    rw [List.mem_singleton.mp hr]
    intro hzero
    exact ensure_eq_ok.mp hamount (Option.some.inj hzero)
  | killSubnet _ _ hsave =>
    obtain ⟨s, r, -, rfl | ⟨marked, -, rfl⟩⟩ := IpcKillSubnetMsg.saveToDb_eq_ok hsave
    · exact h
    · exact h
  | transaction => exact h
  | rewards hsame =>
    obtain ⟨_, _, rfl⟩ := hsame
    exact h
  | block => exact h

section Laws

variable (laws : DisplayLaws X)
include laws

/-- What every genesis validator has, and each validator that a join adds, every genesis
validator has after the commit. -/
theorem genesisValidators_commit {P : SubnetValidator → Prop}
    (h : ∀ id g, db.getSubnetGenesisInfo X id = some g → ∀ v ∈ g.genesisValidators, P v)
    (hstep : Commit X db e db')
    (hnew : ∀ id m g txid, joinOf id e = some m →
      ∀ v ∈ (m.joinedGenesis X g txid).genesisValidators, v ∈ g.genesisValidators ∨ P v) :
    ∀ id g, db'.getSubnetGenesisInfo X id = some g → ∀ v ∈ g.genesisValidators, P v := by
  intro id g' hg'
  have hjoined : ∀ {m g txid}, joinOf id e = some m → db.getSubnetGenesisInfo X id = some g →
      ∀ v ∈ (m.joinedGenesis X g txid).genesisValidators, P v := by
    intro m g txid hjoin hget v hv
    exact (hnew id m g txid hjoin v hv).elim (h id g hget v) (fun hv => hv)
  cases genesisStep_of_commit laws hstep id with
  | other _ hg _ => exact h id g' (hg ▸ hg')
  | created _ _ _ _ hg _ =>
    rw [hg] at hg'
    cases hg'
    intro v hv
    cases hv
  | prefunded _ hget _ hg _ =>
    rw [hg] at hg'
    cases hg'
    exact fun v hv => h id _ hget v hv
  | joined hjoin _ hget _ _ _ hg _ =>
    rw [hg] at hg'
    cases hg'
    exact hjoined hjoin hget
  | started hjoin _ hget _ _ _ _ hg _ _ =>
    rw [hg] at hg'
    cases hg'
    exact hjoined hjoin hget
  | member _ _ hg _ => exact h id g' (hg ▸ hg')

theorem genesis_commit (h : Holding X db) (hstep : Commit X db e db') :
    ∀ id g, db'.getSubnetGenesisInfo X id = some g → ∀ v ∈ g.genesisValidators, v.collateral ≠ 0 := by
  refine genesisValidators_commit laws h.genesis hstep ?_
  intro id m g txid hjoin v hv
  rcases List.mem_append.mp hv with hv | hv
  · exact Or.inl hv
  · rw [List.mem_singleton.mp hv]
    exact Or.inr (collateral_of_joinOf hstep hjoin)

theorem Holding.commit (h : Holding X db) (hsound : Sound X db) (hstep : Commit X db e db') :
    Holding X db' := by
  have hgenesis := genesis_commit laws h hstep
  refine ⟨hgenesis, ?_, withdrawn_commit h.withdrawn hstep⟩
  intro t c hc
  cases formStep_of_commit laws hsound hstep t with
  | kept hkept _ => exact h.stored t c (hkept c hc)
  | @started s hnone hs hfrom =>
    rcases hfrom c hc with rfl | hold
    · obtain ⟨-, hopened⟩ := opened_of_commit laws hstep hnone hs
      obtain ⟨g, hg, hvals⟩ := hopened.validators_eq
      rw [hvals]
      exact hgenesis _ g hg
    · exact h.stored t c hold
  | @changed s s' next hs hs' _ _ hfrom hnext =>
    have hlatest := h.stored t _ (stored_latest hs)
    rcases hfrom c hc with rfl | hold
    · intro w hw
      rcases hnext w hw with hw | ⟨-, ⟨m, hjoin, heq⟩ | ⟨v, hv, hle⟩ | hpos⟩
      · exact hlatest w hw
      · rw [← heq]
        exact collateral_of_joinOf hstep hjoin
      · have hv := Nat.pos_of_ne_zero (hlatest v hv)
        exact Nat.ne_of_gt (lt_of_lt_of_le hv hle)
      · intro hzero
        rw [hzero] at hpos
        exact absurd hpos (by decide)
    · exact h.stored t c hold

theorem holding_of_reachable (h : Reachable X db) : Holding X db := by
  obtain ⟨l, hl, rfl⟩ := h
  induction l using List.reverseRec with
  | nil => exact holding_empty
  | append_singleton l a ih =>
    obtain ⟨e, db'⟩ := a
    obtain ⟨hl, hstep⟩ := trail_snoc.mp hl
    rw [lastStore_snoc]
    exact (ih hl).commit laws (sound_of_trail laws sound_empty hl) hstep

end Laws

/-- What is withdrawn by a recorded request. -/
theorem Holding.withdrawn_ne {t : Txid20} {k : Nat} {c : StakeChangeRequest} {amount : Amount}
    (h : Holding X db) (hc : db.getStakeChange X (.fromTxid20 t) k = some c)
    (hamount : c.change = .withdraw amount) : amount ≠ 0 := by
  rintro rfl
  refine h.withdrawn _ ((Table.get_eq_some_iff db.stakeChangesDb).mp hc) ?_
  simp only [withdrawnAmount, hamount]

/-- Genesis validators and the validators of the stored committees have a backup address of the
network. -/
structure BackedUp (X : Library) (db : HeedDb) : Prop where
  genesis : ∀ id g, db.getSubnetGenesisInfo X id = some g →
    ∀ v ∈ g.genesisValidators, v.backupAddress.isValidForNetwork = true
  stored : ∀ t c, Stored X db t c →
    ∀ v ∈ c.validators, v.backupAddress.isValidForNetwork = true

theorem backed_empty : BackedUp X HeedDb.empty := by
  refine ⟨?_, ?_⟩
  · intro id g hg
    cases hg
  · intro t c hc
    cases hc with
    | active h => cases h
    | waiting h => cases h
    | request h => cases h
    | table h => cases h

theorem backup_of_checkJoin {tx : Transaction} {m m' : IpcJoinSubnetMsg}
    (h : checkJoin X tx db m = .ok m') : m'.backupAddress.isValidForNetwork = true := by
  obtain ⟨_, -, h⟩ := bind_eq_ok.mp h
  obtain ⟨_, -, h⟩ := bind_eq_ok.mp h
  obtain ⟨_, -, h⟩ := bind_eq_ok.mp h
  obtain ⟨_, hvalid, h⟩ := bind_eq_ok.mp h
  cases h
  obtain ⟨_, -, hvalid⟩ := bind_eq_ok.mp (mapErr_eq_ok.mp hvalid)
  obtain ⟨_, -, hvalid⟩ := bind_eq_ok.mp hvalid
  exact ensure_eq_ok.mp hvalid

theorem backup_of_joinOf {id : SubnetId} {m : IpcJoinSubnetMsg} (h : Commit X db e db')
    (hjoin : joinOf id e = some m) : m.backupAddress.isValidForNetwork = true := by
  cases h with
  | joinSubnet _ hcheck _ =>
    simp only [joinOf] at hjoin
    split_ifs at hjoin
    cases hjoin
    exact backup_of_checkJoin hcheck
  | _ => cases hjoin

section Laws

variable (laws : DisplayLaws X)
include laws

theorem backedGenesis_commit (h : BackedUp X db) (hstep : Commit X db e db') :
    ∀ id g, db'.getSubnetGenesisInfo X id = some g →
      ∀ v ∈ g.genesisValidators, v.backupAddress.isValidForNetwork = true := by
  refine genesisValidators_commit laws h.genesis hstep ?_
  intro id m g txid hjoin v hv
  rcases List.mem_append.mp hv with hv | hv
  · exact Or.inl hv
  · rw [List.mem_singleton.mp hv]
    exact Or.inr (backup_of_joinOf hstep hjoin)

/-- A stake change to a committee with backup addresses. -/
theorem backed_recordStake (h : BackedUp X db) {t u : Txid20} {s : SubnetState}
    {next c : SubnetCommittee} {requests : List StakeChangeRequest}
    (hs : db.getSubnetState X (.fromTxid20 u) = some s)
    (hafter : ∀ r ∈ requests, r.committeeAfterChange = next)
    (hnext : ∀ v ∈ next.validators, v ∈ s.latestCommittee.validators ∨
      v.backupAddress.isValidForNetwork = true)
    (hc : Stored X (recordStake X db (.fromTxid20 u) s next requests) t c) :
    ∀ v ∈ c.validators, v.backupAddress.isValidForNetwork = true := by
  rcases stored_recordStake laws hs hafter hc with ⟨-, rfl⟩ | hold
  · intro v hv
    rcases hnext v hv with hv | hv
    · exact h.stored u _ (stored_latest hs) v hv
    · exact hv
  · exact h.stored t c hold

theorem backed_join (h : BackedUp X db) (hsound : Sound X db) {m : IpcJoinSubnetMsg} {height : Nat}
    {hash : BlockHash} {txid : Txid} {saved : HeedDb × Option SubnetState} {s : SubnetState}
    (hbackup : m.backupAddress.isValidForNetwork = true)
    (hs : db.getSubnetState X m.subnetId = some s)
    (hsave : m.saveToDb X db height hash txid = .ok saved) {t : Txid20} {c : SubnetCommittee}
    (hc : Stored X saved.1 t c) :
    ∀ v ∈ c.validators, v.backupAddress.isValidForNetwork = true := by
  obtain ⟨next, -, -, hjoin, rfl⟩ := IpcJoinSubnetMsg.saveToDb_post hs hsave
  obtain ⟨u, hu, hsid, -, -⟩ := hsound.state laws hs
  rw [hsid] at hjoin
  obtain ⟨-, hrebuilt⟩ := SubnetCommittee.joinNewValidator_eq_ok hjoin
  rw [hu] at hs hc
  refine backed_recordStake laws h hs ?_ ?_ hc
  · intro r hr
    rcases List.mem_pair.mp hr with rfl | rfl <;> rfl
  · intro v hv
    rw [hrebuilt.validators_eq] at hv
    rcases List.mem_append.mp hv with hv | hv
    · exact Or.inl hv
    · rw [List.mem_singleton.mp hv]
      exact Or.inr hbackup

theorem backed_stake (h : BackedUp X db) (hsound : Sound X db) {m : IpcStakeCollateralMsg}
    {height : Nat} {hash : BlockHash} {txid : Txid}
    (hsave : m.saveToDb X db height hash txid = .ok db') {t : Txid20} {c : SubnetCommittee}
    (hc : Stored X db' t c) : ∀ v ∈ c.validators, v.backupAddress.isValidForNetwork = true := by
  obtain ⟨s, w, next, hs, hw, hmod, rfl⟩ := IpcStakeCollateralMsg.saveToDb_eq_ok hsave
  obtain ⟨u, hu, -⟩ := hsound.state laws hs
  rw [hu] at hs hmod hc
  obtain ⟨i, -, hrebuilt⟩ := SubnetCommittee.modifyValidator_eq_ok hmod
  have hold := h.stored u _ (stored_latest hs) w (SubnetCommittee.findValidator_eq_some hw).1
  refine backed_recordStake laws h hs ?_ ?_ hc
  · intro r hr
    rw [List.mem_singleton.mp hr]
    rfl
  · intro v hv
    rw [hrebuilt.validators_eq] at hv
    rcases List.mem_or_eq_of_mem_set hv with hv | rfl
    · exact Or.inl hv
    · exact Or.inr hold

theorem backed_unstake (h : BackedUp X db) (hsound : Sound X db) {m : IpcUnstakeCollateralMsg}
    {height : Nat} {hash : BlockHash} {txid : Txid}
    (hsave : m.saveToDb X db height hash txid = .ok db') {t : Txid20} {c : SubnetCommittee}
    (hc : Stored X db' t c) : ∀ v ∈ c.validators, v.backupAddress.isValidForNetwork = true := by
  obtain ⟨s, w, next, hs, -, hw, -, hafter, rfl⟩ := IpcUnstakeCollateralMsg.saveToDb_eq_ok hsave
  obtain ⟨u, hu, -⟩ := hsound.state laws hs
  rw [hu] at hs hafter hc
  have hold := h.stored u _ (stored_latest hs) w (SubnetCommittee.findValidator_eq_some hw).1
  refine backed_recordStake laws h hs ?_ ?_ hc
  · intro r hr
    rw [List.mem_singleton.mp hr]
    rfl
  · intro v hv
    unfold IpcUnstakeCollateralMsg.afterUnstake at hafter
    split_ifs at hafter
    · obtain ⟨i, -, hrebuilt⟩ := SubnetCommittee.removeValidator_eq_ok hafter
      rw [hrebuilt.validators_eq] at hv
      exact Or.inl (List.mem_of_mem_eraseIdx hv)
    · obtain ⟨i, -, hrebuilt⟩ := SubnetCommittee.modifyValidator_eq_ok hafter
      rw [hrebuilt.validators_eq] at hv
      rcases List.mem_or_eq_of_mem_set hv with hv | rfl
      · exact Or.inl hv
      · exact Or.inr hold

/-- A waiting committee takes its backup addresses from those stored before and from the join. -/
theorem backed_waiting (h : BackedUp X db) (hsound : Sound X db) (hstep : Commit X db e db')
    {t : Txid20} {s s' : SubnetState} {next : SubnetCommittee}
    (hs : db.getSubnetState X (.fromTxid20 t) = some s)
    (hs' : db'.getSubnetState X (.fromTxid20 t) = some s')
    (hnext : s'.waitingCommittee = some next) :
    ∀ v ∈ next.validators, v.backupAddress.isValidForNetwork = true := by
  have hstored : Stored X db' t next := .waiting hs' hnext
  have hframe : db'.getSubnetState X (.fromTxid20 t) = db.getSubnetState X (.fromTxid20 t) →
      ∀ v ∈ next.validators, v.backupAddress.isValidForNetwork = true := by
    intro hsame
    exact h.stored t next (.waiting (hsame ▸ hs') hnext)
  cases hstep with
  | createSubnet => exact hframe rfl
  | @joinSubnet ctx tx m₀ m saved _ hcheck hsave =>
    cases hst : db.getSubnetState X m.subnetId with
    | none =>
      obtain ⟨g, -, -, -, ⟨-, rfl⟩ | ⟨s₀, -, -, rfl⟩⟩ := IpcJoinSubnetMsg.saveToDb_pre hst hsave
      · exact hframe rfl
      · refine hframe ?_
        have hread := HeedDb.getSubnetState_save db laws m.subnetId (.fromTxid20 t) s₀
        rw [if_neg (fun heq => by rw [heq, hst] at hs; cases hs)] at hread
        exact hread
    | some s₀ => exact backed_join laws h hsound (backup_of_checkJoin hcheck) hst hsave hstored
  | prefundSubnet _ _ hsave =>
    obtain ⟨g, -, -, rfl⟩ := IpcPrefundSubnetMsg.saveToDb_eq_ok hsave
    exact hframe rfl
  | fundSubnet _ _ hsave =>
    obtain ⟨s, -, rfl⟩ := IpcFundSubnetMsg.saveToDb_eq_ok hsave
    exact hframe rfl
  | checkpointSubnet _ _ hsave =>
    obtain ⟨s₀, change, hs₀, hrot, rfl⟩ := IpcCheckpointSubnetMsg.saveToDb_eq_ok hsave
    obtain ⟨u, hu, -⟩ := hsound.state laws hs₀
    exact h.stored t next (stored_checkpointedDb laws hsound hu (hu ▸ hs₀) hrot hstored)
  | batchTransfer _ _ hsave =>
    obtain ⟨_, _, _, heq⟩ := IpcBatchTransferMsg.sameButBatch_saveToDb hsave
    exact hframe (by rw [heq]; rfl)
  | stakeCollateral _ _ hsave => exact backed_stake laws h hsound hsave hstored
  | unstakeCollateral _ _ hsave => exact backed_unstake laws h hsound hsave hstored
  | @killSubnet ctx tx m _ _ _ hsave =>
    obtain ⟨s₀, r, hs₀, rfl | ⟨marked, -, rfl⟩⟩ := IpcKillSubnetMsg.saveToDb_eq_ok hsave
    · exact hframe rfl
    · set s₁ : SubnetState :=
        { s₀ with killed := .toBeKilled, markedForKillCheckpointNumber := marked } with hs₁
      have hput : ((db.addKillRequest X m.subnetId r).saveSubnetState X m.subnetId s₁).subnetDb =
          db.subnetDb.put (subnetStateKey X m.subnetId) s₁ := rfl
      exact h.stored t next (stored_of_put laws hs₀ hput rfl rfl rfl rfl hstored)
  | transaction => exact hframe rfl
  | rewards hsame =>
    obtain ⟨_, _, rfl⟩ := hsame
    exact hframe rfl
  | block => exact hframe rfl

theorem BackedUp.commit (h : BackedUp X db) (hsound : Sound X db) (hstep : Commit X db e db') :
    BackedUp X db' := by
  have hgenesis := backedGenesis_commit laws h hstep
  refine ⟨hgenesis, ?_⟩
  intro t c hc
  cases formStep_of_commit laws hsound hstep t with
  | kept hkept _ => exact h.stored t c (hkept c hc)
  | @started s hnone hs hfrom =>
    rcases hfrom c hc with rfl | hold
    · obtain ⟨-, hopened⟩ := opened_of_commit laws hstep hnone hs
      obtain ⟨g, hg, hvals⟩ := hopened.validators_eq
      rw [hvals]
      exact hgenesis _ g hg
    · exact h.stored t c hold
  | @changed s s' next hs hs' hwaiting _ hfrom _ =>
    rcases hfrom c hc with rfl | hold
    · exact backed_waiting laws h hsound hstep hs hs' hwaiting
    · exact h.stored t c hold

theorem backed_of_reachable (h : Reachable X db) : BackedUp X db := by
  obtain ⟨l, hl, rfl⟩ := h
  induction l using List.reverseRec with
  | nil => exact backed_empty
  | append_singleton l a ih =>
    obtain ⟨e, db'⟩ := a
    obtain ⟨hl, hstep⟩ := trail_snoc.mp hl
    rw [lastStore_snoc]
    exact (ih hl).commit laws (sound_of_trail laws sound_empty hl) hstep

end Laws

end Monitor
