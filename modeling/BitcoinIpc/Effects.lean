import BitcoinIpc.Runs

/-!
# What each handler writes

For every handler, the checks that passed and the database it returns. The
handlers that change a stake write the same kind of thing: the next committee,
as the one that waits, and the requests that led to it.
-/

namespace Messages

open Faults Bytes Chain Crates Multisig Db

variable {X : Library} {db db' : HeedDb} {blockHeight : Nat} {blockHash : BlockHash} {txid : Txid}

variable (X) in
/-- The next committee of a subnet, with the requests that led to it. -/
def recordStake (db : HeedDb) (id : SubnetId) (s : SubnetState) (next : SubnetCommittee)
    (requests : List StakeChangeRequest) : HeedDb :=
  requests.foldl (fun db c => db.addStakeChange X id c)
    (db.saveSubnetState X id { s with waitingCommittee := some next })

namespace IpcJoinSubnetMsg

variable {m : IpcJoinSubnetMsg} {g : SubnetGenesisInfo} {s : SubnetState}

/-- The two requests of a join. -/
def requests (X : Library) (m : IpcJoinSubnetMsg) (next : SubnetCommittee) (n blockHeight : Nat)
    (blockHash : BlockHash) (txid : Txid) : List StakeChangeRequest :=
  [m.stakeChange X (.join m.pubkey) n next blockHeight blockHash txid,
    m.stakeChange X (.deposit m.collateral) (n + 1) next blockHeight blockHash txid]

theorem savePostBootstrap_eq_ok {v : SubnetValidator}
    (h : m.savePostBootstrap X db s v blockHeight blockHash txid = .ok db') :
    ∃ next, s.latestCommittee.joinNewValidator X s.id v = .ok next ∧
      db' = recordStake X db m.subnetId s next (m.requests X next
        (db.getNextStakeChangeConfigurationNumber X m.subnetId) blockHeight blockHash txid) := by
  obtain ⟨_, -, h⟩ := bind_eq_ok.mp h
  obtain ⟨_, -, h⟩ := bind_eq_ok.mp h
  obtain ⟨next, hnext, h⟩ := bind_eq_ok.mp h
  exact ⟨next, mapErr_eq_ok.mp hnext, (Except.ok.inj h).symm⟩

/-- A join of a bootstrapped subnet. -/
theorem saveToDb_post {saved : HeedDb × Option SubnetState}
    (hst : db.getSubnetState X m.subnetId = some s)
    (h : m.saveToDb X db blockHeight blockHash txid = .ok saved) :
    ∃ next, s.id = m.subnetId ∧ s.isKilledOrPending = false ∧
      s.latestCommittee.joinNewValidator X s.id
        (m.newValidator X (powerOf m.collateral) txid) = .ok next ∧
      saved = (recordStake X db m.subnetId s next (m.requests X next
        (db.getNextStakeChangeConfigurationNumber X m.subnetId) blockHeight blockHash txid),
        none) := by
  obtain ⟨g, hg, h⟩ := bind_eq_ok.mp h
  simp only [hst] at h
  obtain ⟨_, hv, h⟩ := bind_eq_ok.mp h
  obtain ⟨p, hp, h⟩ := bind_eq_ok.mp h
  obtain ⟨db', hsave, h⟩ := bind_eq_ok.mp h
  obtain ⟨-, rfl⟩ := collateralToPower_eq_ok.mp (mapErr_eq_ok.mp hp)
  obtain ⟨next, hnext, rfl⟩ := savePostBootstrap_eq_ok hsave
  obtain ⟨_, hid, hpost⟩ := bind_eq_ok.mp (mapErr_eq_ok.mp hv)
  obtain ⟨_, hkill, -⟩ := bind_eq_ok.mp hpost
  exact ⟨next, ensure_eq_ok.mp hid, by simpa using ensure_eq_ok.mp hkill, hnext,
    (Except.ok.inj h).symm⟩

/-- The genesis info after a join before the bootstrap. -/
def joinedGenesis (X : Library) (m : IpcJoinSubnetMsg) (g : SubnetGenesisInfo) (txid : Txid) :
    SubnetGenesisInfo :=
  { g with genesisValidators :=
      g.genesisValidators ++ [m.newValidator X (powerOf m.collateral) txid] }

/-- The genesis info of a subnet that has started. -/
def startedGenesis (g : SubnetGenesisInfo) (blockHeight : Nat) : SubnetGenesisInfo :=
  { g with bootstrapped := true, genesisBlockHeight := some blockHeight }

/-- A join before the bootstrap, which may start the subnet. -/
theorem saveToDb_pre {saved : HeedDb × Option SubnetState}
    (hst : db.getSubnetState X m.subnetId = none)
    (h : m.saveToDb X db blockHeight blockHash txid = .ok saved) :
    ∃ g, db.getSubnetGenesisInfo X m.subnetId = some g ∧
      (∀ v ∈ g.genesisValidators, v.pubkey ≠ m.pubkey) ∧
      m.pubkey ∈ g.createSubnetMsg.whitelist ∧
      (((m.joinedGenesis X g txid).enoughToBootstrap = false ∧
        saved = (db.saveSubnetGenesisInfo X m.subnetId (m.joinedGenesis X g txid), none)) ∨
      ∃ s, (m.joinedGenesis X g txid).enoughToBootstrap = true ∧
        (startedGenesis (m.joinedGenesis X g txid) blockHeight).toSubnet X =
          (.ok s : Outcome IpcLibError SubnetState) ∧
        saved = (((db.saveSubnetState X m.subnetId s).saveSubnetGenesisInfo X m.subnetId
          (startedGenesis (m.joinedGenesis X g txid) blockHeight)).saveCommittee X m.subnetId
            s.committeeNumber s.committee, some s)) := by
  obtain ⟨g, hg, h⟩ := bind_eq_ok.mp h
  simp only [hst] at h
  obtain ⟨_, hv, h⟩ := bind_eq_ok.mp h
  obtain ⟨p, hp, h⟩ := bind_eq_ok.mp h
  obtain ⟨-, rfl⟩ := collateralToPower_eq_ok.mp (mapErr_eq_ok.mp hp)
  obtain ⟨_, -, hpre⟩ := bind_eq_ok.mp (mapErr_eq_ok.mp hv)
  obtain ⟨_, hlisted, hfresh⟩ := bind_eq_ok.mp hpre
  refine ⟨g, okOr_eq_ok.mp hg, by simpa using ensure_eq_ok.mp hfresh, ensure_eq_ok.mp hlisted, ?_⟩
  unfold savePreBootstrap at h
  by_cases hb : (m.joinedGenesis X g txid).enoughToBootstrap = true
  · have hb' := hb
    simp only [joinedGenesis] at hb'
    simp only [hb', if_true] at h
    obtain ⟨s, hs, h⟩ := bind_eq_ok.mp h
    exact Or.inr ⟨s, hb, hs, (Except.ok.inj h).symm⟩
  · have hb' := hb
    simp only [joinedGenesis] at hb'
    simp only [hb', if_false, Bool.false_eq_true] at h
    exact Or.inl ⟨by simpa using hb, (Except.ok.inj h).symm⟩

/-- A join reaches the minimum stake of its subnet. -/
theorem minStake_of_saveToDb {saved : HeedDb × Option SubnetState}
    (h : m.saveToDb X db blockHeight blockHash txid = .ok saved) :
    ∃ g, db.getSubnetGenesisInfo X m.subnetId = some g ∧
      g.createSubnetMsg.minValidatorStake ≤ m.collateral := by
  obtain ⟨g, hg, h⟩ := bind_eq_ok.mp h
  obtain ⟨_, -, h⟩ := bind_eq_ok.mp h
  obtain ⟨p, hp, -⟩ := bind_eq_ok.mp h
  exact ⟨g, okOr_eq_ok.mp hg, (collateralToPower_eq_ok.mp (mapErr_eq_ok.mp hp)).1⟩

end IpcJoinSubnetMsg

theorem IpcPrefundSubnetMsg.saveToDb_eq_ok {m : IpcPrefundSubnetMsg}
    (h : m.saveToDb X db blockHeight txid = .ok db') :
    ∃ g, db.getSubnetGenesisInfo X m.subnetId = some g ∧ g.bootstrapped = false ∧
      db' = db.saveSubnetGenesisInfo X m.subnetId
        (g.addGenesisBalanceEntry m.address m.amount txid blockHeight) := by
  obtain ⟨g, hg, h⟩ := bind_eq_ok.mp h
  obtain ⟨_, hopen, h⟩ := bind_eq_ok.mp h
  refine ⟨g, okOr_eq_ok.mp hg, ?_, (Except.ok.inj h).symm⟩
  simpa using ensure_eq_ok.mp (mapErr_eq_ok.mp hopen)

theorem IpcFundSubnetMsg.saveToDb_eq_ok {m : IpcFundSubnetMsg}
    (h : m.saveToDb X db blockHeight blockHash txid = .ok db') :
    ∃ s, db.getSubnetState X m.subnetId = some s ∧
      db' = db.addRootnetMsg X m.subnetId (m.toRootnetMessage
        (db.getNextRootnetMsgNonce X m.subnetId) blockHeight blockHash txid) := by
  obtain ⟨s, hs, h⟩ := bind_eq_ok.mp h
  obtain ⟨_, -, h⟩ := bind_eq_ok.mp h
  exact ⟨s, okOr_eq_ok.mp hs, (Except.ok.inj h).symm⟩

theorem IpcStakeCollateralMsg.saveToDb_eq_ok {m : IpcStakeCollateralMsg}
    (h : m.saveToDb X db blockHeight blockHash txid = .ok db') :
    ∃ s v next, db.getSubnetState X m.subnetId = some s ∧
      s.latestCommittee.findValidator m.pubkey = some v ∧
      s.latestCommittee.modifyValidator X m.subnetId { v with
        collateral := m.amount + v.collateral
        power := powerOf (m.amount + v.collateral) } = .ok next ∧
      db' = recordStake X db m.subnetId s next [stakeRequest (.deposit m.amount) { v with
          collateral := m.amount + v.collateral
          power := powerOf (m.amount + v.collateral) }
        (db.getNextStakeChangeConfigurationNumber X m.subnetId) next blockHeight blockHash
        txid] := by
  obtain ⟨g, -, h⟩ := bind_eq_ok.mp h
  obtain ⟨s, hs, h⟩ := bind_eq_ok.mp h
  obtain ⟨_, -, h⟩ := bind_eq_ok.mp h
  obtain ⟨v, hv, h⟩ := bind_eq_ok.mp h
  obtain ⟨c, hc, h⟩ := bind_eq_ok.mp h
  obtain ⟨p, hp, h⟩ := bind_eq_ok.mp h
  obtain ⟨next, hnext, h⟩ := bind_eq_ok.mp h
  obtain ⟨-, rfl⟩ := addAmount_eq_ok.mp hc
  obtain ⟨-, rfl⟩ := collateralToPower_eq_ok.mp (mapErr_eq_ok.mp hp)
  exact ⟨s, v, next, okOr_eq_ok.mp hs, okOr_eq_ok.mp hv, mapErr_eq_ok.mp hnext,
    (Except.ok.inj h).symm⟩

/-- A stake with what it is added to reaches the minimum of its subnet. -/
theorem IpcStakeCollateralMsg.minStake_of_saveToDb {m : IpcStakeCollateralMsg} {s : SubnetState}
    {v : SubnetValidator} (h : m.saveToDb X db blockHeight blockHash txid = .ok db')
    (hs : db.getSubnetState X m.subnetId = some s)
    (hv : s.latestCommittee.findValidator m.pubkey = some v) :
    ∃ g, db.getSubnetGenesisInfo X m.subnetId = some g ∧
      g.createSubnetMsg.minValidatorStake ≤ m.amount + v.collateral := by
  obtain ⟨g, hg, h⟩ := bind_eq_ok.mp h
  obtain ⟨s', hs', h⟩ := bind_eq_ok.mp h
  obtain ⟨_, -, h⟩ := bind_eq_ok.mp h
  obtain ⟨v', hv', h⟩ := bind_eq_ok.mp h
  obtain ⟨c, hc, h⟩ := bind_eq_ok.mp h
  obtain ⟨p, hp, -⟩ := bind_eq_ok.mp h
  rw [okOr_eq_ok, hs] at hs'
  cases hs'
  rw [okOr_eq_ok, hv] at hv'
  cases hv'
  obtain ⟨-, rfl⟩ := addAmount_eq_ok.mp hc
  exact ⟨g, okOr_eq_ok.mp hg, (collateralToPower_eq_ok.mp (mapErr_eq_ok.mp hp)).1⟩

theorem killed_of_not_pending {s : SubnetState} (h : ¬ s.isKilledOrPending = true) :
    s.killed = .notKilled := by
  by_contra hk
  exact h (decide_eq_true hk)

/-- No stake is added to a subnet that is killed or marked for killing. -/
theorem IpcStakeCollateralMsg.notKilled_of_saveToDb {m : IpcStakeCollateralMsg} {s : SubnetState}
    (h : m.saveToDb X db blockHeight blockHash txid = .ok db')
    (hs : db.getSubnetState X m.subnetId = some s) : s.killed = .notKilled := by
  obtain ⟨g, -, h⟩ := bind_eq_ok.mp h
  obtain ⟨s', hs', h⟩ := bind_eq_ok.mp h
  obtain ⟨_, hvalid, -⟩ := bind_eq_ok.mp h
  obtain ⟨_, -, hv⟩ := bind_eq_ok.mp (mapErr_eq_ok.mp hvalid)
  obtain ⟨_, hkill, -⟩ := bind_eq_ok.mp hv
  rw [hs] at hs'
  cases hs'
  exact killed_of_not_pending (ensure_eq_ok.mp hkill)

namespace IpcUnstakeCollateralMsg

variable {m : IpcUnstakeCollateralMsg} {g : SubnetGenesisInfo}

/-- No stake is taken from a subnet that is killed or marked for killing. -/
theorem notKilled_of_saveToDb {s : SubnetState}
    (h : m.saveToDb X db blockHeight blockHash txid = .ok db')
    (hs : db.getSubnetState X m.subnetId = some s) : s.killed = .notKilled := by
  obtain ⟨g, -, h⟩ := bind_eq_ok.mp h
  obtain ⟨s', hs', h⟩ := bind_eq_ok.mp h
  obtain ⟨_, hvalid, -⟩ := bind_eq_ok.mp h
  obtain ⟨_, -, hv⟩ := bind_eq_ok.mp (mapErr_eq_ok.mp hvalid)
  obtain ⟨_, hkill, -⟩ := bind_eq_ok.mp hv
  rw [hs] at hs'
  cases hs'
  exact killed_of_not_pending (ensure_eq_ok.mp hkill)

theorem remainingPower_eq (collateral : Amount) (g : SubnetGenesisInfo) :
    remainingPower collateral g =
      if g.createSubnetMsg.minValidatorStake ≤ collateral then .ok (powerOf collateral, true)
      else .ok (0, false) := by
  by_cases h : g.createSubnetMsg.minValidatorStake ≤ collateral
  · simp [remainingPower, collateralToPower_of_le h, h]
  · simp [remainingPower, collateralToPower_of_lt (not_le.mp h), h, raise]

/-- The committee after an unstake: the validator leaves when no power remains. -/
def afterUnstake (X : Library) (c : SubnetCommittee) (id : SubnetId) (v : SubnetValidator)
    (collateral : Amount) : Outcome DbError SubnetCommittee :=
  if powerOf collateral = 0 then c.removeValidator X id v.pubkey
  else c.modifyValidator X id { v with collateral := collateral, power := powerOf collateral }

/-- The check of `validate_for_subnet` on the rest: what does not suffice is withdrawn whole. -/
theorem rest_of_validateForSubnet {s : SubnetState} {v : SubnetValidator} {u : Unit}
    (h : m.validateForSubnet g s = .ok u) (hpk : m.pubkey = some v.pubkey)
    (hv : s.latestCommittee.findValidator v.pubkey = some v) :
    g.createSubnetMsg.minValidatorStake ≤ v.collateral - m.amount ∨ m.amount = v.collateral := by
  obtain ⟨_, -, h⟩ := bind_eq_ok.mp h
  obtain ⟨_, -, h⟩ := bind_eq_ok.mp h
  obtain ⟨pk', hpk', h⟩ := bind_eq_ok.mp h
  obtain ⟨_, -, h⟩ := bind_eq_ok.mp h
  obtain ⟨_, -, h⟩ := bind_eq_ok.mp h
  obtain ⟨_, -, h⟩ := bind_eq_ok.mp h
  obtain ⟨v', hv', h⟩ := bind_eq_ok.mp h
  obtain ⟨_, -, h⟩ := bind_eq_ok.mp h
  obtain ⟨⟨p, suff⟩, hp, h⟩ := bind_eq_ok.mp h
  rw [okOr_eq_ok] at hpk' hv'
  rw [hpk] at hpk'
  cases hpk'
  rw [hv] at hv'
  cases hv'
  rw [mapErr_eq_ok, remainingPower_eq] at hp
  rw [ensure_eq_ok] at h
  by_cases hmin : g.createSubnetMsg.minValidatorStake ≤ v.collateral - m.amount
  · exact Or.inl hmin
  · right
    rw [if_neg hmin] at hp
    cases hp
    by_contra hne
    exact h ⟨rfl, hne⟩

/-- A rest below the minimum has no power left. -/
theorem saveToDb_eq_ok (h : m.saveToDb X db blockHeight blockHash txid = .ok db') :
    ∃ s v next, db.getSubnetState X m.subnetId = some s ∧ m.pubkey = some v.pubkey ∧
      s.latestCommittee.findValidator v.pubkey = some v ∧ m.amount ≤ v.collateral ∧
      afterUnstake X s.latestCommittee m.subnetId v (v.collateral - m.amount) = .ok next ∧
      db' = recordStake X db m.subnetId s next [stakeRequest (.withdraw m.amount) v
        (db.getNextStakeChangeConfigurationNumber X m.subnetId) next blockHeight blockHash
        txid] := by
  obtain ⟨g, -, h⟩ := bind_eq_ok.mp h
  obtain ⟨s, hs, h⟩ := bind_eq_ok.mp h
  obtain ⟨_, hvalid, h⟩ := bind_eq_ok.mp h
  obtain ⟨pk, hpk, h⟩ := bind_eq_ok.mp h
  obtain ⟨v, hv, h⟩ := bind_eq_ok.mp h
  obtain ⟨_, hle, h⟩ := bind_eq_ok.mp h
  obtain ⟨⟨p, suff⟩, hp, h⟩ := bind_eq_ok.mp h
  obtain ⟨next, hnext, h⟩ := bind_eq_ok.mp h
  rw [expect_eq_ok] at hpk
  rw [okOr_eq_ok] at hs hv
  rw [ensure_eq_ok] at hle
  rw [mapErr_eq_ok] at hp hnext
  obtain rfl : v.pubkey = pk := (SubnetCommittee.findValidator_eq_some hv).2
  have hrest := rest_of_validateForSubnet (mapErr_eq_ok.mp hvalid) hpk hv
  refine ⟨s, v, next, hs, hpk, hv, hle, ?_, (Except.ok.inj h).symm⟩
  rw [remainingPower_eq] at hp
  unfold afterUnstake
  by_cases hmin : g.createSubnetMsg.minValidatorStake ≤ v.collateral - m.amount
  · rw [if_pos hmin] at hp
    cases hp
    simpa using hnext
  · rw [if_neg hmin] at hp
    cases hp
    have hzero : powerOf (v.collateral - m.amount) = 0 := by
      rw [hrest.resolve_left hmin, Nat.sub_self]
      decide
    rw [if_pos hzero]
    simpa using hnext

/-- What is left in the committee reaches the minimum stake of the subnet. -/
theorem minStake_of_saveToDb {v : SubnetValidator} {s : SubnetState}
    (h : m.saveToDb X db blockHeight blockHash txid = .ok db')
    (hs : db.getSubnetState X m.subnetId = some s) (hpk : m.pubkey = some v.pubkey)
    (hv : s.latestCommittee.findValidator v.pubkey = some v)
    (hpower : powerOf (v.collateral - m.amount) ≠ 0) :
    ∃ g, db.getSubnetGenesisInfo X m.subnetId = some g ∧
      g.createSubnetMsg.minValidatorStake ≤ v.collateral - m.amount := by
  obtain ⟨g, hg, h⟩ := bind_eq_ok.mp h
  obtain ⟨s', hs', h⟩ := bind_eq_ok.mp h
  obtain ⟨_, hvalid, -⟩ := bind_eq_ok.mp h
  rw [okOr_eq_ok, hs] at hs'
  cases hs'
  refine ⟨g, okOr_eq_ok.mp hg,
    (rest_of_validateForSubnet (mapErr_eq_ok.mp hvalid) hpk hv).resolve_right ?_⟩
  intro hall
  rw [hall, Nat.sub_self] at hpower
  exact hpower (by decide)

end IpcUnstakeCollateralMsg

/-- A kill request touches the kill state of its subnet at most. -/
theorem IpcKillSubnetMsg.saveToDb_eq_ok {m : IpcKillSubnetMsg}
    (h : m.saveToDb X db blockHeight blockHash txid = .ok db') :
    ∃ s request, db.getSubnetState X m.subnetId = some s ∧
      (db' = db.addKillRequest X m.subnetId request ∨
        ∃ marked, (s.killed = .notKilled ∧ marked =
            s.lastCheckpointNumber.orElse (fun _ => s.markedForKillCheckpointNumber)) ∧
          db' = (db.addKillRequest X m.subnetId request).saveSubnetState X m.subnetId
            { s with killed := .toBeKilled, markedForKillCheckpointNumber := marked }) := by
  obtain ⟨g, -, h⟩ := bind_eq_ok.mp h
  obtain ⟨s, hs, h⟩ := bind_eq_ok.mp h
  obtain ⟨_, -, h⟩ := bind_eq_ok.mp h
  obtain ⟨pk, -, h⟩ := bind_eq_ok.mp h
  obtain ⟨_, -, h⟩ := bind_eq_ok.mp h
  obtain ⟨_, -, h⟩ := bind_eq_ok.mp h
  obtain ⟨requested, -, h⟩ := bind_eq_ok.mp h
  obtain ⟨total, -, h⟩ := bind_eq_ok.mp h
  obtain ⟨threshold, -, h⟩ := bind_eq_ok.mp h
  refine ⟨s, ⟨pk, blockHeight, blockHash, txid⟩, okOr_eq_ok.mp hs, ?_⟩
  split_ifs at h with hq
  · exact Or.inr ⟨_, ⟨hq.2, rfl⟩, (Except.ok.inj h).symm⟩
  · exact Or.inl (Except.ok.inj h).symm

namespace IpcCheckpointSubnetMsg

variable {m : IpcCheckpointSubnetMsg}

/-- The stake change up to which a checkpoint rotates is recorded under its number,
which is past the number of the current committee. -/
theorem rotation_eq_some {s : SubnetState} {c : StakeChangeRequest}
    (h : m.rotation X db s = .ok (some c)) :
    s.committee.configurationNumber < m.nextCommitteeConfigurationNumber ∧
      db.getStakeChange X m.subnetId m.nextCommitteeConfigurationNumber = some c := by
  simp only [rotation] at h
  split_ifs at h with hn
  · cases h
  · obtain ⟨_, hle, h⟩ := bind_eq_ok.mp h
    obtain ⟨c', hc, h⟩ := bind_eq_ok.mp h
    rw [ensure_eq_ok] at hle
    cases h
    exact ⟨by omega, okOr_eq_ok.mp hc⟩

/-- The committees after the rotation of a checkpoint. -/
def rotated (s : SubnetState) (change : Option StakeChangeRequest) : SubnetState :=
  match change with
  | none => s
  | some c => s.rotateToCommittee c.committeeAfterChange

/-- Besides the rotation, a checkpoint sets its number and the kill state. -/
theorem checkpointedState_eq (m : IpcCheckpointSubnetMsg) (s : SubnetState)
    (change : Option StakeChangeRequest) (h : Nat) :
    m.checkpointedState s change h = { rotated s change with
      lastCheckpointNumber := some ((s.lastCheckpointNumber.map (· + 1)).getD 0)
      killed := if m.isKillCheckpoint then .killed h else s.killed } := by
  cases change with
  | none =>
    simp only [checkpointedState, rotated]
    split_ifs <;> rfl
  | some c =>
    simp only [checkpointedState, rotated, SubnetState.rotateToCommittee]
    split_ifs <;> rfl

/-- The database after a checkpoint, with its rotation and the confirmed requests. -/
def checkpointedDb (X : Library) (m : IpcCheckpointSubnetMsg) (db : HeedDb) (s : SubnetState)
    (change : Option StakeChangeRequest) (blockHeight : Nat) (blockHash : BlockHash)
    (txid : Txid) : HeedDb :=
  let record := m.checkpointRecord s change blockHeight txid
  let saved := (db.saveSubnetState X m.subnetId
    (m.checkpointedState s change blockHeight)).saveCheckpoint X m.subnetId record
      record.checkpointNumber
  match change with
  | none => saved
  | some c => (saved.saveCommittee X m.subnetId record.nextCommitteeNumber
      c.committeeAfterChange).confirmStakeChanges X m.subnetId
        m.nextCommitteeConfigurationNumber blockHeight blockHash

theorem saveToDb_eq_ok {saved : HeedDb × SubnetCheckpoint}
    (h : m.saveToDb X db blockHeight blockHash txid = .ok saved) :
    ∃ s change, db.getSubnetState X m.subnetId = some s ∧ m.rotation X db s = .ok change ∧
      saved = (m.checkpointedDb X db s change blockHeight blockHash txid,
        m.checkpointRecord s change blockHeight txid) := by
  obtain ⟨s, hs, h⟩ := bind_eq_ok.mp h
  obtain ⟨change, hc, h⟩ := bind_eq_ok.mp h
  refine ⟨s, change, okOr_eq_ok.mp hs, hc, ?_⟩
  cases change with
  | none => exact (Except.ok.inj h).symm
  | some c => exact (Except.ok.inj h).symm

end IpcCheckpointSubnetMsg

namespace IpcBatchTransferMsg

/-- The two databases differ at most in checkpoints, messages and token balances. -/
def SameButBatch (db db' : HeedDb) : Prop :=
  ∃ checkpoints messages balances, db' = { db with
    checkpointsDb := checkpoints, rootnetMsgsDb := messages, tokenBalancesDb := balances }

/-- The two databases differ at most in messages and token balances. -/
def SameButRecords (db db' : HeedDb) : Prop :=
  ∃ messages balances, db' = { db with rootnetMsgsDb := messages, tokenBalancesDb := balances }

theorem SameButRecords.refl (db : HeedDb) : SameButRecords db db := ⟨_, _, rfl⟩

theorem SameButRecords.trans {a b c : HeedDb} (h₁ : SameButRecords a b)
    (h₂ : SameButRecords b c) : SameButRecords a c := by
  obtain ⟨_, _, rfl⟩ := h₁
  obtain ⟨x, y, rfl⟩ := h₂
  exact ⟨x, y, rfl⟩

theorem sameButRecords_applyTransfer {o : Origin} {source : SubnetId} {db db' : HeedDb}
    {e : IpcCrossSubnetErcTransfer} (h : applyTransfer X o source db e = .ok db') :
    SameButRecords db db' := by
  unfold applyTransfer at h
  split_ifs at h
  · exact (Except.ok.inj h) ▸ SameButRecords.refl db
  · obtain ⟨left, -, h⟩ := bind_eq_ok.mp h
    exact (Except.ok.inj h) ▸ ⟨_, _, rfl⟩

theorem sameButRecords_applyRegistration (o : Origin) (source : SubnetId)
    (subnets : List SubnetState) (db : HeedDb) (r : IpcErcTokenRegistration) :
    SameButRecords db (applyRegistration X o source subnets db r) := by
  have hset : SameButRecords db
      (db.setTokenBalance X source r.homeTokenAddress source r.initialSupply) := ⟨_, _, rfl⟩
  refine hset.trans ?_
  exact foldl_rel SameButRecords.refl (fun _ _ _ => SameButRecords.trans)
    (fun _ _ => ⟨_, _, rfl⟩) _ _

theorem sameButRecords_applyRecords {m : IpcBatchTransferMsg} {o : Origin}
    {committed db db' : HeedDb} (h : m.applyRecords X o committed db = .ok db') :
    SameButRecords db db' := by
  obtain ⟨d, hburn, htransfer⟩ := bind_eq_ok.mp h
  have htrans : ∀ a b c : HeedDb, SameButRecords a b → SameButRecords b c → SameButRecords a c :=
    fun _ _ _ => SameButRecords.trans
  have hnative := foldl_rel SameButRecords.refl htrans (f := applyNative X o)
    (fun _ _ => ⟨_, _, rfl⟩) m.transfers db
  have hregistered := foldl_rel SameButRecords.refl htrans
    (sameButRecords_applyRegistration (X := X) o m.subnetId committed.getAllSubnets)
    m.tokenRegistrations (m.transfers.foldl (applyNative X o) db)
  refine (hnative.trans hregistered).trans ?_
  refine (foldl_rel SameButRecords.refl htrans (f := applyMint X m.subnetId)
    (fun _ _ => ⟨_, _, rfl⟩)
    (m.tokenSupplyAdjustments.filter (fun a => !a.delta.isNegative)) _).trans ?_
  refine (foldlM_rel SameButRecords.refl htrans (fun d a d' hd => ?_) hburn).trans
    (foldlM_rel SameButRecords.refl htrans (fun _ _ _ hd => sameButRecords_applyTransfer hd)
      htransfer)
  obtain ⟨left, -, hd⟩ := bind_eq_ok.mp hd
  exact (Except.ok.inj hd) ▸ ⟨_, _, rfl⟩

/-- Besides its records, a batch transfer writes the record of the last checkpoint
again, under the number after its own. -/
theorem saveToDb_eq_ok {m : IpcBatchTransferMsg} {o : Origin}
    {saved : HeedDb × SubnetCheckpoint} (h : m.saveToDb X db o = .ok saved) :
    ∃ s number record, db.getSubnetState X m.subnetId = some s ∧
      s.lastCheckpointNumber = some number ∧
      SameButRecords (db.saveCheckpoint X m.subnetId record (number + 1)) saved.1 := by
  obtain ⟨s, hs, h⟩ := bind_eq_ok.mp h
  obtain ⟨n, hn, h⟩ := bind_eq_ok.mp h
  obtain ⟨c, -, h⟩ := bind_eq_ok.mp h
  obtain ⟨_, -, h⟩ := bind_eq_ok.mp h
  obtain ⟨db', happly, h⟩ := bind_eq_ok.mp h
  cases h
  exact ⟨s, n, _, okOr_eq_ok.mp hs, okOr_eq_ok.mp hn, sameButRecords_applyRecords happly⟩

theorem sameButBatch_saveToDb {m : IpcBatchTransferMsg} {o : Origin}
    {saved : HeedDb × SubnetCheckpoint} (h : m.saveToDb X db o = .ok saved) :
    SameButBatch db saved.1 := by
  obtain ⟨s, n, record, -, -, messages, balances, heq⟩ := saveToDb_eq_ok h
  exact ⟨_, messages, balances, heq⟩

end IpcBatchTransferMsg

end Messages

namespace Monitor

open Faults Chain Messages Crates Db

variable {X : Library}

/-- The two databases agree on token balances, transactions and queues. -/
def SameRecords (db db' : HeedDb) : Prop :=
  db'.tokenBalancesDb = db.tokenBalancesDb ∧ db'.transactionsDb = db.transactionsDb ∧
    db'.rootnetMsgsDb = db.rootnetMsgsDb

theorem sameRecords_foldl_addStakeChange (s : SubnetId) (l : List StakeChangeRequest)
    (db : HeedDb) : SameRecords db (l.foldl (fun d c => d.addStakeChange X s c) db) :=
  foldl_rel (R := SameRecords) (fun _ => ⟨rfl, rfl, rfl⟩)
    (fun _ _ _ h₁ h₂ => ⟨h₂.1.trans h₁.1, h₂.2.1.trans h₁.2.1, h₂.2.2.trans h₁.2.2⟩)
    (f := fun d c => d.addStakeChange X s c) (fun _ _ => ⟨rfl, rfl, rfl⟩) l db

/-- Token balances are written by batch transfers alone, transactions by the commit
of a checkpoint's transaction, and queues by batch transfers and fundings. -/
theorem tables_of_commit {db db' : HeedDb} {e : Event} (h : Commit X db e db') :
    (batchOf e = none → db'.tokenBalancesDb = db.tokenBalancesDb) ∧
      (transactionOf e = none → db'.transactionsDb = db.transactionsDb) ∧
      (addsToQueue e = false → db'.rootnetMsgsDb = db.rootnetMsgsDb) := by
  have hsame : SameRecords db db' → (batchOf e = none → db'.tokenBalancesDb = db.tokenBalancesDb) ∧
      (transactionOf e = none → db'.transactionsDb = db.transactionsDb) ∧
      (addsToQueue e = false → db'.rootnetMsgsDb = db.rootnetMsgsDb) :=
    fun hs => ⟨fun _ => hs.1, fun _ => hs.2.1, fun _ => hs.2.2⟩
  cases h with
  | createSubnet => exact hsame ⟨rfl, rfl, rfl⟩
  | @joinSubnet ctx tx m₀ m saved _ _ hsave =>
    apply hsame
    cases hst : db.getSubnetState X m.subnetId with
    | none =>
      obtain ⟨g, -, -, -, ⟨-, rfl⟩ | ⟨s, -, -, rfl⟩⟩ := IpcJoinSubnetMsg.saveToDb_pre hst hsave
      · exact ⟨rfl, rfl, rfl⟩
      · exact ⟨rfl, rfl, rfl⟩
    | some s =>
      obtain ⟨next, -, -, -, rfl⟩ := IpcJoinSubnetMsg.saveToDb_post hst hsave
      exact sameRecords_foldl_addStakeChange _ _ _
  | prefundSubnet _ _ hsave =>
    obtain ⟨g, -, -, rfl⟩ := IpcPrefundSubnetMsg.saveToDb_eq_ok hsave
    exact hsame ⟨rfl, rfl, rfl⟩
  | fundSubnet _ _ hsave =>
    obtain ⟨s, -, rfl⟩ := IpcFundSubnetMsg.saveToDb_eq_ok hsave
    exact ⟨fun _ => rfl, fun _ => rfl, fun h => by cases h⟩
  | checkpointSubnet _ _ hsave =>
    obtain ⟨s, change, -, -, rfl⟩ := IpcCheckpointSubnetMsg.saveToDb_eq_ok hsave
    apply hsame
    cases change with
    | none => exact ⟨rfl, rfl, rfl⟩
    | some c => exact sameRecords_foldl_addStakeChange _ _ _
  | batchTransfer _ _ hsave =>
    obtain ⟨_, _, _, heq⟩ := IpcBatchTransferMsg.sameButBatch_saveToDb hsave
    refine ⟨?_, ?_, ?_⟩
    · intro hb
      cases hb
    · intro _
      rw [heq]
    · intro hq
      cases hq
  | stakeCollateral _ _ hsave =>
    obtain ⟨s, v, next, -, -, -, rfl⟩ := IpcStakeCollateralMsg.saveToDb_eq_ok hsave
    exact hsame (sameRecords_foldl_addStakeChange _ _ _)
  | unstakeCollateral _ _ hsave =>
    obtain ⟨s, v, next, -, -, -, -, -, rfl⟩ := IpcUnstakeCollateralMsg.saveToDb_eq_ok hsave
    exact hsame (sameRecords_foldl_addStakeChange _ _ _)
  | killSubnet _ _ hsave =>
    obtain ⟨s, r, -, rfl | ⟨marked, -, rfl⟩⟩ := IpcKillSubnetMsg.saveToDb_eq_ok hsave
    · exact hsame ⟨rfl, rfl, rfl⟩
    · exact hsame ⟨rfl, rfl, rfl⟩
  | transaction =>
    refine ⟨fun _ => rfl, ?_, fun _ => rfl⟩
    intro ht
    cases ht
  | rewards h =>
    obtain ⟨c, r, rfl⟩ := h
    exact hsame ⟨rfl, rfl, rfl⟩
  | block => exact hsame ⟨rfl, rfl, rfl⟩

end Monitor
