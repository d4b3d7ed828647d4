import BitcoinIpc.IdealCrates
import BitcoinIpc.Sound

/-!
# Bootstrap

A subnet starts with the join that completes its genesis validators, and from
then on its genesis info is frozen. The handlers of creations, prefundings and
joins rewrite one genesis record. A creation rewrites it without looking whether
there is one, so all of this holds as long as no creation meets a genesis info
that has validators.
-/

namespace Monitor

open Faults Bytes Chain Messages Crates Multisig Db Grouping Commits OrderedTable

variable {X : Library}

/-- The join of an event, if it is one of the subnet. -/
def joinOf (id : SubnetId) : Event → Option IpcJoinSubnetMsg
  | .message _ _ (.joinSubnet m) => if m.subnetId = id then some m else none
  | _ => none

/-- The accepted joins of a subnet, in their order. -/
def joinsTo (id : SubnetId) (l : List (Event × HeedDb)) : List IpcJoinSubnetMsg :=
  l.filterMap (fun a => joinOf id a.1)

theorem joinsTo_snoc (id : SubnetId) (l : List (Event × HeedDb)) (e : Event) (db : HeedDb) :
    joinsTo id (l ++ [(e, db)]) = joinsTo id l ++ (joinOf id e).toList := by
  rw [joinsTo, List.filterMap_append]
  cases h : joinOf id e <;> simp [joinsTo, h]

/-- What one commit does to the genesis info of a subnet and to the existence of its state. -/
inductive GenesisStep (X : Library) (id : SubnetId) (db : HeedDb) (e : Event) (db' : HeedDb) : Prop
  | other : joinOf id e = none →
      db'.getSubnetGenesisInfo X id = db.getSubnetGenesisInfo X id →
      (db'.getSubnetState X id).isSome = (db.getSubnetState X id).isSome → GenesisStep X id db e db'
  | created {ctx tx m} : e = .message ctx tx (.createSubnet m) →
      id = .fromTxid (X.computeTxid tx) → Parsed X ctx db tx (.createSubnet m) →
      m.validate = .ok () → db'.getSubnetGenesisInfo X id =
        some (m.genesisInfo ctx.blockHeight (X.computeTxid tx)) →
      db'.getSubnetState X id = db.getSubnetState X id → GenesisStep X id db e db'
  | prefunded {g entries} : joinOf id e = none → db.getSubnetGenesisInfo X id = some g →
      g.bootstrapped = false →
      db'.getSubnetGenesisInfo X id = some { g with genesisBalanceEntries := entries } →
      db'.getSubnetState X id = db.getSubnetState X id → GenesisStep X id db e db'
  | joined {m g txid} : joinOf id e = some m → db.getSubnetState X id = none →
      db.getSubnetGenesisInfo X id = some g → (∀ v ∈ g.genesisValidators, v.pubkey ≠ m.pubkey) →
      m.pubkey ∈ g.createSubnetMsg.whitelist →
      (m.joinedGenesis X g txid).enoughToBootstrap = false →
      db'.getSubnetGenesisInfo X id = some (m.joinedGenesis X g txid) →
      db'.getSubnetState X id = none → GenesisStep X id db e db'
  | started {m g txid height s} : joinOf id e = some m → db.getSubnetState X id = none →
      db.getSubnetGenesisInfo X id = some g → (∀ v ∈ g.genesisValidators, v.pubkey ≠ m.pubkey) →
      m.pubkey ∈ g.createSubnetMsg.whitelist →
      (m.joinedGenesis X g txid).enoughToBootstrap = true →
      (IpcJoinSubnetMsg.startedGenesis (m.joinedGenesis X g txid) height).toSubnet X =
        (.ok s : Outcome IpcLibError SubnetState) →
      db'.getSubnetGenesisInfo X id =
        some (IpcJoinSubnetMsg.startedGenesis (m.joinedGenesis X g txid) height) →
      db'.getSubnetState X id = some s →
      db'.getCommittee X id s.committeeNumber = some s.committee → GenesisStep X id db e db'
  | member {m} : joinOf id e = some m → (db.getSubnetState X id).isSome = true →
      db'.getSubnetGenesisInfo X id = db.getSubnetGenesisInfo X id →
      (db'.getSubnetState X id).isSome = true → GenesisStep X id db e db'

section Laws

variable (laws : DisplayLaws X) {db db' : HeedDb} {e : Event}
include laws

/-- Writing the state of a subnet that has one leaves it to be seen which subnets have one. -/
theorem isSome_getSubnetState_of_put {u : SubnetId} {s s' : SubnetState}
    (hs : db.getSubnetState X u = some s)
    (h : db'.subnetDb = db.subnetDb.put (subnetStateKey X u) s') (id : SubnetId) :
    (db'.getSubnetState X id).isSome = (db.getSubnetState X id).isSome := by
  have hsave := HeedDb.getSubnetState_save db laws u id s'
  have hget : db'.getSubnetState X id = (db.saveSubnetState X u s').getSubnetState X id := by
    rw [HeedDb.getSubnetState, h]
    rfl
  rw [hget, hsave]
  split_ifs with hid
  · rw [hid, hs]
    rfl
  · rfl

/-- A message that records a stake change or a checkpoint of a subnet. -/
theorem genesisStep_of_put {u : SubnetId} {s s' : SubnetState} (id : SubnetId)
    (hnone : joinOf id e = none) (hs : db.getSubnetState X u = some s)
    (hg : db'.subnetGenesisDb = db.subnetGenesisDb)
    (h : db'.subnetDb = db.subnetDb.put (subnetStateKey X u) s') : GenesisStep X id db e db' := by
  refine .other hnone ?_ (isSome_getSubnetState_of_put laws hs h id)
  rw [HeedDb.getSubnetGenesisInfo, hg]
  rfl

/-- A join, seen from one subnet. -/
theorem genesisStep_join {ctx : BlockContext} {tx : Transaction} {m : IpcJoinSubnetMsg}
    {height : Nat} {hash : BlockHash} {txid : Txid} {saved : HeedDb × Option SubnetState}
    (id : SubnetId) (hsave : m.saveToDb X db height hash txid = .ok saved) :
    GenesisStep X id db (.message ctx tx (.joinSubnet m)) saved.1 := by
  have hjoin : joinOf id (.message ctx tx (.joinSubnet m)) =
      if m.subnetId = id then some m else none := rfl
  cases hst : db.getSubnetState X m.subnetId with
  | none =>
    obtain ⟨g, hg, hnew, hlisted, hcase⟩ := IpcJoinSubnetMsg.saveToDb_pre hst hsave
    by_cases hid : m.subnetId = id
    · subst hid
      rw [if_pos rfl] at hjoin
      rcases hcase with ⟨hless, rfl⟩ | ⟨s, henough, hsub, rfl⟩
      · refine .joined hjoin hst hg hnew hlisted hless ?_ hst
        rw [HeedDb.getSubnetGenesisInfo_save db laws, if_pos rfl]
      · refine .started hjoin hst hg hnew hlisted henough hsub ?_ ?_ ?_
        · exact (HeedDb.getSubnetGenesisInfo_save _ laws _ _ _).trans (if_pos rfl)
        · exact (HeedDb.getSubnetState_save db laws _ _ _).trans (if_pos rfl)
        · rw [HeedDb.getCommittee_save _ laws, if_pos ⟨rfl, rfl⟩]
    · rw [if_neg hid] at hjoin
      have hid' : ¬ id = m.subnetId := fun h => hid h.symm
      rcases hcase with ⟨-, rfl⟩ | ⟨s, -, -, rfl⟩
      · refine .other hjoin ?_ rfl
        rw [HeedDb.getSubnetGenesisInfo_save db laws, if_neg hid']
      · refine .other hjoin ?_ ?_
        · exact (HeedDb.getSubnetGenesisInfo_save _ laws _ _ _).trans (if_neg hid')
        · exact congrArg Option.isSome
            ((HeedDb.getSubnetState_save db laws _ _ _).trans (if_neg hid'))
  | some s =>
    obtain ⟨next, -, -, -, rfl⟩ := IpcJoinSubnetMsg.saveToDb_post hst hsave
    have hsome := isSome_getSubnetState_of_put laws hst (subnetDb_recordStake db m.subnetId s next
      (m.requests X next (db.getNextStakeChangeConfigurationNumber X m.subnetId) height hash txid))
    have hgenesis : (recordStake X db m.subnetId s next (m.requests X next
        (db.getNextStakeChangeConfigurationNumber X m.subnetId) height hash
          txid)).getSubnetGenesisInfo X id = db.getSubnetGenesisInfo X id := by
      rw [HeedDb.getSubnetGenesisInfo, subnetGenesisDb_recordStake]
      rfl
    by_cases hid : m.subnetId = id
    · subst hid
      rw [if_pos rfl] at hjoin
      refine .member hjoin (by rw [hst]; rfl) hgenesis ?_
      rw [hsome, hst]
      rfl
    · rw [if_neg hid] at hjoin
      exact .other hjoin hgenesis (hsome id)

/-- Every commit is one of the steps, for every subnet. -/
theorem genesisStep_of_commit (h : Commit X db e db') (id : SubnetId) :
    GenesisStep X id db e db' := by
  have hstake : ∀ {u : SubnetId} {s : SubnetState} {next : SubnetCommittee}
      {requests : List StakeChangeRequest}, joinOf id e = none →
      db.getSubnetState X u = some s → db' = recordStake X db u s next requests →
      GenesisStep X id db e db' := by
    rintro u s next requests hnone hs rfl
    exact genesisStep_of_put laws id hnone hs (subnetGenesisDb_recordStake db u s next requests)
      (subnetDb_recordStake db u s next requests)
  cases h with
  | @createSubnet ctx tx m hparsed hvalid =>
    by_cases hid : id = .fromTxid (X.computeTxid tx)
    · refine .created rfl hid hparsed hvalid ?_ rfl
      rw [hid]
      exact (HeedDb.getSubnetGenesisInfo_save db laws _ _ _).trans (if_pos rfl)
    · refine .other rfl ?_ rfl
      exact (HeedDb.getSubnetGenesisInfo_save db laws _ _ _).trans (if_neg hid)
  | joinSubnet _ _ hsave => exact genesisStep_join laws id hsave
  | @prefundSubnet ctx tx m _ _ _ hsave =>
    obtain ⟨g, hg, hopen, rfl⟩ := IpcPrefundSubnetMsg.saveToDb_eq_ok hsave
    by_cases hid : id = m.subnetId
    · subst hid
      exact .prefunded rfl hg hopen
        ((HeedDb.getSubnetGenesisInfo_save db laws _ _ _).trans (if_pos rfl)) rfl
    · refine .other rfl ?_ rfl
      exact (HeedDb.getSubnetGenesisInfo_save db laws _ _ _).trans (if_neg hid)
  | fundSubnet _ _ hsave =>
    obtain ⟨s, -, rfl⟩ := IpcFundSubnetMsg.saveToDb_eq_ok hsave
    exact .other rfl rfl rfl
  | @checkpointSubnet ctx tx m _ _ _ hsave =>
    obtain ⟨s, change, hs, -, rfl⟩ := IpcCheckpointSubnetMsg.saveToDb_eq_ok hsave
    exact genesisStep_of_put laws id rfl hs subnetGenesisDb_checkpointedDb subnetDb_checkpointedDb
  | batchTransfer _ _ hsave =>
    obtain ⟨_, _, _, heq⟩ := IpcBatchTransferMsg.sameButBatch_saveToDb hsave
    refine .other rfl ?_ ?_
    · rw [heq]
      rfl
    · rw [heq]
      rfl
  | stakeCollateral _ _ hsave =>
    obtain ⟨s, v, next, hs, -, -, heq⟩ := IpcStakeCollateralMsg.saveToDb_eq_ok hsave
    exact hstake rfl hs heq
  | unstakeCollateral _ _ hsave =>
    obtain ⟨s, v, next, hs, -, -, -, -, heq⟩ := IpcUnstakeCollateralMsg.saveToDb_eq_ok hsave
    exact hstake rfl hs heq
  | killSubnet _ _ hsave =>
    obtain ⟨s, r, hs, rfl | ⟨marked, -, rfl⟩⟩ := IpcKillSubnetMsg.saveToDb_eq_ok hsave
    · exact .other rfl rfl rfl
    · exact genesisStep_of_put laws id rfl hs rfl rfl
  | transaction => exact .other rfl rfl rfl
  | rewards hsame =>
    obtain ⟨_, _, rfl⟩ := hsame
    exact .other rfl rfl rfl
  | block => exact .other rfl rfl rfl

end Laws

/-- A prefund of a subnet that has not started is added to its genesis info. -/
theorem processIpcMsg_prefund {db : HeedDb} {tx : Transaction} {m : IpcPrefundSubnetMsg}
    {g : SubnetGenesisInfo} (cfg : Config) (ctx : BlockContext) (hvalid : m.validate = .ok ())
    (hg : db.getSubnetGenesisInfo X m.subnetId = some g) (hopen : ¬ g.bootstrapped = true) :
    processIpcMsg X cfg ctx tx (.prefundSubnet m) db =
      ⟨[db.saveSubnetGenesisInfo X m.subnetId (g.addGenesisBalanceEntry m.address m.amount
        (X.computeTxid tx) ctx.blockHeight)], .ok ()⟩ := by
  have hsave : m.saveToDb X db ctx.blockHeight (X.computeTxid tx) =
      .ok (db.saveSubnetGenesisInfo X m.subnetId (g.addGenesisBalanceEntry m.address m.amount
        (X.computeTxid tx) ctx.blockHeight)) := by
    refine bind_eq_ok.mpr ⟨g, okOr_eq_ok.mpr hg, ?_⟩
    exact bind_eq_ok.mpr ⟨(), mapErr_eq_ok.mpr (ensure_pos hopen), rfl⟩
  change (Proc.lift (orMsgInvalid m.validate) >>= _) db = _
  rw [hvalid]
  change (Proc.lift (orProcessing (m.saveToDb X db ctx.blockHeight _)) >>= _) db = _
  rw [hsave]
  rfl

/-- A subnet of a run, between the joins that were accepted and what is stored: its genesis
validators are the first joins, in the number that is asked for. -/
structure GenesisRecord (X : Library) (db : HeedDb) (id : SubnetId)
    (joins : List IpcJoinSubnetMsg) (g : SubnetGenesisInfo) : Prop where
  min_pos : 0 < g.createSubnetMsg.minValidators
  min_lt : g.createSubnetMsg.minValidators < 2 ^ 16
  started_iff : (db.getSubnetState X id).isSome = true ↔ g.bootstrapped = true
  bootstrapped_iff : g.bootstrapped = true ↔ g.createSubnetMsg.minValidators ≤ joins.length
  validators_eq : g.genesisValidators.map (·.pubkey) =
    (joins.take g.createSubnetMsg.minValidators).map (·.pubkey)
  nodup : (g.genesisValidators.map (·.pubkey)).Nodup
  whitelisted : ∀ v ∈ g.genesisValidators, v.pubkey ∈ g.createSubnetMsg.whitelist

/-- A subnet that was not created has no state and no joins. -/
structure GenesisKept (X : Library) (db : HeedDb) (id : SubnetId)
    (joins : List IpcJoinSubnetMsg) : Prop where
  absent : db.getSubnetGenesisInfo X id = none → db.getSubnetState X id = none ∧ joins = []
  record : ∀ g, db.getSubnetGenesisInfo X id = some g → GenesisRecord X db id joins g

/-- A creation finds no validators under the id of its transaction. -/
def FreshCreate (X : Library) (db : HeedDb) (e : Event) (_ : HeedDb) : Prop :=
  ∀ ctx tx m, e = .message ctx tx (.createSubnet m) →
    ∀ g, db.getSubnetGenesisInfo X (.fromTxid (X.computeTxid tx)) = some g →
      g.genesisValidators = []

variable {db db' : HeedDb} {e : Event} {id : SubnetId} {joins : List IpcJoinSubnetMsg}

theorem GenesisRecord.congr {g g' : SubnetGenesisInfo} (h : GenesisRecord X db id joins g)
    (hmsg : g'.createSubnetMsg = g.createSubnetMsg) (hboot : g'.bootstrapped = g.bootstrapped)
    (hvals : g'.genesisValidators = g.genesisValidators)
    (hstate : (db'.getSubnetState X id).isSome = (db.getSubnetState X id).isSome) :
    GenesisRecord X db' id joins g' := by
  refine ⟨?_, ?_, ?_, ?_, ?_, ?_, ?_⟩
  · rw [hmsg]
    exact h.min_pos
  · rw [hmsg]
    exact h.min_lt
  · rw [hstate, hboot]
    exact h.started_iff
  · rw [hmsg, hboot]
    exact h.bootstrapped_iff
  · rw [hmsg, hvals]
    exact h.validators_eq
  · rw [hvals]
    exact h.nodup
  · rw [hmsg, hvals]
    exact h.whitelisted

/-- Before the start every accepted join is a genesis validator. -/
theorem GenesisRecord.before {g : SubnetGenesisInfo} (h : GenesisRecord X db id joins g)
    (hnone : db.getSubnetState X id = none) :
    joins.length < g.createSubnetMsg.minValidators ∧
      g.genesisValidators.map (·.pubkey) = joins.map (·.pubkey) ∧ g.bootstrapped = false := by
  have hb : ¬ g.bootstrapped = true := by
    rw [← h.started_iff, hnone]
    simp
  have hlt : joins.length < g.createSubnetMsg.minValidators := by
    have := mt h.bootstrapped_iff.mpr hb
    omega
  refine ⟨hlt, ?_, by simpa using hb⟩
  rw [h.validators_eq, List.take_of_length_le hlt.le]

/-- The next join before the start: the subnet has its validators when their number reaches
the minimum. -/
theorem enoughToBootstrap_joined {g : SubnetGenesisInfo} {m : IpcJoinSubnetMsg} {txid : Txid}
    (h : GenesisRecord X db id joins g) (hnone : db.getSubnetState X id = none) :
    (m.joinedGenesis X g txid).enoughToBootstrap =
      decide (g.createSubnetMsg.minValidators ≤ (joins ++ [m]).length) := by
  obtain ⟨hlt, hvals, -⟩ := h.before hnone
  have hlen : g.genesisValidators.length = joins.length := by
    simpa using congrArg List.length hvals
  have hmin := h.min_lt
  have hmod : (joins.length + 1) % 2 ^ 16 = joins.length + 1 := Nat.mod_eq_of_lt (by omega)
  simp only [SubnetGenesisInfo.enoughToBootstrap, IpcJoinSubnetMsg.joinedGenesis,
    List.length_append, List.length_singleton, hlen, hmod]

/-- The genesis info with one more validator. -/
theorem GenesisRecord.joined {g g' : SubnetGenesisInfo} {m : IpcJoinSubnetMsg}
    (h : GenesisRecord X db id joins g) (txid : Txid) (hnone : db.getSubnetState X id = none)
    (hnew : ∀ v ∈ g.genesisValidators, v.pubkey ≠ m.pubkey)
    (hlisted : m.pubkey ∈ g.createSubnetMsg.whitelist)
    (hmsg : g'.createSubnetMsg = g.createSubnetMsg)
    (hvals : g'.genesisValidators = (m.joinedGenesis X g txid).genesisValidators)
    (hboot : g'.bootstrapped = true ↔
      g.createSubnetMsg.minValidators ≤ (joins ++ [m]).length)
    (hstate : (db'.getSubnetState X id).isSome = true ↔ g'.bootstrapped = true) :
    GenesisRecord X db' id (joins ++ [m]) g' := by
  obtain ⟨hlt, hkeys, -⟩ := h.before hnone
  have hkeys' : g'.genesisValidators.map (·.pubkey) = (joins ++ [m]).map (·.pubkey) := by
    rw [hvals, IpcJoinSubnetMsg.joinedGenesis, List.map_append, List.map_append, hkeys]
    rfl
  have hle : (joins ++ [m]).length ≤ g.createSubnetMsg.minValidators := by
    rw [List.length_append, List.length_singleton]
    exact hlt
  refine ⟨?_, ?_, hstate, ?_, ?_, ?_, ?_⟩
  · rw [hmsg]
    exact h.min_pos
  · rw [hmsg]
    exact h.min_lt
  · rw [hmsg]
    exact hboot
  · rw [hmsg, List.take_of_length_le hle]
    exact hkeys'
  · rw [hkeys', List.map_append, ← hkeys, List.nodup_append]
    refine ⟨h.nodup, List.nodup_singleton _, ?_⟩
    rintro a ha b hb rfl
    obtain ⟨v, hv, rfl⟩ := List.mem_map.mp ha
    exact hnew v hv (List.mem_singleton.mp hb)
  · rw [hvals, hmsg]
    intro v hv
    rcases List.mem_append.mp hv with hv | hv
    · exact h.whitelisted v hv
    · rw [List.mem_singleton.mp hv]
      exact hlisted

/-- Created is what a witness decodes to. -/
theorem decode_of_mem_witnessMessages {tx : Transaction} {m : IpcCreateSubnetMsg}
    (h : .createSubnet m ∈ witnessMessages X tx) :
    ∃ bytes, X.decodeCreateSubnet bytes = some m := by
  obtain ⟨i, -, hi⟩ := List.mem_flatMap.mp h
  obtain ⟨item, -, hitem⟩ := List.mem_filterMap.mp hi
  simp only [witnessMessage] at hitem
  split_ifs at hitem
  split at hitem
  · simp only [fromWitness] at hitem
    split_ifs at hitem
    split at hitem
    · obtain ⟨c, hc, heq⟩ := Option.map_eq_some_iff.mp hitem
      cases heq
      exact ⟨_, hc⟩
    · obtain ⟨c, -, heq⟩ := Option.map_eq_some_iff.mp hitem
      cases heq
    · cases hitem
  · cases hitem

theorem minValidators_pos {m : IpcCreateSubnetMsg} (h : m.validate = .ok ()) :
    0 < m.minValidators := by
  obtain ⟨_, hpos, -⟩ := bind_eq_ok.mp h
  exact Nat.pos_of_ne_zero (ensure_eq_ok.mp hpos)

/-- A fresh creation starts the record anew, while no join was accepted. -/
theorem GenesisKept.created {m : IpcCreateSubnetMsg} {ctx : BlockContext} {tx : Transaction}
    (h : GenesisKept X db id joins) (hpos : 0 < m.minValidators) (hlt : m.minValidators < 2 ^ 16)
    (hfresh : ∀ g, db.getSubnetGenesisInfo X id = some g → g.genesisValidators = [])
    (hg : db'.getSubnetGenesisInfo X id = some (m.genesisInfo ctx.blockHeight (X.computeTxid tx)))
    (hs : db'.getSubnetState X id = db.getSubnetState X id) : GenesisKept X db' id joins := by
  have hnone : db.getSubnetState X id = none ∧ joins = [] := by
    cases hget : db.getSubnetGenesisInfo X id with
    | none => exact h.absent hget
    | some g =>
      have hr := h.record g hget
      have hkeys := hr.validators_eq
      rw [hfresh g hget, List.map_nil, eq_comm, List.map_eq_nil_iff, List.take_eq_nil_iff] at hkeys
      have hmin := hr.min_pos
      have hjoins : joins = [] := hkeys.resolve_left (by omega)
      refine ⟨?_, hjoins⟩
      have hboot : ¬ g.bootstrapped = true := by
        rw [hr.bootstrapped_iff, hjoins, List.length_nil]
        omega
      rw [← hr.started_iff] at hboot
      simpa using hboot
  refine ⟨?_, ?_⟩
  · intro habsent
    rw [hg] at habsent
    cases habsent
  · intro g hget
    rw [hg] at hget
    cases hget
    refine ⟨hpos, hlt, ?_, ?_, ?_, List.nodup_nil, ?_⟩
    · rw [hs, hnone.1]
      exact iff_of_false (by simp) (by simp [IpcCreateSubnetMsg.genesisInfo])
    · rw [hnone.2]
      refine iff_of_false (by simp [IpcCreateSubnetMsg.genesisInfo]) ?_
      rw [List.length_nil]
      exact Nat.not_le.mpr hpos
    · rw [hnone.2, List.take_nil]
      rfl
    · intro v hv
      cases hv

/-- A join of a subnet that runs is not a genesis validator. -/
theorem GenesisRecord.member {g : SubnetGenesisInfo} (m : IpcJoinSubnetMsg)
    (h : GenesisRecord X db id joins g) (hsome : (db.getSubnetState X id).isSome = true)
    (hsome' : (db'.getSubnetState X id).isSome = true) :
    GenesisRecord X db' id (joins ++ [m]) g := by
  have hboot := h.started_iff.mp hsome
  have hle := h.bootstrapped_iff.mp hboot
  refine ⟨h.min_pos, h.min_lt, iff_of_true hsome' hboot, ?_, ?_, h.nodup, h.whitelisted⟩
  · refine iff_of_true hboot ?_
    rw [List.length_append]
    omega
  · rw [List.take_append_of_le_length hle]
    exact h.validators_eq

section Steps

variable (laws : DisplayLaws X)
include laws

theorem GenesisKept.commit (fields : FieldLaws X) (h : GenesisKept X db id joins)
    (hstep : Commit X db e db') (hfresh : FreshCreate X db e db') :
    GenesisKept X db' id (joins ++ (joinOf id e).toList) := by
  cases genesisStep_of_commit laws hstep id with
  | other hnone hg hs =>
    rw [hnone, Option.toList_none, List.append_nil]
    refine ⟨?_, ?_⟩
    · intro habsent
      rw [hg] at habsent
      obtain ⟨hst, hj⟩ := h.absent habsent
      rw [hst] at hs
      exact ⟨by simpa using hs, hj⟩
    · intro g hget
      rw [hg] at hget
      exact (h.record g hget).congr rfl rfl rfl hs
  | @created ctx tx m he hid hparsed hvalid hg hs =>
    subst he hid
    obtain ⟨bytes, hdecode⟩ := decode_of_mem_witnessMessages hparsed
    have hnone : joinOf (.fromTxid (X.computeTxid tx)) (.message ctx tx (.createSubnet m)) =
      none := rfl
    rw [hnone, Option.toList_none, List.append_nil]
    exact h.created (minValidators_pos hvalid) (fields.minValidators_lt bytes m hdecode)
      (hfresh ctx tx m rfl) hg hs
  | prefunded hnone hget _ hg hs =>
    rw [hnone, Option.toList_none, List.append_nil]
    refine ⟨?_, ?_⟩
    · intro habsent
      rw [hg] at habsent
      cases habsent
    · intro g' hget'
      rw [hg] at hget'
      cases hget'
      exact (h.record _ hget).congr rfl rfl rfl (by rw [hs])
  | @joined m g txid hjoin hst hget hnew hlisted hless hg hs =>
    rw [hjoin, Option.toList_some]
    refine ⟨?_, ?_⟩
    · intro habsent
      rw [hg] at habsent
      cases habsent
    · intro g' hget'
      rw [hg] at hget'
      cases hget'
      have hr := h.record g hget
      have hboot := (hr.before hst).2.2
      rw [enoughToBootstrap_joined hr hst, decide_eq_false_iff_not] at hless
      have hopen : (m.joinedGenesis X g txid).bootstrapped = false := hboot
      refine hr.joined txid hst hnew hlisted rfl rfl ?_ ?_
      · exact iff_of_false (by simp [hopen]) hless
      · rw [hs, hopen]
        simp
  | @started m g txid height s hjoin hst hget hnew hlisted henough _ hg hs _ =>
    rw [hjoin, Option.toList_some]
    refine ⟨?_, ?_⟩
    · intro habsent
      rw [hg] at habsent
      cases habsent
    · intro g' hget'
      rw [hg] at hget'
      cases hget'
      have hr := h.record g hget
      rw [enoughToBootstrap_joined hr hst, decide_eq_true_iff] at henough
      refine hr.joined txid hst hnew hlisted rfl rfl (iff_of_true rfl henough) ?_
      rw [hs]
      exact iff_of_true rfl rfl
  | @member m hjoin hsome hg hsome' =>
    rw [hjoin, Option.toList_some]
    refine ⟨?_, ?_⟩
    · intro habsent
      rw [hg] at habsent
      rw [(h.absent habsent).1] at hsome
      cases hsome
    · intro g hget
      rw [hg] at hget
      exact (h.record g hget).member m hsome hsome'

/-- A genesis info that has started is not written again. -/
theorem GenesisKept.frozen {g : SubnetGenesisInfo} (h : GenesisKept X db id joins)
    (hstep : Commit X db e db') (hfresh : FreshCreate X db e db')
    (hg : db.getSubnetGenesisInfo X id = some g) (hboot : g.bootstrapped = true) :
    db'.getSubnetGenesisInfo X id = some g := by
  have hr := h.record g hg
  have hsome := hr.started_iff.mpr hboot
  cases genesisStep_of_commit laws hstep id with
  | other _ hsame _ => rw [hsame, hg]
  | @created ctx tx m he hid _ _ _ _ =>
    subst he hid
    have hmin := hr.min_pos
    have hle := hr.bootstrapped_iff.mp hboot
    have hlen := congrArg List.length hr.validators_eq
    rw [hfresh ctx tx m rfl g hg, List.length_map, List.length_map, List.length_take,
      List.length_nil] at hlen
    omega
  | prefunded _ hget hopen _ _ =>
    rw [hg] at hget
    cases hget
    rw [hboot] at hopen
    cases hopen
  | joined _ hnone _ _ _ _ _ _ =>
    rw [hnone] at hsome
    cases hsome
  | started _ hnone _ _ _ _ _ _ _ _ =>
    rw [hnone] at hsome
    cases hsome
  | member _ _ hsame _ => rw [hsame, hg]

/-- The first state of a subnet: the first committee is that of its genesis validators. -/
structure OpenedWith (X : Library) (db : HeedDb) (id : SubnetId) (s : SubnetState) : Prop where
  committeeNumber_eq : s.committeeNumber = 1
  configurationNumber_eq : s.committee.configurationNumber = 0
  validators_eq : ∃ g, db.getSubnetGenesisInfo X id = some g ∧
    s.committee.validators = g.genesisValidators
  table_eq : db.getCommittee X id 1 = some s.committee

/-- A state that appears is the first one of a subnet, and a join makes it appear. -/
theorem opened_of_commit {s : SubnetState} (hstep : Commit X db e db')
    (hnone : db.getSubnetState X id = none) (hs : db'.getSubnetState X id = some s) :
    (∃ m, joinOf id e = some m) ∧ OpenedWith X db' id s := by
  cases genesisStep_of_commit laws hstep id with
  | other _ _ hsame =>
    rw [hnone, hs] at hsame
    cases hsame
  | created _ _ _ _ _ hsame =>
    rw [hnone, hs] at hsame
    cases hsame
  | prefunded _ _ _ _ hsame =>
    rw [hnone, hs] at hsame
    cases hsame
  | joined _ _ _ _ _ _ _ hsame =>
    rw [hs] at hsame
    cases hsame
  | @started m g txid height s' hjoin _ _ _ _ _ hsub hg hs' htable =>
    rw [hs] at hs'
    cases hs'
    obtain ⟨c, hc, heq⟩ := bind_eq_ok.mp hsub
    obtain ⟨th, -, hc⟩ := bind_eq_ok.mp hc
    obtain ⟨a, -, hc⟩ := bind_eq_ok.mp hc
    cases hc
    cases heq
    exact ⟨⟨m, hjoin⟩, rfl, rfl, ⟨_, hg, rfl⟩, htable⟩
  | member _ hsome _ _ =>
    rw [hnone] at hsome
    cases hsome

end Steps

/-- The bootstrap of a subnet in a run, read after each of its prefixes. -/
structure BootstrapsOnce (X : Library) (id : SubnetId) (l : List (Event × HeedDb)) : Prop where
  /-- A state exists exactly when the genesis info is marked. -/
  started_iff : ∀ l', l' <+: l → (((lastStore HeedDb.empty l').getSubnetState X id).isSome = true ↔
    ∃ g, (lastStore HeedDb.empty l').getSubnetGenesisInfo X id = some g ∧ g.bootstrapped = true)
  /-- It is marked when the joins reach the minimum, with keys that differ and are listed. -/
  reached_iff : ∀ l', l' <+: l → ∀ g,
    (lastStore HeedDb.empty l').getSubnetGenesisInfo X id = some g →
      (g.bootstrapped = true ↔ g.createSubnetMsg.minValidators ≤ (joinsTo id l').length) ∧
      (((joinsTo id l').take g.createSubnetMsg.minValidators).map (·.pubkey)).Nodup ∧
      ∀ m ∈ (joinsTo id l').take g.createSubnetMsg.minValidators,
        m.pubkey ∈ g.createSubnetMsg.whitelist
  opening : ∀ l' e db, l' ++ [(e, db)] <+: l →
    (lastStore HeedDb.empty l').getSubnetState X id = none → ∀ s, db.getSubnetState X id = some s →
      (∃ m, joinOf id e = some m) ∧ OpenedWith X db id s
  frozen : ∀ l₁ l₂, l₁ ++ l₂ <+: l → ∀ g,
    (lastStore HeedDb.empty l₁).getSubnetGenesisInfo X id = some g → g.bootstrapped = true →
      (lastStore HeedDb.empty (l₁ ++ l₂)).getSubnetGenesisInfo X id = some g

theorem genesisKept_empty : GenesisKept X HeedDb.empty id [] := by
  refine ⟨fun _ => ⟨rfl, rfl⟩, ?_⟩
  intro g hg
  cases hg

/-- The last step of a prefix of a run. -/
theorem step_of_initial {l l' : List (Event × HeedDb)} (hrun : Trail (Commit X) HeedDb.empty l)
    (hfresh : AllSteps (FreshCreate X) HeedDb.empty l) (hl : l' ++ [(e, db)] <+: l) :
    Commit X (lastStore HeedDb.empty l') e db ∧
      FreshCreate X (lastStore HeedDb.empty l') e db := by
  obtain ⟨rest, rfl⟩ := hl
  exact ⟨(trail_snoc.mp (trail_append.mp hrun).1).2,
    (allSteps_snoc.mp (allSteps_append.mp hfresh).1).2⟩

section Run

variable (laws : DisplayLaws X) (fields : FieldLaws X) {l : List (Event × HeedDb)}
  (hrun : Trail (Commit X) HeedDb.empty l) (hfresh : AllSteps (FreshCreate X) HeedDb.empty l)
include laws fields hrun hfresh

theorem genesisKept_of_initial (id : SubnetId) {l' : List (Event × HeedDb)} (hl : l' <+: l) :
    GenesisKept X (lastStore HeedDb.empty l') id (joinsTo id l') := by
  induction l' using List.reverseRec with
  | nil => exact genesisKept_empty
  | append_singleton l' a ih =>
    obtain ⟨e, db⟩ := a
    obtain ⟨hstep, hf⟩ := step_of_initial hrun hfresh hl
    rw [lastStore_snoc, joinsTo_snoc]
    exact (ih ((List.prefix_append _ _).trans hl)).commit laws fields hstep hf

theorem frozen_of_prefix {l₁ l₂ : List (Event × HeedDb)} (hl : l₁ ++ l₂ <+: l)
    {g : SubnetGenesisInfo} (hg : (lastStore HeedDb.empty l₁).getSubnetGenesisInfo X id = some g)
    (hboot : g.bootstrapped = true) :
    (lastStore HeedDb.empty (l₁ ++ l₂)).getSubnetGenesisInfo X id = some g := by
  induction l₂ using List.reverseRec with
  | nil => rwa [List.append_nil]
  | append_singleton l₂ a ih =>
    obtain ⟨e, db⟩ := a
    rw [← List.append_assoc] at hl ⊢
    have hshort := (List.prefix_append _ _).trans hl
    obtain ⟨hstep, hf⟩ := step_of_initial hrun hfresh hl
    rw [lastStore_snoc]
    exact (genesisKept_of_initial laws fields hrun hfresh id hshort).frozen laws hstep hf
      (ih hshort) hboot

/-- In every run whose creations are fresh, every subnet starts once, with its last missing
validator, and keeps its genesis info. -/
theorem bootstraps_once_of_fresh_creates (id : SubnetId) : BootstrapsOnce X id l where
  started_iff := by
    intro l' hl
    have hkept := genesisKept_of_initial laws fields hrun hfresh id hl
    cases hg : (lastStore HeedDb.empty l').getSubnetGenesisInfo X id with
    | none =>
      rw [(hkept.absent hg).1]
      simp
    | some g => simpa using (hkept.record g hg).started_iff
  reached_iff := by
    intro l' hl g hg
    have hr := (genesisKept_of_initial laws fields hrun hfresh id hl).record g hg
    refine ⟨hr.bootstrapped_iff, hr.validators_eq ▸ hr.nodup, ?_⟩
    intro m hm
    have hkey : m.pubkey ∈ g.genesisValidators.map (·.pubkey) := by
      rw [hr.validators_eq]
      exact List.mem_map_of_mem hm
    obtain ⟨v, hv, hvk⟩ := List.mem_map.mp hkey
    rw [← hvk]
    exact hr.whitelisted v hv
  opening := by
    intro l' e db hl hnone s hs
    exact opened_of_commit laws (step_of_initial hrun hfresh hl).1 hnone hs
  frozen := by
    intro l₁ l₂ hl g hg hboot
    exact frozen_of_prefix laws fields hrun hfresh hl hg hboot

end Run

open Solo

theorem fieldLaws_library (minStake : Amount) (signed : List (List UInt8 × Signature)) :
    FieldLaws (library minStake signed) := by
  refine fieldLaws_ideal _ ?_
  intro m hm
  rw [List.mem_singleton.mp hm]
  exact (by decide : 1 < 2 ^ 16)

/-- The subnet has no validators. -/
def NoValidators (X : Library) (id : SubnetId) (db : HeedDb) : Prop :=
  ∀ g ∈ db.getSubnetGenesisInfo X id, g.genesisValidators = []

instance (X : Library) (id : SubnetId) (db : HeedDb) : Decidable (NoValidators X id db) := by
  unfold NoValidators
  infer_instance

/-- The run that creates the subnet and the run that starts it after that. -/
theorem soloTrails : ∃ l₁ l₂,
    ChainTrail (library 10000 []) ⟨none⟩ HeedDb.empty [(context, createTx)] l₁ ∧
    l₁.map Prod.snd = (run (library 10000 []) [createTx]).commits ∧
    lastStore HeedDb.empty l₁ = (run (library 10000 []) [createTx]).store HeedDb.empty ∧
    ChainTrail (library 10000 []) ⟨none⟩ (lastStore HeedDb.empty l₁) [(context, joinTx 100000)] l₂ ∧
    l₂.map Prod.snd = (processBlockData (library 10000 []) ⟨none⟩ context [joinTx 100000]
      ((run (library 10000 []) [createTx]).store HeedDb.empty)).commits := by
  have hok : (run (library 10000 []) [createTx]).outcome.toOption = some () :=
    of_decide_eq_true (by decide +kernel)
  obtain ⟨l₁, hl₁, hc₁, hlast₁⟩ := exists_chainTrail ⟨none⟩ context [createTx] HeedDb.empty hok
  obtain ⟨l₂, hl₂, hc₂, -⟩ := exists_chainTrail (X := library 10000 []) ⟨none⟩ context
    [joinTx 100000] (lastStore HeedDb.empty l₁)
    (by rw [hlast₁]; exact of_decide_eq_true (by decide +kernel))
  rw [hlast₁] at hc₂
  exact ⟨l₁, l₂, hl₁, hc₁, hlast₁, hl₂, hc₂⟩

/-- The second of the two transactions creates nothing. -/
theorem not_created_by_join {db db' : HeedDb} {ctx : BlockContext} {m : IpcCreateSubnetMsg} :
    ¬ Commit (library 10000 []) db (.message ctx (joinTx 100000) (.createSubnet m)) db' := by
  intro hstep
  cases hstep with
  | createSubnet hparsed _ =>
    have hmsgs : witnessMessages (library 10000 []) (joinTx 100000) = [.joinSubnet joinMsg] :=
      of_decide_eq_true (by decide +kernel)
    have hm : IpcMessage.createSubnet m ∈ witnessMessages (library 10000 []) (joinTx 100000) :=
      hparsed
    rw [hmsgs] at hm
    cases List.mem_singleton.mp hm

theorem bootstraps_once_after_join : ∃ l, Trail (Commit (library 10000 [])) HeedDb.empty l ∧
    ((lastStore HeedDb.empty l).getSubnetState (library 10000 []) (.fromTxid20 subnet)).isSome ∧
    BootstrapsOnce (library 10000 []) (.fromTxid20 subnet) l := by
  have hlaws : DisplayLaws (library 10000 []) := displayLaws_ideal _
  obtain ⟨l₁, l₂, hl₁, hc₁, hlast₁, hl₂, hc₂⟩ := soloTrails
  have hrun : Trail (Commit (library 10000 [])) HeedDb.empty (l₁ ++ l₂) :=
    trail_append.mpr ⟨hl₁.trail, hl₂.trail⟩
  have hfresh₁ : AllSteps (FreshCreate (library 10000 [])) HeedDb.empty l₁ := by
    refine hl₁.allSteps (P := NoValidators (library 10000 []) (.fromTxid20 subnet)) ?_ ?_
    · rintro db e db' - hno hmem ctx tx m rfl g hg
      obtain ⟨rfl, rfl⟩ := Prod.mk.inj (List.mem_singleton.mp (hmem _ rfl))
      exact hno g hg
    · rw [hc₁]
      exact of_decide_eq_true (by decide +kernel)
  have hfresh₂ : AllSteps (FreshCreate (library 10000 [])) (lastStore HeedDb.empty l₁) l₂ := by
    refine hl₂.allSteps (P := fun _ => True) ?_ (fun _ _ => trivial)
    rintro db e db' hstep - hmem ctx tx m rfl
    obtain ⟨rfl, rfl⟩ := Prod.mk.inj (List.mem_singleton.mp (hmem _ rfl))
    exact absurd hstep not_created_by_join
  refine ⟨l₁ ++ l₂, hrun, ?_, bootstraps_once_of_fresh_creates hlaws (fieldLaws_library _ _) hrun
    (allSteps_append.mpr ⟨hfresh₁, hfresh₂⟩) _⟩
  rw [lastStore_append, lastStore, hc₂, hlast₁]
  decide +kernel

/-- The ids of distinct transactions that create subnets are distinct. -/
def CreatesApart (X : Library) (l : List (Event × HeedDb)) : Prop :=
  ∀ ctx tx m ctx' tx' m', (ctx, tx, IpcMessage.createSubnet m) ∈ messages l →
    (ctx', tx', IpcMessage.createSubnet m') ∈ messages l → tx ≠ tx' →
      Txid20.fromTxid (X.computeTxid tx) ≠ Txid20.fromTxid (X.computeTxid tx')

/-- A transaction that creates a subnet, joins it and creates it again. -/
def resetTx : Transaction :=
  spending (bytes32 10) 0
    (carrying ipcCreateSubnetTag ++ carrying ipcJoinSubnetTag ++ carrying ipcCreateSubnetTag)
    [⟨100000, backup.scriptPubkey⟩]

def resetSubnet : SubnetId := .fromTxid (polynomialHash (transactionNumbers resetTx))

def resetLibrary : Library :=
  ideal { creates := [createMsg 10000], joins := [{ joinMsg with subnetId := resetSubnet }] }

/-- After the transaction the subnet runs, and its genesis info says that it has not started. -/
theorem create_resets_genesis :
    ¬ ∀ X : Library, DisplayLaws X → FieldLaws X → ∀ l, Trail (Commit X) HeedDb.empty l →
      CreatesApart X l → ∀ id, BootstrapsOnce X id l := by
  intro hall
  have hlaws : DisplayLaws resetLibrary := displayLaws_ideal _
  have hfields : FieldLaws resetLibrary := by
    refine fieldLaws_ideal _ ?_
    intro m hm
    rw [List.mem_singleton.mp hm]
    decide
  have hok : (run resetLibrary [resetTx]).outcome.toOption = some () :=
    of_decide_eq_true (by decide +kernel)
  obtain ⟨l, hl, -, hlast⟩ := exists_chainTrail ⟨none⟩ context [resetTx] HeedDb.empty hok
  have hapart : CreatesApart resetLibrary l := by
    intro ctx tx m ctx' tx' m' hm hm' hne
    have htx := (Prod.mk.inj (List.mem_singleton.mp (hl.message_mem hm))).2
    have htx' := (Prod.mk.inj (List.mem_singleton.mp (hl.message_mem hm'))).2
    exact absurd (htx.trans htx'.symm) hne
  have hiff := (hall resetLibrary hlaws hfields l hl.trail hapart resetSubnet).started_iff l
    (List.prefix_refl l)
  have hstate : ((lastStore HeedDb.empty l).getSubnetState resetLibrary resetSubnet).isSome =
      true := by
    rw [hlast]
    decide +kernel
  have hmark : ((lastStore HeedDb.empty l).getSubnetGenesisInfo resetLibrary resetSubnet).map
      (·.bootstrapped) = some false := by
    rw [hlast]
    decide +kernel
  obtain ⟨g, hg, hboot⟩ := hiff.mp hstate
  rw [hg, Option.map_some, hboot] at hmark
  cases hmark

end Monitor
