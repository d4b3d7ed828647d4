import BitcoinIpc.StakeSteps

/-!
# Sound databases

What holds of the subnet tables in every state the monitor reaches: records
stand under the keys of their subnets, genesis validators and committees have
distinct keys with the power of their collateral, and every committee has the
threshold and the address of its validators. On a sound database a commit does
one of six things to these tables.
-/

namespace Monitor

open Faults Bytes Chain Messages Crates Multisig Db Grouping Commits OrderedTable

variable {X : Library}

/-- A committee of the subnet with regular validators and the address of these. -/
structure Good (X : Library) (t : Txid20) (c : SubnetCommittee) : Prop where
  regular : Regular c
  derived : Derived X t c

/-- Distinct keys, and the power each collateral gives. -/
structure RegularList (vs : List SubnetValidator) : Prop where
  nodup : (vs.map (·.pubkey)).Nodup
  power_eq : ∀ v ∈ vs, v.power = powerOf v.collateral

theorem RegularList.append {vs : List SubnetValidator} {v : SubnetValidator}
    (h : RegularList vs) (hnew : ∀ w ∈ vs, w.pubkey ≠ v.pubkey)
    (hp : v.power = powerOf v.collateral) : RegularList (vs ++ [v]) := by
  have hc : Regular ⟨0, 0, vs, Address.p2tr (FixedBytes.zeros 32)⟩ := ⟨h.nodup, h.power_eq⟩
  have hj : Regular ⟨0, 0, vs ++ [v], Address.p2tr (FixedBytes.zeros 32)⟩ := hc.join hnew hp rfl
  exact ⟨hj.nodup, hj.power_eq⟩

/-- The record of a subnet under its key. -/
structure SoundState (X : Library) (key : Key) (s : SubnetState) : Prop where
  keyed : ∃ t, key = subnetStateKey X (.fromTxid20 t) ∧ s.id = .fromTxid20 t ∧
    Good X t s.committee ∧ ∀ w, s.waitingCommittee = some w → Good X t w

/-- A recorded request under its key. -/
structure SoundRequest (X : Library) (key : Key) (c : StakeChangeRequest) : Prop where
  keyed : ∃ t, key = stakeChangeKey X (.fromTxid20 t) c.configurationNumber ∧
    Good X t c.committeeAfterChange

structure Sound (X : Library) (db : HeedDb) : Prop where
  genesis : ∀ id g, db.getSubnetGenesisInfo X id = some g →
    g.subnetId = id ∧ (∃ t, id = .fromTxid20 t) ∧ RegularList g.genesisValidators
  states : ∀ e ∈ db.subnetDb.entries, SoundState X e.1 e.2
  requests : ∀ e ∈ db.stakeChangesDb.entries, SoundRequest X e.1 e.2

section Lookups

variable (laws : DisplayLaws X) {db : HeedDb}
include laws

theorem Sound.state (h : Sound X db) {id : SubnetId} {s : SubnetState}
    (hs : db.getSubnetState X id = some s) :
    ∃ t, id = .fromTxid20 t ∧ s.id = .fromTxid20 t ∧ Good X t s.committee ∧
      ∀ w, s.waitingCommittee = some w → Good X t w := by
  obtain ⟨t, hkey, hid, hc, hw⟩ :=
    (h.states _ ((Table.get_eq_some_iff db.subnetDb).mp hs)).keyed
  exact ⟨t, subnetKey_injective laws _ hkey, hid, hc, hw⟩

theorem Sound.latest (h : Sound X db) {t : Txid20} {s : SubnetState}
    (hs : db.getSubnetState X (.fromTxid20 t) = some s) : Good X t s.latestCommittee := by
  obtain ⟨u, htu, -, hc, hw⟩ := h.state laws hs
  cases SubnetId.fromTxid20_injective htu
  cases hwait : s.waitingCommittee with
  | none => simpa [latestCommittee_eq, hwait] using hc
  | some w => simpa [latestCommittee_eq, hwait] using hw w hwait

theorem Sound.request (h : Sound X db) {t : Txid20} {k : Nat} {c : StakeChangeRequest}
    (hc : db.getStakeChange X (.fromTxid20 t) k = some c) :
    c.configurationNumber = k ∧ Good X t c.committeeAfterChange := by
  obtain ⟨u, hkey, hgood⟩ :=
    (h.requests _ ((Table.get_eq_some_iff db.stakeChangesDb).mp hc)).keyed
  obtain ⟨htu, hk⟩ := numberedKey_inj laws hkey
  cases SubnetId.fromTxid20_injective htu
  exact ⟨hk.symm, hgood⟩

/-- A request found by the scan of a subnet is the one stored under its number. -/
theorem Sound.mem_getAllStakeChanges (h : Sound X db) {t : Txid20} {c : StakeChangeRequest} :
    c ∈ db.getAllStakeChanges X (.fromTxid20 t) ↔
      db.getStakeChange X (.fromTxid20 t) c.configurationNumber = some c := by
  unfold HeedDb.getAllStakeChanges
  rw [Table.mem_scan_iff]
  constructor
  · rintro ⟨k, hpre, hk⟩
    obtain ⟨u, hkey, -⟩ := (h.requests _ ((Table.get_eq_some_iff db.stakeChangesDb).mp hk)).keyed
    simp only at hkey
    rw [hkey, stakeChangesPrefix, stakeChangeKey, isPrefixOf_numberedKey laws,
      decide_eq_true_iff] at hpre
    rw [HeedDb.getStakeChange, hpre, ← hkey]
    exact hk
  · intro hc
    refine ⟨_, ?_, hc⟩
    rw [stakeChangesPrefix, stakeChangeKey, isPrefixOf_numberedKey laws]
    exact decide_eq_true rfl

end Lookups

/-- The tables of subnet states, genesis infos, requests and committees. -/
def SameSubnets (db db' : HeedDb) : Prop :=
  db'.subnetDb = db.subnetDb ∧ db'.subnetGenesisDb = db.subnetGenesisDb ∧
    db'.stakeChangesDb = db.stakeChangesDb ∧ db'.committeeDb = db.committeeDb

inductive SubnetStep (X : Library) (db : HeedDb) : Event → HeedDb → Prop
  | frame {e db'} : SameSubnets db db' → SubnetStep X db e db'
  | genesis {e t g} : g.subnetId = .fromTxid20 t → RegularList g.genesisValidators →
      SubnetStep X db e (db.saveSubnetGenesisInfo X (.fromTxid20 t) g)
  | start {e t g s} : db.getSubnetState X (.fromTxid20 t) = none →
      g.subnetId = .fromTxid20 t → RegularList g.genesisValidators →
      g.toSubnet X = (.ok s : Outcome IpcLibError SubnetState) →
      SubnetStep X db e (((db.saveSubnetState X (.fromTxid20 t) s).saveSubnetGenesisInfo X
        (.fromTxid20 t) g).saveCommittee X (.fromTxid20 t) s.committeeNumber s.committee)
  | stake {e t s next requests} : db.getSubnetState X (.fromTxid20 t) = some s →
      StakeStep X t s.latestCommittee next
        (db.getNextStakeChangeConfigurationNumber X (.fromTxid20 t)) requests →
      SubnetStep X db e (recordStake X db (.fromTxid20 t) s next requests)
  | kill {e t s killed marked db'} : db.getSubnetState X (.fromTxid20 t) = some s →
      db'.subnetDb = db.subnetDb.put (subnetStateKey X (.fromTxid20 t))
        { s with killed := killed, markedForKillCheckpointNumber := marked } →
      db'.subnetGenesisDb = db.subnetGenesisDb → db'.stakeChangesDb = db.stakeChangesDb →
      db'.committeeDb = db.committeeDb → SubnetStep X db e db'
  | checkpoint {ctx tx t m s change blockHash txid} : m.subnetId = .fromTxid20 t →
      db.getSubnetState X (.fromTxid20 t) = some s → m.rotation X db s = .ok change →
      SubnetStep X db (.message ctx tx (.checkpointSubnet m))
        (m.checkpointedDb X db s change ctx.blockHeight blockHash txid)

/-- None of the requests is a withdrawal. -/
def PaysIn (requests : List StakeChangeRequest) : Prop :=
  ∀ r ∈ requests, ∀ k amount, requestOf r ≠ (k, .withdraw amount)

section Steps

variable (laws : DisplayLaws X) {db db' : HeedDb} {e : Event}
include laws

/-- A join after the bootstrap records the join and the deposit of a new validator. -/
theorem stakeStep_join {m : IpcJoinSubnetMsg} {h : Nat} {hash : BlockHash} {txid : Txid}
    {saved : HeedDb × Option SubnetState} {s : SubnetState} (hs : Sound X db)
    (hst : db.getSubnetState X m.subnetId = some s)
    (hsave : m.saveToDb X db h hash txid = .ok saved) :
    ∃ t next requests, m.subnetId = .fromTxid20 t ∧
      saved.1 = recordStake X db (.fromTxid20 t) s next requests ∧
      StakeStep X t s.latestCommittee next
        (db.getNextStakeChangeConfigurationNumber X (.fromTxid20 t)) requests ∧
      PaysIn requests := by
  obtain ⟨next, hid, -, hjoin, rfl⟩ := IpcJoinSubnetMsg.saveToDb_post hst hsave
  obtain ⟨t, ht, hsid, -, -⟩ := hs.state laws hst
  rw [hsid] at hjoin
  rw [ht] at hst ⊢
  refine ⟨t, next, _, rfl, rfl,
    joinStep (hs.latest laws hst).regular rfl hjoin rfl ?_ ?_ rfl, ?_⟩
  · intro r hr
    simp only [IpcJoinSubnetMsg.requests, List.mem_cons, List.not_mem_nil, or_false] at hr
    rcases hr with rfl | rfl <;> rfl
  · intro r hr
    simp only [IpcJoinSubnetMsg.requests, List.mem_cons, List.not_mem_nil, or_false] at hr
    rcases hr with rfl | rfl <;> rfl
  · intro r hr k amount heq
    simp only [IpcJoinSubnetMsg.requests, List.mem_cons, List.not_mem_nil, or_false] at hr
    rcases hr with rfl | rfl <;> cases congrArg Prod.snd heq

theorem stakeStep_deposit {m : IpcStakeCollateralMsg} {h : Nat} {hash : BlockHash} {txid : Txid}
    (hs : Sound X db) (hsave : m.saveToDb X db h hash txid = .ok db') :
    ∃ t s next requests, m.subnetId = .fromTxid20 t ∧
      db.getSubnetState X (.fromTxid20 t) = some s ∧
      db' = recordStake X db (.fromTxid20 t) s next requests ∧
      StakeStep X t s.latestCommittee next
        (db.getNextStakeChangeConfigurationNumber X (.fromTxid20 t)) requests ∧
      PaysIn requests := by
  obtain ⟨s, v, next, hst, hv, hmod, rfl⟩ := IpcStakeCollateralMsg.saveToDb_eq_ok hsave
  obtain ⟨t, ht, -⟩ := hs.state laws hst
  have hpk := (SubnetCommittee.findValidator_eq_some hv).2
  rw [ht] at hst hmod ⊢
  refine ⟨t, s, next, _, rfl, hst, rfl,
    depositStep (hs.latest laws hst).regular (hpk ▸ hv) hmod rfl rfl rfl rfl, ?_⟩
  intro r hr k amount heq
  rw [List.mem_singleton] at hr
  subst hr
  cases congrArg Prod.snd heq

theorem stakeStep_withdraw {m : IpcUnstakeCollateralMsg} {h : Nat} {hash : BlockHash}
    {txid : Txid} (hs : Sound X db) (hsave : m.saveToDb X db h hash txid = .ok db') :
    ∃ t s v next r, m.subnetId = .fromTxid20 t ∧
      db.getSubnetState X (.fromTxid20 t) = some s ∧ m.pubkey = some v.pubkey ∧
      s.latestCommittee.findValidator v.pubkey = some v ∧ m.amount ≤ v.collateral ∧
      requestOf r = (v.pubkey, .withdraw m.amount) ∧
      db' = recordStake X db (.fromTxid20 t) s next [r] ∧
      StakeStep X t s.latestCommittee next
        (db.getNextStakeChangeConfigurationNumber X (.fromTxid20 t)) [r] := by
  obtain ⟨s, v, next, hst, hpk, hv, hle, hafter, rfl⟩ :=
    IpcUnstakeCollateralMsg.saveToDb_eq_ok hsave
  obtain ⟨t, ht, -⟩ := hs.state laws hst
  rw [ht] at hst hafter ⊢
  exact ⟨t, s, v, next, _, rfl, hst, hpk, hv, hle, rfl, rfl,
    withdrawStep (hs.latest laws hst).regular hv hle hafter rfl rfl rfl rfl⟩

theorem subnetStep_join {m : IpcJoinSubnetMsg} {h : Nat} {hash : BlockHash} {txid : Txid}
    {saved : HeedDb × Option SubnetState} (hs : Sound X db)
    (hsave : m.saveToDb X db h hash txid = .ok saved) : SubnetStep X db e saved.1 := by
  cases hst : db.getSubnetState X m.subnetId with
  | none =>
    obtain ⟨g, hg, hnew, -, hcase⟩ := IpcJoinSubnetMsg.saveToDb_pre hst hsave
    obtain ⟨hgid, ⟨t, ht⟩, hreg⟩ := hs.genesis _ _ hg
    have hreg' : RegularList (m.joinedGenesis X g txid).genesisValidators :=
      hreg.append hnew rfl
    rw [ht] at hst hcase hgid
    rcases hcase with ⟨-, rfl⟩ | ⟨s, -, hsub, rfl⟩
    · exact .genesis (by simpa [IpcJoinSubnetMsg.joinedGenesis] using hgid) hreg'
    · exact .start hst (by simpa [IpcJoinSubnetMsg.startedGenesis,
        IpcJoinSubnetMsg.joinedGenesis] using hgid) hreg' hsub
  | some s =>
    obtain ⟨t, next, requests, ht, heq, hstep, -⟩ := stakeStep_join laws hs hst hsave
    rw [ht] at hst
    rw [heq]
    exact .stake hst hstep

/-- On a sound database every commit is one of the six steps. -/
theorem subnetStep_of_commit (hs : Sound X db) (h : Commit X db e db') :
    SubnetStep X db e db' := by
  cases h with
  | createSubnet _ _ =>
    refine .genesis rfl ⟨List.nodup_nil, ?_⟩
    intro v hv
    cases hv
  | joinSubnet _ _ hsave => exact subnetStep_join laws hs hsave
  | prefundSubnet _ _ hsave =>
    obtain ⟨g, hg, -, rfl⟩ := IpcPrefundSubnetMsg.saveToDb_eq_ok hsave
    obtain ⟨hgid, ⟨t, ht⟩, hreg⟩ := hs.genesis _ _ hg
    rw [ht] at hgid ⊢
    exact .genesis hgid hreg
  | fundSubnet _ _ hsave =>
    obtain ⟨s, -, rfl⟩ := IpcFundSubnetMsg.saveToDb_eq_ok hsave
    exact .frame ⟨rfl, rfl, rfl, rfl⟩
  | checkpointSubnet _ _ hsave =>
    obtain ⟨s, change, hst, hrot, rfl⟩ := IpcCheckpointSubnetMsg.saveToDb_eq_ok hsave
    obtain ⟨t, ht, -⟩ := hs.state laws hst
    exact .checkpoint ht (ht ▸ hst) hrot
  | batchTransfer _ _ hsave =>
    obtain ⟨_, _, _, heq⟩ := IpcBatchTransferMsg.sameButBatch_saveToDb hsave
    exact .frame (by rw [heq]; exact ⟨rfl, rfl, rfl, rfl⟩)
  | stakeCollateral _ _ hsave =>
    obtain ⟨t, s, next, requests, -, hst, rfl, hstep, -⟩ := stakeStep_deposit laws hs hsave
    exact .stake hst hstep
  | unstakeCollateral _ _ hsave =>
    obtain ⟨t, s, v, next, r, -, hst, -, -, -, -, rfl, hstep⟩ := stakeStep_withdraw laws hs hsave
    exact .stake hst hstep
  | killSubnet _ _ hsave =>
    obtain ⟨s, request, hst, rfl | ⟨marked, -, rfl⟩⟩ := IpcKillSubnetMsg.saveToDb_eq_ok hsave
    · exact .frame ⟨rfl, rfl, rfl, rfl⟩
    · obtain ⟨t, ht, -⟩ := hs.state laws hst
      rw [ht] at hst ⊢
      exact .kill hst rfl rfl rfl rfl
  | transaction => exact .frame ⟨rfl, rfl, rfl, rfl⟩
  | rewards hsame =>
    obtain ⟨_, _, rfl⟩ := hsame
    exact .frame ⟨rfl, rfl, rfl, rfl⟩
  | block => exact .frame ⟨rfl, rfl, rfl, rfl⟩

end Steps

section Kept

variable {db db' : HeedDb} {e : Event} {t : Txid20}

theorem mem_foldl_addStakeChange {id : SubnetId} {l : List StakeChangeRequest}
    {x : Key × StakeChangeRequest}
    (h : x ∈ (l.foldl (fun d c => d.addStakeChange X id c) db).stakeChangesDb.entries) :
    x ∈ db.stakeChangesDb.entries ∨
      ∃ c ∈ l, x = (stakeChangeKey X id c.configurationNumber, c) := by
  induction l generalizing db with
  | nil => exact Or.inl h
  | cons a rest ih =>
    rcases ih h with hx | ⟨c, hc, hx⟩
    · rcases mem_insertEntry hx with hx | hx
      · exact Or.inr ⟨a, List.mem_cons_self, hx⟩
      · exact Or.inl hx
    · exact Or.inr ⟨c, List.mem_cons_of_mem a hc, hx⟩

/-- Requests are written to their own table only. -/
theorem foldl_addStakeChange_frame (id : SubnetId) (l : List StakeChangeRequest) (db : HeedDb) :
    ∃ table, l.foldl (fun d c => d.addStakeChange X id c) db =
      { db with stakeChangesDb := table } := by
  induction l generalizing db with
  | nil => exact ⟨_, rfl⟩
  | cons a rest ih =>
    obtain ⟨table, h⟩ := ih (db.addStakeChange X id a)
    exact ⟨table, h⟩

theorem sound_empty : Sound X HeedDb.empty := by
  refine ⟨?_, ?_, ?_⟩
  · intro id g h
    cases h
  · intro x hx
    cases hx
  · intro x hx
    cases hx

theorem Sound.of_tables (h : Sound X db) (hs : db'.subnetDb = db.subnetDb)
    (hg : db'.subnetGenesisDb = db.subnetGenesisDb)
    (hr : db'.stakeChangesDb = db.stakeChangesDb) : Sound X db' := by
  refine ⟨?_, ?_, ?_⟩
  · intro id g hget
    unfold HeedDb.getSubnetGenesisInfo at hget
    rw [hg] at hget
    exact h.genesis id g hget
  · rw [hs]
    exact h.states
  · rw [hr]
    exact h.requests

theorem Sound.stateSaved {s : SubnetState} (h : Sound X db) (hid : s.id = .fromTxid20 t)
    (hc : Good X t s.committee) (hw : ∀ w, s.waitingCommittee = some w → Good X t w) :
    Sound X (db.saveSubnetState X (.fromTxid20 t) s) := by
  refine ⟨h.genesis, ?_, h.requests⟩
  intro x hx
  rcases mem_insertEntry hx with rfl | hx
  · exact ⟨t, rfl, hid, hc, hw⟩
  · exact h.states x hx

theorem Sound.requestsAdded {l : List StakeChangeRequest} (h : Sound X db)
    (hl : ∀ c ∈ l, Good X t c.committeeAfterChange) :
    Sound X (l.foldl (fun d c => d.addStakeChange X (.fromTxid20 t) c) db) := by
  obtain ⟨table, hframe⟩ := foldl_addStakeChange_frame (X := X) (.fromTxid20 t) l db
  refine ⟨?_, ?_, ?_⟩
  · rw [hframe]
    exact h.genesis
  · rw [hframe]
    exact h.states
  · intro x hx
    rcases mem_foldl_addStakeChange hx with hx | ⟨c, hc, rfl⟩
    · exact h.requests x hx
    · exact ⟨t, rfl, hl c hc⟩

theorem good_toSubnet {g : SubnetGenesisInfo} {s : SubnetState}
    (hid : g.subnetId = .fromTxid20 t) (hreg : RegularList g.genesisValidators)
    (h : g.toSubnet X = (.ok s : Outcome IpcLibError SubnetState)) :
    s.id = .fromTxid20 t ∧ Good X t s.committee ∧ s.waitingCommittee = none ∧
      s.committeeNumber = 1 ∧ s.committee.configurationNumber = 0 := by
  obtain ⟨c, hc, h⟩ := bind_eq_ok.mp h
  cases h
  rw [hid] at hc
  obtain ⟨hv, hn, hd⟩ := toCommittee_eq_ok hc
  refine ⟨hid, ⟨⟨?_, ?_⟩, hd⟩, rfl, rfl, hn⟩
  · rw [hv]
    exact hreg.nodup
  · rw [hv]
    exact hreg.power_eq

/-- The committees after a rotation are among the ones before it and the new one. -/
theorem rotated_committees {s : SubnetState} {change : Option StakeChangeRequest}
    {P : SubnetCommittee → Prop} (hc : P s.committee)
    (hw : ∀ w, s.waitingCommittee = some w → P w)
    (hnew : ∀ c, change = some c → P c.committeeAfterChange) :
    (IpcCheckpointSubnetMsg.rotated s change).id = s.id ∧
      P (IpcCheckpointSubnetMsg.rotated s change).committee ∧
      ∀ w, (IpcCheckpointSubnetMsg.rotated s change).waitingCommittee = some w → P w := by
  cases change with
  | none => exact ⟨rfl, hc, hw⟩
  | some c =>
    simp only [IpcCheckpointSubnetMsg.rotated, SubnetState.rotateToCommittee]
    split_ifs
    · exact ⟨rfl, hc, hw⟩
    · refine ⟨rfl, hnew c rfl, ?_⟩
      intro w h
      cases h
    · exact ⟨rfl, hnew c rfl, hw⟩

end Kept

section States

variable {db db' : HeedDb} {t u : Txid20}

theorem getSubnetState_of_put (laws : DisplayLaws X) {s : SubnetState}
    (h : db'.subnetDb = db.subnetDb.put (subnetStateKey X (.fromTxid20 u)) s) :
    db'.getSubnetState X (.fromTxid20 t) =
      if t = u then some s else db.getSubnetState X (.fromTxid20 t) := by
  have hsave := HeedDb.getSubnetState_save db laws (.fromTxid20 u) (.fromTxid20 t) s
  rw [HeedDb.getSubnetState, h]
  simp only [SubnetId.fromTxid20_injective.eq_iff] at hsave
  exact hsave

theorem subnetDb_recordStake (db : HeedDb) (id : SubnetId) (s : SubnetState)
    (next : SubnetCommittee) (requests : List StakeChangeRequest) :
    (recordStake X db id s next requests).subnetDb =
      db.subnetDb.put (subnetStateKey X id) { s with waitingCommittee := some next } := by
  obtain ⟨table, hframe⟩ := foldl_addStakeChange_frame (X := X) id requests
    (db.saveSubnetState X id { s with waitingCommittee := some next })
  rw [recordStake, hframe]
  rfl

theorem subnetGenesisDb_recordStake (db : HeedDb) (id : SubnetId) (s : SubnetState)
    (next : SubnetCommittee) (requests : List StakeChangeRequest) :
    (recordStake X db id s next requests).subnetGenesisDb = db.subnetGenesisDb := by
  obtain ⟨table, hframe⟩ := foldl_addStakeChange_frame (X := X) id requests
    (db.saveSubnetState X id { s with waitingCommittee := some next })
  rw [recordStake, hframe]
  rfl

theorem subnetDb_checkpointedDb {m : IpcCheckpointSubnetMsg} {s : SubnetState}
    {change : Option StakeChangeRequest} {height : Nat} {hash : BlockHash} {txid : Txid} :
    (m.checkpointedDb X db s change height hash txid).subnetDb =
      db.subnetDb.put (subnetStateKey X m.subnetId) (m.checkpointedState s change height) := by
  unfold IpcCheckpointSubnetMsg.checkpointedDb
  cases change with
  | none => rfl
  | some c =>
    obtain ⟨table, hframe⟩ := foldl_addStakeChange_frame (X := X) m.subnetId _ _
    dsimp only
    rw [HeedDb.confirmStakeChanges, hframe]
    rfl

theorem subnetGenesisDb_checkpointedDb {m : IpcCheckpointSubnetMsg} {s : SubnetState}
    {change : Option StakeChangeRequest} {height : Nat} {hash : BlockHash} {txid : Txid} :
    (m.checkpointedDb X db s change height hash txid).subnetGenesisDb = db.subnetGenesisDb := by
  unfold IpcCheckpointSubnetMsg.checkpointedDb
  cases change with
  | none => rfl
  | some c =>
    obtain ⟨table, hframe⟩ := foldl_addStakeChange_frame (X := X) m.subnetId _ _
    dsimp only
    rw [HeedDb.confirmStakeChanges, hframe]
    rfl

end States

section Reached

variable (laws : DisplayLaws X) {db db' : HeedDb} {e : Event}
include laws

theorem Sound.genesisSaved {t : Txid20} {g : SubnetGenesisInfo} (h : Sound X db)
    (hid : g.subnetId = .fromTxid20 t) (hreg : RegularList g.genesisValidators) :
    Sound X (db.saveSubnetGenesisInfo X (.fromTxid20 t) g) := by
  refine ⟨?_, h.states, h.requests⟩
  intro id g' hget
  rw [HeedDb.getSubnetGenesisInfo_save db laws] at hget
  split_ifs at hget with hk
  · cases hget
    subst hk
    exact ⟨hid, ⟨t, rfl⟩, hreg⟩
  · exact h.genesis id g' hget

theorem Sound.confirmed {t : Txid20} (h : Sound X db) (n height : Nat) (blockHash : BlockHash) :
    Sound X (db.confirmStakeChanges X (.fromTxid20 t) n height blockHash) := by
  apply h.requestsAdded
  intro c hc
  obtain ⟨c₀, hc₀, rfl⟩ := List.mem_map.mp hc
  have hmem := (h.mem_getAllStakeChanges laws).mp (List.mem_of_mem_filter hc₀)
  exact (h.request laws hmem).2

theorem Sound.stateCheckpointed {t : Txid20} {m : IpcCheckpointSubnetMsg} {s : SubnetState}
    {change : Option StakeChangeRequest} (height : Nat) (h : Sound X db)
    (hm : m.subnetId = .fromTxid20 t) (hs : db.getSubnetState X (.fromTxid20 t) = some s)
    (hrot : m.rotation X db s = .ok change) :
    Sound X (db.saveSubnetState X (.fromTxid20 t) (m.checkpointedState s change height)) := by
  obtain ⟨u, htu, hid, hc, hw⟩ := h.state laws hs
  cases SubnetId.fromTxid20_injective htu
  have hnew : ∀ c, change = some c → Good X t c.committeeAfterChange := by
    rintro c rfl
    have hget := (IpcCheckpointSubnetMsg.rotation_eq_some hrot).2
    rw [hm] at hget
    exact (h.request laws hget).2
  obtain ⟨hid', hc', hw'⟩ := rotated_committees hc hw hnew
  rw [IpcCheckpointSubnetMsg.checkpointedState_eq]
  exact h.stateSaved (hid'.trans hid) hc' hw'

theorem Sound.checkpointed {t : Txid20} {m : IpcCheckpointSubnetMsg} {s : SubnetState}
    {change : Option StakeChangeRequest} {height : Nat} {blockHash : BlockHash} {txid : Txid}
    (h : Sound X db) (hm : m.subnetId = .fromTxid20 t)
    (hs : db.getSubnetState X (.fromTxid20 t) = some s) (hrot : m.rotation X db s = .ok change) :
    Sound X (m.checkpointedDb X db s change height blockHash txid) := by
  have hstate := h.stateCheckpointed laws height hm hs hrot
  unfold IpcCheckpointSubnetMsg.checkpointedDb
  rw [hm]
  cases change with
  | none => exact hstate.of_tables rfl rfl rfl
  | some c =>
    apply Sound.confirmed laws
    exact hstate.of_tables rfl rfl rfl

theorem Sound.subnetStep (h : Sound X db) (hstep : SubnetStep X db e db') : Sound X db' := by
  cases hstep with
  | frame hsame => exact h.of_tables hsame.1 hsame.2.1 hsame.2.2.1
  | genesis hid hreg => exact h.genesisSaved laws hid hreg
  | start _ hid hreg hsub =>
    obtain ⟨hsid, hc, hw, -⟩ := good_toSubnet hid hreg hsub
    have hs := h.stateSaved hsid hc (fun w hw' => by rw [hw] at hw'; cases hw')
    exact (hs.genesisSaved laws hid hreg).of_tables rfl rfl rfl
  | stake hs hstake =>
    obtain ⟨u, htu, hid, hc, -⟩ := h.state laws hs
    cases SubnetId.fromTxid20_injective htu
    have hnext : Good X _ _ := ⟨hstake.regular, hstake.derived⟩
    refine Sound.requestsAdded (h.stateSaved hid hc ?_) ?_
    · intro w hw
      cases hw
      exact hnext
    · intro c hc
      rw [hstake.after_eq c hc]
      exact hnext
  | @kill _ t s killed marked _ hs hdb hg hr _ =>
    obtain ⟨u, htu, hid, hc, hw⟩ := h.state laws hs
    cases SubnetId.fromTxid20_injective htu
    have hsaved := h.stateSaved
      (s := { s with killed := killed, markedForKillCheckpointNumber := marked }) hid hc hw
    exact hsaved.of_tables hdb hg hr
  | checkpoint hm hs hrot => exact h.checkpointed laws hm hs hrot

/-- Every commit keeps a database sound. -/
theorem Sound.commit (h : Sound X db) (hstep : Commit X db e db') : Sound X db' :=
  h.subnetStep laws (subnetStep_of_commit laws h hstep)

theorem sound_of_trail {l : List (Event × HeedDb)} (h : Sound X db)
    (hl : Trail (Commit X) db l) : Sound X (lastStore db l) := by
  induction l generalizing db with
  | nil => exact h
  | cons a rest ih =>
    obtain ⟨e, d⟩ := a
    rw [lastStore_cons]
    exact ih (h.commit laws hl.1) hl.2

theorem sound_of_reachable (h : Reachable X db) : Sound X db := by
  obtain ⟨l, hl, rfl⟩ := h
  exact sound_of_trail laws sound_empty hl

end Reached

end Monitor
