import BitcoinIpc.Synchronisation
import BitcoinIpc.Lib.Emissions

/-!
# The watch-only wallet

The provider sees only the outputs of addresses that are registered with the
watch-only wallet. The monitor queues the address of a whitelist when a subnet is
created and the address of a committee when it becomes active, and hands the
queue over to the wallet after it has processed the blocks. The queue is in
memory alone. Whatever the node and the wallet answer, the address of every
whitelist and of every active committee is registered or in the queue, unless the
wallet has refused its descriptor in an answer that the monitor took for a success,
as long as the monitor is stopped only between blocks, with everything in the queue
registered.
-/

namespace Monitor

open Faults Bytes Chain Messages Crates Multisig Db Commits

/-- An address with its label and the time from which the wallet looks for its outputs. -/
structure ImportAddress where
  address : Address
  label : List Char
  timestamp : Nat
deriving DecidableEq

section Effects

variable (X : Library) (blockTime : BlockHash → Nat)

def addressLabel (id : SubnetId) (committeeNumber : Nat) : List Char :=
  subnetDisplay X id ++ '-' :: Text.decimal committeeNumber

def whitelistAddressLabel (g : SubnetGenesisInfo) :
    Outcome MonitorError (Address × List Char) := do
  let a ← g.multisigAddress X
  return (a, addressLabel X g.subnetId 0)

def committeeAddressLabel (s : SubnetState) : Outcome MonitorError (Address × List Char) := do
  let a ← s.committee.multisigAddress.requireNetwork
  return (a, addressLabel X s.id s.committeeNumber)

section Handlers

variable (ctx : BlockContext) (tx : Transaction) (db : HeedDb)

def importOf (a : Address × List Char) : ImportAddress := ⟨a.1, a.2, blockTime ctx.blockHash⟩

def createEffect (m : IpcCreateSubnetMsg) : Outcome MonitorError (Option ImportAddress) := do
  orMsgInvalid m.validate
  let saved := m.saveToDb X db ctx.blockHeight (X.computeTxid tx)
  return some (importOf blockTime ctx (← whitelistAddressLabel X saved.2))

/-- A join queues an address when it bootstraps its subnet. -/
def joinEffect (m : IpcJoinSubnetMsg) : Outcome MonitorError (Option ImportAddress) := do
  let m ← checkJoin X tx db m
  let saved ← orProcessing (m.saveToDb X db ctx.blockHeight ctx.blockHash (X.computeTxid tx))
  match saved.2 with
  | some s => return some (importOf blockTime ctx (← committeeAddressLabel X s))
  | none => return none

/-- A checkpoint queues an address when it changes the committee. -/
def checkpointEffect (m : IpcCheckpointSubnetMsg) :
    Outcome MonitorError (Option ImportAddress) := do
  orMsgInvalid m.validate
  let saved ← orProcessing (m.saveToDb X db ctx.blockHeight ctx.blockHash (X.computeTxid tx))
  if saved.2.signedCommitteeNumber ≠ saved.2.nextCommitteeNumber then
    let s ← okOr ((saved.1.saveTransaction X tx).getSubnetState X m.subnetId) (.ipcMsgInvalid
      (.invalidMsg "Could not fetch subnet id after a checkpoint"))
    return some (importOf blockTime ctx (← committeeAddressLabel X s))
  else return none

def sideEffect : IpcMessage → Outcome MonitorError (Option ImportAddress)
  | .createSubnet m => createEffect X blockTime ctx tx db m
  | .joinSubnet m => joinEffect X blockTime ctx tx db m
  | .checkpointSubnet m => checkpointEffect X blockTime ctx tx db m
  | _ => return none

/-- What a message puts into the queue while it is processed. -/
def pushed (m : IpcMessage) : List ImportAddress :=
  match sideEffect X blockTime ctx tx db m with
  | .ok o => o.toList
  | .error _ => []

end Handlers

variable (cfg : Config) (ctx : BlockContext)

def witnessEffects (tx : Transaction) (db : HeedDb) : List ImportAddress :=
  Proc.emitted (handleMsg X cfg ctx tx) (fun m db => pushed X blockTime ctx tx db m)
    (witnessMessages X tx) db

def outputEffects (tx : Transaction) (db : HeedDb) : List ImportAddress :=
  match (firstParsed (outputParsers X ctx db tx) : Outcome MonitorError _) with
  | .ok (some m) => pushed X blockTime ctx tx db m
  | _ => []

def transactionEffects (tx : Transaction) (db : HeedDb) : List ImportAddress :=
  let witnesses := Proc.each (handleMsg X cfg ctx tx) (witnessMessages X tx) db
  witnessEffects X blockTime cfg ctx tx db ++
    match witnesses.outcome with
    | .ok () => outputEffects X blockTime ctx tx (witnesses.store db)
    | .error _ => []

def blockEffects (txs : List Transaction) (db : HeedDb) : List ImportAddress :=
  Proc.emitted (processTransaction X cfg ctx) (transactionEffects X blockTime cfg ctx) txs db

end Effects

section Covered

variable {X : Library} {blockTime : BlockHash → Nat} {cfg : Config} {ctx : BlockContext}
  {tx : Transaction} {db db' : HeedDb} {queue : List ImportAddress} {wallet : Set Address}

/-- An address is in the queue or registered with the wallet. -/
def Watched (queue : List ImportAddress) (wallet : Set Address) (a : Address) : Prop :=
  a ∈ queue.map (·.address) ∨ a ∈ wallet

/-- The active committee and the whitelist of every subnet are watched. -/
structure Covered (X : Library) (db : HeedDb) (queue : List ImportAddress) (wallet : Set Address) :
    Prop where
  committees : ∀ id s, db.getSubnetState X id = some s →
    Watched queue wallet s.committee.multisigAddress
  whitelists : ∀ id g, db.getSubnetGenesisInfo X id = some g →
    ∀ a, (g.multisigAddress X : Outcome MonitorError Address) = .ok a → Watched queue wallet a

theorem Watched.mono {queue' : List ImportAddress} {wallet' : Set Address} {a : Address}
    (h : Watched queue wallet a) (hqueue : ∀ e ∈ queue, Watched queue' wallet' e.address)
    (hwallet : wallet ⊆ wallet') : Watched queue' wallet' a := by
  rcases h with h | h
  · obtain ⟨e, he, rfl⟩ := List.mem_map.mp h
    exact hqueue e he
  · exact Or.inr (hwallet h)

theorem Covered.mono {queue' : List ImportAddress} {wallet' : Set Address}
    (h : Covered X db queue wallet) (hqueue : ∀ e ∈ queue, Watched queue' wallet' e.address)
    (hwallet : wallet ⊆ wallet') : Covered X db queue' wallet' :=
  ⟨fun id s hs => (h.committees id s hs).mono hqueue hwallet,
    fun id g hg a ha => (h.whitelists id g hg a ha).mono hqueue hwallet⟩

theorem Covered.append (h : Covered X db queue wallet) (more : List ImportAddress) :
    Covered X db (queue ++ more) wallet :=
  h.mono (fun _ he => Or.inl (List.mem_map_of_mem (List.mem_append_left more he))) (le_refl _)

/-- The subnets, their addresses and whitelists are those of before. -/
structure SameAddresses (X : Library) (db db' : HeedDb) : Prop where
  committees : ∀ id s', db'.getSubnetState X id = some s' →
    ∃ s, db.getSubnetState X id = some s ∧
      s.committee.multisigAddress = s'.committee.multisigAddress
  whitelists : ∀ id g', db'.getSubnetGenesisInfo X id = some g' →
    ∃ g, db.getSubnetGenesisInfo X id = some g ∧ g.subnetId = g'.subnetId ∧
      g.createSubnetMsg = g'.createSubnetMsg

theorem SameAddresses.refl (db : HeedDb) : SameAddresses X db db :=
  ⟨fun _ s hs => ⟨s, hs, rfl⟩, fun _ g hg => ⟨g, hg, rfl, rfl⟩⟩

theorem SameAddresses.trans (a b c : HeedDb) (h₁ : SameAddresses X a b)
    (h₂ : SameAddresses X b c) : SameAddresses X a c := by
  constructor
  · intro id s hs
    obtain ⟨s', hs', heq'⟩ := h₂.committees id s hs
    obtain ⟨s'', hs'', heq''⟩ := h₁.committees id s' hs'
    exact ⟨s'', hs'', heq''.trans heq'⟩
  · intro id g hg
    obtain ⟨g', hg', hid', hm'⟩ := h₂.whitelists id g hg
    obtain ⟨g'', hg'', hid'', hm''⟩ := h₁.whitelists id g' hg'
    exact ⟨g'', hg'', hid''.trans hid', hm''.trans hm'⟩

theorem sameAddresses_of_tables (hstates : db'.subnetDb = db.subnetDb)
    (hgenesis : db'.subnetGenesisDb = db.subnetGenesisDb) : SameAddresses X db db' := by
  constructor
  · intro id s hs
    rw [HeedDb.getSubnetState, hstates] at hs
    exact ⟨s, hs, rfl⟩
  · intro id g hg
    rw [HeedDb.getSubnetGenesisInfo, hgenesis] at hg
    exact ⟨g, hg, rfl, rfl⟩

theorem Covered.same (h : Covered X db queue wallet) (hsame : SameAddresses X db db') :
    Covered X db' queue wallet := by
  constructor
  · intro id s hs
    obtain ⟨s', hs', heq⟩ := hsame.committees id s hs
    exact heq ▸ h.committees id s' hs'
  · intro id g hg a ha
    obtain ⟨g', hg', hid, hm⟩ := hsame.whitelists id g hg
    refine h.whitelists id g' hg' a ?_
    rw [← ha, SubnetGenesisInfo.multisigAddress, SubnetGenesisInfo.multisigAddress, hid, hm]

section Writes

variable (laws : DisplayLaws X)
include laws

/-- A state is replaced by one with the same address. -/
theorem sameAddresses_saveState {id : SubnetId} {s s' : SubnetState}
    (hs : db.getSubnetState X id = some s)
    (heq : s.committee.multisigAddress = s'.committee.multisigAddress) :
    SameAddresses X db (db.saveSubnetState X id s') := by
  refine ⟨?_, fun _ g hg => ⟨g, hg, rfl, rfl⟩⟩
  intro id' s'' hs''
  rw [HeedDb.getSubnetState_save db laws] at hs''
  split_ifs at hs'' with hid
  · cases hs''
    rw [hid]
    exact ⟨s, hs, heq⟩
  · exact ⟨s'', hs'', rfl⟩

theorem sameAddresses_saveGenesis {id : SubnetId} {g g' : SubnetGenesisInfo}
    (hg : db.getSubnetGenesisInfo X id = some g) (hid : g.subnetId = g'.subnetId)
    (hm : g.createSubnetMsg = g'.createSubnetMsg) :
    SameAddresses X db (db.saveSubnetGenesisInfo X id g') := by
  refine ⟨fun _ s hs => ⟨s, hs, rfl⟩, ?_⟩
  intro id' g'' hg''
  rw [HeedDb.getSubnetGenesisInfo_save db laws] at hg''
  split_ifs at hg'' with hid'
  · cases hg''
    rw [hid']
    exact ⟨g, hg, hid, hm⟩
  · exact ⟨g'', hg'', rfl, rfl⟩

theorem sameAddresses_recordStake {id : SubnetId} {s : SubnetState} (next : SubnetCommittee)
    (requests : List StakeChangeRequest) (hs : db.getSubnetState X id = some s) :
    SameAddresses X db (recordStake X db id s next requests) := by
  obtain ⟨table, hframe⟩ := foldl_addStakeChange_frame (X := X) id requests
    (db.saveSubnetState X id { s with waitingCommittee := some next })
  rw [recordStake, hframe]
  apply SameAddresses.trans _ (db.saveSubnetState X id { s with waitingCommittee := some next })
  · exact sameAddresses_saveState laws hs rfl
  · exact sameAddresses_of_tables rfl rfl

/-- Most messages leave the addresses alone. -/
theorem within_sameAddresses {m : IpcMessage} (hcreate : ∀ m', m ≠ .createSubnet m')
    (hjoin : ∀ m', m ≠ .joinSubnet m') (hcheckpoint : ∀ m', m ≠ .checkpointSubnet m')
    (db : HeedDb) : Within (SameAddresses X) db (processIpcMsg X cfg ctx tx m) := by
  cases m with
  | createSubnet m => exact absurd rfl (hcreate m)
  | joinSubnet m => exact absurd rfl (hjoin m)
  | checkpointSubnet m => exact absurd rfl (hcheckpoint m)
  | prefundSubnet m =>
    refine within_lift_bind (fun _ _ => within_lift_bind (fun saved hsave => within_commit ?_))
    obtain ⟨g, hg, -, rfl⟩ := IpcPrefundSubnetMsg.saveToDb_eq_ok (mapErr_eq_ok.mp hsave)
    exact sameAddresses_saveGenesis laws hg rfl rfl
  | fundSubnet m =>
    refine within_lift_bind (fun _ _ => within_lift_bind (fun saved hsave => within_commit ?_))
    obtain ⟨s, -, rfl⟩ := IpcFundSubnetMsg.saveToDb_eq_ok (mapErr_eq_ok.mp hsave)
    exact sameAddresses_of_tables rfl rfl
  | batchTransfer m =>
    refine within_lift_bind (fun _ _ => within_lift_bind (fun saved hsave => within_commit ?_))
    obtain ⟨_, _, _, heq⟩ := IpcBatchTransferMsg.sameButBatch_saveToDb (mapErr_eq_ok.mp hsave)
    rw [heq]
    exact sameAddresses_of_tables rfl rfl
  | stakeCollateral m =>
    refine within_lift_bind (fun _ _ => within_lift_bind (fun saved hsave => within_commit ?_))
    obtain ⟨s, v, next, hs, -, -, rfl⟩ :=
      IpcStakeCollateralMsg.saveToDb_eq_ok (mapErr_eq_ok.mp hsave)
    exact sameAddresses_recordStake laws _ _ hs
  | unstakeCollateral m =>
    refine within_lift_bind (fun _ _ => within_lift_bind (fun saved hsave => within_commit ?_))
    obtain ⟨s, v, next, hs, -, -, -, -, rfl⟩ :=
      IpcUnstakeCollateralMsg.saveToDb_eq_ok (mapErr_eq_ok.mp hsave)
    exact sameAddresses_recordStake laws _ _ hs
  | killSubnet m =>
    refine within_lift_bind (fun _ _ => within_lift_bind (fun saved hsave => within_commit ?_))
    obtain ⟨s, r, hs, rfl | ⟨marked, -, rfl⟩⟩ :=
      IpcKillSubnetMsg.saveToDb_eq_ok (mapErr_eq_ok.mp hsave)
    · exact sameAddresses_of_tables rfl rfl
    · apply SameAddresses.trans _ (db.addKillRequest X m.subnetId r)
      · exact sameAddresses_of_tables rfl rfl
      · exact sameAddresses_saveState laws hs rfl

end Writes

theorem store_commit_bind {α : Type} (d : HeedDb) (f : Unit → MonitorProc α) (s : HeedDb) :
    ((Proc.commit d >>= f) s).store s = (f () d).store d := by
  rw [Proc.commit_bind, Trace.store, List.getLastD_cons]
  rfl

theorem store_handleMsg (m : IpcMessage) (db : HeedDb) :
    (handleMsg X cfg ctx tx m db).store db = (processIpcMsg X cfg ctx tx m db).store db := by
  simp only [handleMsg, Proc.handle]
  split <;> rfl

/-- A message that stops the monitor with a panic is not handled. -/
theorem not_panic_of_handleMsg {m : IpcMessage}
    (hok : (handleMsg X cfg ctx tx m db).outcome = .ok ()) :
    (processIpcMsg X cfg ctx tx m db).outcome ≠ panicked := by
  intro hpanic
  simp only [handleMsg, Proc.handle, hpanic, panicked] at hok
  cases hok

/-- What a checkpoint leaves behind, once its transaction is stored. -/
theorem store_checkpoint {m : IpcCheckpointSubnetMsg} {saved : HeedDb × SubnetCheckpoint}
    (hv : m.validate = .ok ())
    (hs : m.saveToDb X db ctx.blockHeight ctx.blockHash (X.computeTxid tx) = .ok saved) :
    SameAddresses X saved.1 ((processCheckpointSubnet X cfg ctx tx m db).store db) := by
  have hrest : ∀ d, Within (SameAddresses X) d (do
      importCommittee X m saved.2
      rewardCheckpoint X cfg ctx m saved.2 : MonitorProc Unit) := by
    intro d
    refine Within.bind SameAddresses.refl SameAddresses.trans
      (within_of_nil (importCommittee_commits m saved.2 d)) (fun _ d' _ => ?_)
    apply (steps_rewardCheckpoint m saved.2).within SameAddresses.trans
    rintro a _ b ⟨-, _, _, rfl⟩
    exact sameAddresses_of_tables rfl rfl
  have hprocess : (processCheckpointSubnet X cfg ctx tx m db).store db = ((do
      importCommittee X m saved.2
      rewardCheckpoint X cfg ctx m saved.2 : MonitorProc Unit)
        (saved.1.saveTransaction X tx)).store (saved.1.saveTransaction X tx) := by
    simp only [processCheckpointSubnet, hv, orMsgInvalid, mapErr_ok, Proc.lift_ok_bind,
      Proc.read_bind, orProcessing, hs, store_commit_bind]
  rw [hprocess]
  apply SameAddresses.trans _ (saved.1.saveTransaction X tx)
  · exact sameAddresses_of_tables rfl rfl
  · exact (hrest _).store SameAddresses.refl

section Messages

variable (laws : DisplayLaws X)
include laws

theorem covered_create (m : IpcCreateSubnetMsg) (h : Covered X db queue wallet) :
    Covered X ((processCreateSubnet X ctx tx m db).store db)
      (queue ++ pushed X blockTime ctx tx db (.createSubnet m)) wallet := by
  cases hv : m.validate with
  | error e =>
    have hstore : (processCreateSubnet X ctx tx m db).store db = db := by
      simp only [processCreateSubnet, hv]
      cases e <;> rfl
    rw [hstore]
    exact h.append _
  | ok u =>
    set saved := m.saveToDb X db ctx.blockHeight (X.computeTxid tx) with hsaved
    have hstore : (processCreateSubnet X ctx tx m db).store db = saved.1 := by
      simp only [processCreateSubnet, hv, orMsgInvalid, mapErr_ok, Proc.lift_ok_bind,
        Proc.read_bind, store_commit_bind]
      cases (m.saveToDb X db ctx.blockHeight (X.computeTxid tx)).2.multisigAddress X <;> rfl
    rw [hstore]
    constructor
    · exact fun id s hs => (h.append _).committees id s hs
    · intro id g hg a ha
      have hsave : saved.1 = db.saveSubnetGenesisInfo X (.fromTxid (X.computeTxid tx)) saved.2 :=
        rfl
      rw [hsave, HeedDb.getSubnetGenesisInfo_save db laws] at hg
      split_ifs at hg with hid
      · cases hg
        have hpushed : pushed X blockTime ctx tx db (.createSubnet m) =
            [importOf blockTime ctx (a, addressLabel X saved.2.subnetId 0)] := by
          simp only [pushed, sideEffect, createEffect, whitelistAddressLabel, hv, orMsgInvalid,
            mapErr_ok, ← hsaved, ha, bind, Except.bind, pure, Except.pure]
          rfl
        rw [hpushed]
        exact Or.inl (by simp [importOf])
      · exact (h.append _).whitelists id g hg a ha

theorem covered_join (m : IpcJoinSubnetMsg) (h : Covered X db queue wallet)
    (hok : (processJoinSubnet X ctx tx m db).outcome ≠ panicked) :
    Covered X ((processJoinSubnet X ctx tx m db).store db)
      (queue ++ pushed X blockTime ctx tx db (.joinSubnet m)) wallet := by
  cases hj : checkJoin X tx db m with
  | error e =>
    have hstore : (processJoinSubnet X ctx tx m db).store db = db := by
      simp only [processJoinSubnet, Proc.read_bind, hj]
      rfl
    rw [hstore]
    exact h.append _
  | ok m' =>
    cases hs : m'.saveToDb X db ctx.blockHeight ctx.blockHash (X.computeTxid tx) with
    | error e =>
      have hstore : (processJoinSubnet X ctx tx m db).store db = db := by
        simp only [processJoinSubnet, Proc.read_bind, hj, Proc.lift_ok_bind, orProcessing, hs]
        cases e <;> rfl
      rw [hstore]
      exact h.append _
    | ok saved =>
      have hstore : (processJoinSubnet X ctx tx m db).store db = saved.1 := by
        simp only [processJoinSubnet, Proc.read_bind, hj, Proc.lift_ok_bind, orProcessing, hs,
          mapErr_ok, store_commit_bind]
        cases saved.2 with
        | none => rfl
        | some s =>
          dsimp only
          cases (s.committee.multisigAddress.requireNetwork : Outcome MonitorError Address) <;> rfl
      rw [hstore]
      cases hst : db.getSubnetState X m'.subnetId with
      | some s =>
        obtain ⟨next, -, -, -, rfl⟩ := IpcJoinSubnetMsg.saveToDb_post hst hs
        exact (h.append _).same (sameAddresses_recordStake laws _ _ hst)
      | none =>
        obtain ⟨g, hg, -, -, ⟨-, rfl⟩ | ⟨s, -, -, rfl⟩⟩ := IpcJoinSubnetMsg.saveToDb_pre hst hs
        · exact (h.append _).same (sameAddresses_saveGenesis laws hg rfl rfl)
        · cases ha : (s.committee.multisigAddress.requireNetwork :
              Outcome MonitorError Address) with
          | error e =>
            refine absurd ?_ hok
            have hpanic : e = .panic := by
              simp only [Address.requireNetwork, panicked] at ha
              split_ifs at ha
              exact (Except.error.inj ha).symm
            simp only [processJoinSubnet, Proc.read_bind, hj, Proc.lift_ok_bind, orProcessing, hs,
              mapErr_ok, Proc.commit_bind, ha, hpanic, Proc.lift_error_bind]
            rfl
          | ok a =>
            have haddr : s.committee.multisigAddress = a := (Address.requireNetwork_eq_ok.mp ha).2
            have hpushed : pushed X blockTime ctx tx db (.joinSubnet m) =
                [importOf blockTime ctx (a, addressLabel X s.id s.committeeNumber)] := by
              simp only [pushed, sideEffect, joinEffect, hj, orProcessing, hs, mapErr_ok,
                committeeAddressLabel, ha, bind, Except.bind, pure, Except.pure]
              rfl
            have hsame : SameAddresses X db (db.saveSubnetGenesisInfo X m'.subnetId
                (IpcJoinSubnetMsg.startedGenesis (m'.joinedGenesis X g (X.computeTxid tx))
                  ctx.blockHeight)) := sameAddresses_saveGenesis laws hg rfl rfl
            refine ⟨?_, fun id g' hg' => ((h.append _).same hsame).whitelists id g' hg'⟩
            intro id s' hs'
            change (db.saveSubnetState X m'.subnetId s).getSubnetState X id = some s' at hs'
            rw [HeedDb.getSubnetState_save db laws] at hs'
            split_ifs at hs' with hid
            · cases hs'
              rw [hpushed, haddr]
              exact Or.inl (by simp [importOf])
            · exact (h.append _).committees id s' hs'

theorem covered_checkpoint (m : IpcCheckpointSubnetMsg) (h : Covered X db queue wallet)
    (hok : (processCheckpointSubnet X cfg ctx tx m db).outcome ≠ panicked) :
    Covered X ((processCheckpointSubnet X cfg ctx tx m db).store db)
      (queue ++ pushed X blockTime ctx tx db (.checkpointSubnet m)) wallet := by
  cases hv : m.validate with
  | error e =>
    have hstore : (processCheckpointSubnet X cfg ctx tx m db).store db = db := by
      simp only [processCheckpointSubnet, hv]
      cases e <;> rfl
    rw [hstore]
    exact h.append _
  | ok u =>
    cases hs : m.saveToDb X db ctx.blockHeight ctx.blockHash (X.computeTxid tx) with
    | error e =>
      have hstore : (processCheckpointSubnet X cfg ctx tx m db).store db = db := by
        simp only [processCheckpointSubnet, hv, orMsgInvalid, mapErr_ok, Proc.lift_ok_bind,
          Proc.read_bind, orProcessing, hs]
        cases e <;> rfl
      rw [hstore]
      exact h.append _
    | ok saved =>
      refine Covered.same ?_ (store_checkpoint hv hs)
      obtain ⟨s, change, hst, hrot, hsaved⟩ := IpcCheckpointSubnetMsg.saveToDb_eq_ok hs
      cases change with
      | none =>
        rw [hsaved]
        apply (h.append _).same
        apply SameAddresses.trans _ (db.saveSubnetState X m.subnetId
          (m.checkpointedState s none ctx.blockHeight))
        · exact sameAddresses_saveState laws hst
            (by rw [IpcCheckpointSubnetMsg.checkpointedState_eq]; rfl)
        · exact sameAddresses_of_tables rfl rfl
      | some c =>
        set s' := m.checkpointedState s (some c) ctx.blockHeight with hs'
        have hframe : saved.1.subnetDb = (db.saveSubnetState X m.subnetId s').subnetDb ∧
            saved.1.subnetGenesisDb = db.subnetGenesisDb := by
          obtain ⟨table, hframe⟩ := foldl_addStakeChange_frame (X := X) m.subnetId _ _
          rw [hsaved, IpcCheckpointSubnetMsg.checkpointedDb, HeedDb.confirmStakeChanges, hframe]
          exact ⟨rfl, rfl⟩
        have hread : ∀ id, saved.1.getSubnetState X id =
            if id = m.subnetId then some s' else db.getSubnetState X id := by
          intro id
          rw [HeedDb.getSubnetState, hframe.1]
          exact HeedDb.getSubnetState_save db laws _ _ _
        have hchanged : saved.2.signedCommitteeNumber ≠ saved.2.nextCommitteeNumber := by
          rw [hsaved]
          exact Nat.ne_of_lt (Nat.lt_succ_self _)
        have hfetched : (saved.1.saveTransaction X tx).getSubnetState X m.subnetId = some s' :=
          (hread m.subnetId).trans (if_pos rfl)
        constructor
        · intro id s'' hs''
          rw [hread] at hs''
          split_ifs at hs'' with hid
          · cases hs''
            cases ha : (s'.committee.multisigAddress.requireNetwork :
                Outcome MonitorError Address) with
            | error e =>
              refine absurd ?_ hok
              have hpanic : e = .panic := by
                simp only [Address.requireNetwork, panicked] at ha
                split_ifs at ha
                exact (Except.error.inj ha).symm
              have himport : (importCommittee X m saved.2 (saved.1.saveTransaction X tx)).outcome =
                  .error .panic := by
                simp only [importCommittee, if_pos hchanged, Proc.read_bind, hfetched, okOr,
                  Proc.lift_ok_bind, ha, hpanic, Proc.lift_error_bind]
              simp only [processCheckpointSubnet, hv, orMsgInvalid, mapErr_ok, Proc.lift_ok_bind,
                Proc.read_bind, orProcessing, hs, Proc.commit_bind, Proc.bind_error himport]
              rfl
            | ok a =>
              have haddr : s'.committee.multisigAddress = a :=
                (Address.requireNetwork_eq_ok.mp ha).2
              have hpushed : pushed X blockTime ctx tx db (.checkpointSubnet m) =
                  [importOf blockTime ctx (a, addressLabel X s'.id s'.committeeNumber)] := by
                simp only [pushed, sideEffect, checkpointEffect, hv, orMsgInvalid, orProcessing, hs,
                  mapErr_ok, committeeAddressLabel, if_pos hchanged, hfetched, okOr, ha, bind,
                  Except.bind, pure, Except.pure]
                rfl
              rw [hpushed, haddr]
              exact Or.inl (by simp [importOf])
          · exact (h.append _).committees id s'' hs''
        · intro id g hg
          rw [HeedDb.getSubnetGenesisInfo, hframe.2] at hg
          exact (h.append _).whitelists id g hg

theorem covered_handleMsg (m : IpcMessage) (h : Covered X db queue wallet)
    (hok : (handleMsg X cfg ctx tx m db).outcome = .ok ()) :
    Covered X ((handleMsg X cfg ctx tx m db).store db)
      (queue ++ pushed X blockTime ctx tx db m) wallet := by
  have hpanic := not_panic_of_handleMsg hok
  rw [store_handleMsg]
  cases m with
  | createSubnet m => exact covered_create laws m h
  | joinSubnet m => exact covered_join laws m h hpanic
  | checkpointSubnet m => exact covered_checkpoint laws m h hpanic
  | _ =>
    refine (h.append _).same ((within_sameAddresses laws ?_ ?_ ?_ db).store SameAddresses.refl)
    all_goals exact fun _ heq => by cases heq

/-- The transactions of a block leave the addresses watched, with what they queue. -/
theorem covered_processTransaction (tx : Transaction) (h : Covered X db queue wallet)
    (hok : (processTransaction X cfg ctx tx db).outcome = .ok ()) :
    Covered X ((processTransaction X cfg ctx tx db).store db)
      (queue ++ transactionEffects X blockTime cfg ctx tx db) wallet := by
  set witnesses := Proc.each (handleMsg X cfg ctx tx) (witnessMessages X tx) with hwitnesses
  have hprocess : processTransaction X cfg ctx tx =
      (witnesses >>= fun _ => processOutputs X cfg ctx tx) := rfl
  cases hout : (witnesses db).outcome with
  | error e =>
    rw [hprocess, Proc.bind_error hout] at hok
    cases hok
  | ok u =>
    have hcovered : Covered X ((witnesses db).store db)
        (queue ++ witnessEffects X blockTime cfg ctx tx db) wallet :=
      Proc.each_emits (I := fun db queue => Covered X db queue wallet)
        (fun m _ s os hs hm => covered_handleMsg laws m hs hm) h hout
    have hrest : (processOutputs X cfg ctx tx ((witnesses db).store db)).outcome = .ok () := by
      rw [hprocess, Proc.bind_ok hout] at hok
      exact hok
    rw [hprocess, Proc.store_bind hout]
    simp only [transactionEffects, ← hwitnesses, hout]
    rw [← List.append_assoc]
    generalize (witnesses db).store db = d at hcovered hrest ⊢
    simp only [processOutputs, Proc.read_bind] at hrest ⊢
    cases hparsed : (firstParsed (outputParsers X ctx d tx) : Outcome MonitorError _) with
    | error e =>
      rw [hparsed, Proc.lift_error_bind] at hrest
      cases hrest
    | ok found =>
      rw [hparsed, Proc.lift_ok_bind] at hrest
      rw [Proc.lift_ok_bind]
      cases found with
      | none => exact hcovered.append _
      | some m =>
        simp only [outputEffects, hparsed]
        exact covered_handleMsg laws m hcovered hrest

theorem covered_processBlockData (txs : List Transaction) (h : Covered X db queue wallet)
    (hok : (processBlockData X cfg ctx txs db).outcome = .ok ()) :
    Covered X ((processBlockData X cfg ctx txs db).store db)
      (queue ++ blockEffects X blockTime cfg ctx txs db) wallet :=
  Proc.each_emits (I := fun db queue => Covered X db queue wallet)
    (fun tx _ _ _ hs htx => covered_processTransaction laws tx hs htx) h hok

/-- The height and the rewards of a block touch no address. -/
theorem covered_syncBlock (txs : List Transaction) (h : Covered X db queue wallet)
    (hok : (processBlockData X cfg ctx txs db).outcome = .ok ()) :
    Covered X ((syncBlock X cfg ctx txs db).store db)
      (queue ++ blockEffects X blockTime cfg ctx txs db) wallet := by
  have hreward : ∀ d, Within (SameAddresses X) d (rewardBlock X cfg ctx) := by
    apply (steps_rewardBlock cfg ctx).within SameAddresses.trans
    rintro a _ b ⟨-, _, _, rfl⟩
    exact sameAddresses_of_tables rfl rfl
  rw [syncBlock, Proc.store_bind hok, Proc.read_bind, store_commit_bind]
  refine (covered_processBlockData laws txs h hok).same ?_
  apply SameAddresses.trans _ (((processBlockData X cfg ctx txs db).store
    db).setLastProcessedBlock ctx.blockHeight)
  · exact sameAddresses_of_tables rfl rfl
  · exact (hreward _).store SameAddresses.refl

end Messages

end Covered

/-- How the wallet answers an import: with a result for each descriptor, or with an error, of which
the first two leave open whether the addresses are registered. -/
inductive ImportAnswer where
  | imported (success : List Bool)
  | transportError
  | rescanning
  | failed
deriving DecidableEq

/-- The answers of the wallet while the queue is handed over. -/
structure WalletReply where
  isAddressImported : Address → Option Bool
  importAddressBatch : List ImportAddress → ImportAnswer

/-- The entries of the queue that the wallet does not know. -/
def pendingImports (queue : List ImportAddress) (w : WalletReply) : List ImportAddress :=
  queue.filter (fun e => !(w.isAddressImported e.address).getD false)

/-- What is left of the queue, and whether the loops go on. The results of the single descriptors
are not looked at. -/
def processSideEffects (queue : List ImportAddress) (w : WalletReply) :
    List ImportAddress × Bool :=
  if queue = [] then ([], true)
  else if pendingImports queue w = [] then ([], true)
  else
    match w.importAddressBatch (pendingImports queue w) with
    | .imported _ => ([], true)
    | .transportError => (queue, true)
    | .rescanning => (queue, true)
    | .failed => (queue, false)

/-- The entries without a result of success. -/
def unsuccessful : List ImportAddress → List Bool → List ImportAddress
  | [], _ => []
  | e :: rest, [] => e :: rest
  | _ :: rest, true :: success => unsuccessful rest success
  | e :: rest, false :: success => e :: unsuccessful rest success

/-- What leaves the queue although the wallet has refused it. -/
def refusals (queue : List ImportAddress) (w : WalletReply) : List ImportAddress :=
  if pendingImports queue w = [] then []
  else
    match w.importAddressBatch (pendingImports queue w) with
    | .imported success => unsuccessful (pendingImports queue w) success
    | _ => []

section Loops

variable (X : Library) (blockTime : BlockHash → Nat) (cfg : SyncConfig)

/-- What the blocks of a window put into the queue. -/
def windowEffects (r : Reply) :
    SyncState → Nat → List (BlockHash × List Transaction) → List ImportAddress
  | _, _, [] => []
  | s, height, (hash, txs) :: rest =>
    let next := processNext X cfg s (r.context height hash, txs)
    blockEffects X blockTime cfg.toConfig (r.context height hash) txs s.db ++
      if next.phase = .stopped .blockFailed then [] else windowEffects r next (height + 1) rest

def stepEffects (s : SyncState) (r : Reply) : List ImportAddress :=
  match s.phase with
  | .window tip =>
    if s.currentHeight < tip ∧ ¬ r.cancelled = true ∧
        s.currentHeight + cfg.syncBatchSize < 2 ^ 64 then
      match r.fetchBlocksBatched (s.currentHeight + 1)
          (min (s.currentHeight + cfg.syncBatchSize) tip) with
      | none => []
      | some blocks => windowEffects X blockTime cfg r s (s.currentHeight + 1) blocks
    else []
  | .catchingUp tip =>
    if s.currentHeight < tip then
      match r.fetchBlock (s.currentHeight + 1) with
      | none => []
      | some (hash, txs) => blockEffects X blockTime cfg.toConfig
          (r.context (s.currentHeight + 1) hash) txs s.db
    else []
  | _ => []

/-- The monitor with its queue, the addresses that are registered with the wallet, and those that
left the queue because the wallet refused them. -/
structure WatchState where
  sync : SyncState
  queue : List ImportAddress
  registered : Set Address
  refused : Set Address

/-- Whether the queue is handed over at this point of the loops. -/
def Phase.handsOver (p : Phase) : Bool := p = .syncEffects ∨ p = .listenEffects

/-- One step of the loops, with what is left of the queue and what is added to it. -/
def watchStep (s : WatchState) (r : Reply) (w : WalletReply) (registered : Set Address) :
    WatchState :=
  let handed := if s.sync.phase.handsOver then processSideEffects s.queue w else (s.queue, true)
  let dropped := if s.sync.phase.handsOver then refusals s.queue w else []
  let r := { r with imported := handed.2 }
  { sync := step X cfg s.sync r
    queue := handed.1 ++ stepEffects X blockTime cfg s.sync r
    registered := registered
    refused := s.refused ∪ {a | a ∈ dropped.map (·.address)} }

/-- The wallet forgets no address, says only of registered ones that they are imported, and has
registered the descriptors whose result is a success. -/
structure Truthful (w : WalletReply) (before after : Set Address) : Prop where
  keeps : before ⊆ after
  known : ∀ a, w.isAddressImported a = some true → a ∈ after
  imported : ∀ pending success, w.importAddressBatch pending = .imported success →
    ∀ e, (e, true) ∈ pending.zip success → e.address ∈ after

/-- Where the monitor can be stopped: between two steps of the loops, or between two blocks of a
window. -/
inductive StoppedAt : WatchState → WatchState → Prop
  | betweenSteps (s : WatchState) : StoppedAt s s
  | inWindow {s : WatchState} {r : Reply} {tip : Nat}
      {fetched done : List (BlockHash × List Transaction)} :
      s.sync.phase = .window tip → s.sync.currentHeight < tip →
      r.fetchBlocksBatched (s.sync.currentHeight + 1)
        (min (s.sync.currentHeight + cfg.syncBatchSize) tip) = some fetched →
      done <+: fetched →
      StoppedAt s { s with
        sync := processWindow X cfg r s.sync (s.sync.currentHeight + 1) done
        queue := s.queue ++
          windowEffects X blockTime cfg r s.sync (s.sync.currentHeight + 1) done }

/-- What happens to the monitor: a step of the loops, or a stop, by a cancellation or a crash, and
a new start at a moment when everything in the queue is registered. -/
inductive WatchNext : WatchState → WatchState → Prop
  | step {s : WatchState} {r : Reply} {w : WalletReply} {registered : Set Address} :
      r.cancelled = false → Truthful w s.registered registered →
      WatchNext s (watchStep X blockTime cfg s r w registered)
  | restart {s t : WatchState} : StoppedAt X blockTime cfg s t →
      (∀ e ∈ t.queue, e.address ∈ t.registered) → t.sync.phase ≠ .stopped .blockFailed →
      WatchNext s ⟨.start t.sync.db, [], t.registered, t.refused⟩

/-- Any number of them, from an empty database on. -/
def WatchReaches (s : WatchState) : Prop :=
  ∃ registered, Relation.ReflTransGen (WatchNext X blockTime cfg)
    ⟨.start HeedDb.empty, [], registered, ∅⟩ s

end Loops

section Invariant

variable {X : Library} {blockTime : BlockHash → Nat} {cfg : SyncConfig}
  {queue : List ImportAddress} {wallet : Set Address}

/-- Every entry has a result of success, or none. -/
theorem success_or_unsuccessful {e : ImportAddress} {pending : List ImportAddress}
    (success : List Bool) (he : e ∈ pending) :
    (e, true) ∈ pending.zip success ∨ e ∈ unsuccessful pending success := by
  induction pending, success using unsuccessful.induct with
  | case1 success => cases he
  | case2 e' rest => exact Or.inr he
  | case3 e' rest success ih =>
    rcases List.mem_cons.mp he with rfl | he
    · exact Or.inl List.mem_cons_self
    · exact (ih he).imp (List.mem_cons_of_mem _) id
  | case4 e' rest success ih =>
    rcases List.mem_cons.mp he with rfl | he
    · exact Or.inr List.mem_cons_self
    · exact (ih he).imp (List.mem_cons_of_mem _) (List.mem_cons_of_mem _)

/-- What is handed over is registered or refused, or stays in the queue. -/
theorem watched_processSideEffects {w : WalletReply} {after : Set Address}
    (hw : Truthful w wallet after) {e : ImportAddress} (he : e ∈ queue) :
    Watched (processSideEffects queue w).1
      (after ∪ {a | a ∈ (refusals queue w).map (·.address)}) e.address := by
  have hempty : queue ≠ [] := List.ne_nil_of_mem he
  simp only [processSideEffects, if_neg hempty]
  by_cases hpending : (w.isAddressImported e.address).getD false = true
  · -- the wallet knows the address
    have hknown : w.isAddressImported e.address = some true := by
      cases hanswer : w.isAddressImported e.address with
      | none =>
        rw [hanswer] at hpending
        cases hpending
      | some b =>
        rw [hanswer] at hpending
        exact congrArg some hpending
    exact Or.inr (Or.inl (hw.known _ hknown))
  · have hmem : e ∈ pendingImports queue w := List.mem_filter.mpr ⟨he, by simpa using hpending⟩
    have hsome : pendingImports queue w ≠ [] := List.ne_nil_of_mem hmem
    rw [if_neg hsome]
    cases hanswer : w.importAddressBatch (pendingImports queue w) with
    | imported success =>
      right
      rcases success_or_unsuccessful success hmem with hsuccess | hrefused
      · exact Or.inl (hw.imported _ _ hanswer e hsuccess)
      · have hdropped : refusals queue w = unsuccessful (pendingImports queue w) success := by
          simp only [refusals, if_neg hsome, hanswer]
        refine Or.inr ?_
        rw [hdropped]
        exact List.mem_map_of_mem hrefused
    | transportError => exact Or.inl (List.mem_map_of_mem he)
    | rescanning => exact Or.inl (List.mem_map_of_mem he)
    | failed => exact Or.inl (List.mem_map_of_mem he)

section Steps

variable (laws : DisplayLaws X) {s : SyncState} {r : Reply}
include laws

theorem covered_processNext {b : FetchedBlock} (h : Covered X s.db queue wallet)
    (hlive : (processNext X cfg s b).phase ≠ .stopped .blockFailed) :
    Covered X (processNext X cfg s b).db
      (queue ++ blockEffects X blockTime cfg.toConfig b.1 b.2 s.db) wallet := by
  cases hdata : (processBlockData X cfg.toConfig b.1 b.2 s.db).outcome with
  | error e =>
    refine absurd ?_ hlive
    simp only [processNext, hdata]
  | ok u =>
    have hdb : (processNext X cfg s b).db =
        (syncBlock X cfg.toConfig b.1 b.2 s.db).store s.db := by
      simp only [processNext, hdata]
    rw [hdb]
    exact covered_syncBlock laws b.2 h hdata

theorem covered_processWindow (blocks : List (BlockHash × List Transaction)) (height : Nat)
    (h : Covered X s.db queue wallet)
    (hlive : (processWindow X cfg r s height blocks).phase ≠ .stopped .blockFailed) :
    Covered X (processWindow X cfg r s height blocks).db
      (queue ++ windowEffects X blockTime cfg r s height blocks) wallet := by
  induction blocks generalizing s height queue with
  | nil => exact h.append _
  | cons b rest ih =>
    obtain ⟨hash, txs⟩ := b
    simp only [processWindow, windowEffects] at hlive ⊢
    by_cases hfailed : (processNext X cfg s (r.context height hash, txs)).phase =
        .stopped .blockFailed
    · rw [if_pos hfailed] at hlive
      exact absurd hfailed hlive
    · rw [if_neg hfailed] at hlive
      rw [if_neg hfailed, if_neg hfailed, ← List.append_assoc]
      exact ih (height + 1) (covered_processNext laws h hfailed) hlive

/-- A step of the loops leaves the addresses watched, with what it queues. -/
theorem covered_step (h : Covered X s.db queue wallet) (hrun : r.cancelled = false)
    (hlive : (step X cfg s r).phase ≠ .stopped .blockFailed) :
    Covered X (step X cfg s r).db (queue ++ stepEffects X blockTime cfg s r) wallet := by
  cases hphase : s.phase with
  | window tip =>
    simp only [step, stepEffects, hphase, hrun] at hlive ⊢
    by_cases hlt : s.currentHeight < tip
    · simp only [hlt, Bool.false_eq_true, if_false, if_true, not_false_eq_true, true_and]
        at hlive ⊢
      by_cases hover : s.currentHeight + cfg.syncBatchSize < 2 ^ 64
      · simp only [if_neg (Nat.not_le.mpr hover), if_pos hover] at hlive ⊢
        cases hfetch : r.fetchBlocksBatched (s.currentHeight + 1)
            (min (s.currentHeight + cfg.syncBatchSize) tip) with
        | none => exact h.append _
        | some blocks =>
          rw [hfetch] at hlive
          exact covered_processWindow laws blocks _ h hlive
      · simp only [if_pos (Nat.not_lt.mp hover), if_neg hover]
        exact h.append _
    · simp only [hlt, if_false]
      exact h.append _
  | catchingUp tip =>
    simp only [step, stepEffects, hphase] at hlive ⊢
    by_cases hlt : s.currentHeight < tip
    · simp only [hlt, if_true] at hlive ⊢
      cases hfetch : r.fetchBlock (s.currentHeight + 1) with
      | none => exact h.append _
      | some b =>
        rw [hfetch] at hlive
        exact covered_processNext laws h hlive
    · simp only [hlt, if_false]
      exact h.append _
  | syncing =>
    have hdb : (step X cfg s r).db = s.db := by
      simp only [step, hphase, hrun]
      cases r.latestConfirmedHeight cfg.confirmations <;> rfl
    rw [hdb]
    exact h.append _
  | refetching =>
    have hdb : (step X cfg s r).db = s.db := by
      simp only [step, hphase]
      cases r.latestConfirmedHeight cfg.confirmations <;> rfl
    rw [hdb]
    exact h.append _
  | listening =>
    have hdb : (step X cfg s r).db = s.db := by
      simp only [step, hphase, hrun]
      cases r.latestConfirmedHeight cfg.confirmations <;> rfl
    rw [hdb]
    exact h.append _
  | _ =>
    have hdb : (step X cfg s r).db = s.db := by
      simp only [step, hphase]
    rw [hdb]
    exact h.append _

end Steps

/-- The blocks of a window that are processed when the monitor is stopped count like a step. -/
theorem covered_stoppedAt (laws : DisplayLaws X) {s t : WatchState} {wallet : Set Address}
    (h : Covered X s.sync.db s.queue wallet) (hstop : StoppedAt X blockTime cfg s t)
    (hlive : t.sync.phase ≠ .stopped .blockFailed) : Covered X t.sync.db t.queue wallet := by
  cases hstop with
  | betweenSteps => exact h
  | inWindow _ _ _ _ => exact covered_processWindow laws _ _ h hlive

theorem StoppedAt.same_wallet {s t : WatchState} (hstop : StoppedAt X blockTime cfg s t) :
    t.registered = s.registered ∧ t.refused = s.refused := by
  cases hstop with
  | betweenSteps => exact ⟨rfl, rfl⟩
  | inWindow _ _ _ _ => exact ⟨rfl, rfl⟩

/-- A monitor that has stopped at a block stays there. -/
theorem StoppedAt.blockFailed {s t : WatchState} (hstop : StoppedAt X blockTime cfg s t)
    (hs : s.sync.phase = .stopped .blockFailed) : t.sync.phase = .stopped .blockFailed := by
  cases hstop with
  | betweenSteps => exact hs
  | inWindow hphase _ _ _ =>
    rw [hs] at hphase
    cases hphase

theorem covered_watchNext (laws : DisplayLaws X) {s s' : WatchState}
    (h : s.sync.phase ≠ .stopped .blockFailed →
      Covered X s.sync.db s.queue (s.registered ∪ s.refused))
    (hnext : WatchNext X blockTime cfg s s') (hlive : s'.sync.phase ≠ .stopped .blockFailed) :
    Covered X s'.sync.db s'.queue (s'.registered ∪ s'.refused) := by
  cases hnext with
  | @step r w registered hrun hw =>
    set handed := if s.sync.phase.handsOver then processSideEffects s.queue w else (s.queue, true)
      with hhanded
    set dropped := if s.sync.phase.handsOver then refusals s.queue w else [] with hdropped
    set settled := registered ∪ (s.refused ∪ {a | a ∈ dropped.map (·.address)}) with hsettled
    have hstopped : s.sync.phase ≠ .stopped .blockFailed := by
      intro hstopped
      apply hlive
      change (step X cfg s.sync { r with imported := handed.2 }).phase = .stopped .blockFailed
      simp only [step, hstopped]
    have hkept : s.registered ∪ s.refused ⊆ settled :=
      Set.union_subset_union hw.keeps Set.subset_union_left
    have hcovered : Covered X s.sync.db handed.1 settled := by
      refine (h hstopped).mono (fun e he => ?_) hkept
      by_cases hphase : s.sync.phase.handsOver = true
      · rw [hhanded, hsettled, hdropped, if_pos hphase, if_pos hphase]
        refine (watched_processSideEffects hw he).mono
          (fun e he => Or.inl (List.mem_map_of_mem he)) ?_
        exact Set.union_subset_union (le_refl _) Set.subset_union_right
      · rw [hhanded, if_neg hphase]
        exact Or.inl (List.mem_map_of_mem he)
    exact covered_step laws hcovered hrun hlive
  | @restart t hstop hregistered hstopped =>
    obtain ⟨hwallet, hrefused⟩ := hstop.same_wallet
    have hcovered : Covered X t.sync.db t.queue (t.registered ∪ t.refused) := by
      rw [hwallet, hrefused]
      exact covered_stoppedAt laws (h (fun hs => hstopped (hstop.blockFailed hs))) hstop hstopped
    exact hcovered.mono (fun e he => Or.inr (Or.inl (hregistered e he))) (le_refl _)

/-- Whatever the node and the wallet answer, however often requests fail and the monitor is
started again: unless it has stopped at a block, the address of every active committee and of every
whitelist is registered with the wallet, was refused by it or waits in the queue to be registered. -/
theorem addresses_watched (laws : DisplayLaws X) {s : WatchState}
    (h : WatchReaches X blockTime cfg s) (hlive : s.sync.phase ≠ .stopped .blockFailed) :
    Covered X s.sync.db s.queue (s.registered ∪ s.refused) := by
  obtain ⟨registered, hrun⟩ := h
  revert hlive
  induction hrun with
  | refl =>
    intro _
    refine ⟨fun id s hs => ?_, fun id g hg => ?_⟩
    · cases hs
    · cases hg
  | tail _ hnext ih => exact covered_watchNext laws ih hnext

end Invariant

section Waiting

open Solo

/-- A node with one block, in which a subnet is created and bootstrapped. -/
def bootstrapChain : Reply :=
  ⟨false, some 1, fun _ => some (bytes32 0), fun _ => some [createTx, joinTx 100000], true,
    fun _ => .listed _, fun _ => .listed _, fun _ => .listed _⟩

/-- A wallet that is busy. -/
def busyWallet : WalletReply := ⟨fun _ => none, fun _ => .rescanning⟩

/-- No confirmations are waited for, and two blocks are synchronised at once. -/
def busyConfig : SyncConfig := ⟨⟨none⟩, 0, 2, Nat.succ_pos 1⟩

def busyStep (s : WatchState) : WatchState :=
  watchStep (library 10000 []) (fun _ => 0) busyConfig s bootstrapChain busyWallet s.registered

theorem addresses_watched_while_busy : ∃ s,
    WatchReaches (library 10000 []) (fun _ => 0) busyConfig s ∧
      s.sync.db.getLastProcessedBlock = 1 ∧ s.queue.length = 2 ∧
      Covered (library 10000 []) s.sync.db s.queue (s.registered ∪ s.refused) := by
  have hstep : ∀ s, WatchNext (library 10000 []) (fun _ => 0) busyConfig s (busyStep s) := by
    intro s
    refine .step rfl ⟨le_refl _, ?_, ?_⟩
    · intro a ha
      cases ha
    · intro pending success hpending
      cases hpending
  have hreach : WatchReaches (library 10000 []) (fun _ => 0) busyConfig
      (busyStep (busyStep (busyStep ⟨.start HeedDb.empty, [], ∅, ∅⟩))) :=
    ⟨∅, .tail (.tail (.single (hstep _)) (hstep _)) (hstep _)⟩
  refine ⟨_, hreach, ?_, ?_, addresses_watched (displayLaws_ideal _) hreach ?_⟩
  all_goals decide +kernel

end Waiting

end Monitor
