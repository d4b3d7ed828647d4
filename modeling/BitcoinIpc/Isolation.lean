import BitcoinIpc.Readers
import BitcoinIpc.KillQuorum
import BitcoinIpc.Lib.Restriction
import BitcoinIpc.Lib.Unwinding

/-!
# Isolation of subnets

All subnets share one database, and their records are told apart by the text of
their keys alone. The part of the database that belongs to a subnet is made
of the records under its keys and the balances it holds. What the provider
answers about the subnet is read from this part, and the messages that concern
the subnet determine it: whatever is sent to, from or about other subnets, and
in whatever order, does not show.
-/

namespace Monitor

open Faults Bytes Chain Messages Crates Multisig Db Grouping Commits OrderedTable Text
open IpcBatchTransferMsg Provider

/-- Whether a balance is held by the subnet: the holder ends the key of a balance. -/
def heldBy (X : Library) (t : Txid20) (k : Key) : Bool :=
  (':' :: subnetDisplay X (.fromTxid20 t)).isSuffixOf k

/-- The records of one subnet, with the balances it holds. -/
def subnetPart (X : Library) (t : Txid20) (db : HeedDb) : HeedDb where
  monitorInfo := none
  subnetDb := db.subnetDb.restrict (fun k => decide (k = subnetStateKey X (.fromTxid20 t)))
  subnetGenesisDb := db.subnetGenesisDb.restrict
    (fun k => decide (k = subnetGenesisInfoKey X (.fromTxid20 t)))
  checkpointsDb := db.checkpointsDb.restrict
    (fun k => (subnetKey X "checkpoints:" (.fromTxid20 t)).isPrefixOf k)
  rootnetMsgsDb := db.rootnetMsgsDb.restrict
    (fun k => (rootnetMsgsPrefix X (.fromTxid20 t)).isPrefixOf k)
  transactionsDb := .empty
  committeeDb := db.committeeDb.restrict
    (fun k => (subnetKey X "committee:" (.fromTxid20 t)).isPrefixOf k)
  stakeChangesDb := db.stakeChangesDb.restrict
    (fun k => (stakeChangesPrefix X (.fromTxid20 t)).isPrefixOf k)
  killRequestsDb := db.killRequestsDb.restrict
    (fun k => (killRequestsPrefix X (.fromTxid20 t)).isPrefixOf k)
  rewardCandidatesDb := .empty
  rewardResultsDb := .empty
  tokenBalancesDb := db.tokenBalancesDb.restrict (heldBy X t)

variable {X : Library} {t u : Txid20}

section Reads

variable (db : HeedDb)

@[simp] theorem getSubnetState_part : (subnetPart X t db).getSubnetState X (.fromTxid20 t) =
    db.getSubnetState X (.fromTxid20 t) :=
  Table.get_of_restrict _ (decide_eq_true rfl)

@[simp] theorem getSubnetGenesisInfo_part :
    (subnetPart X t db).getSubnetGenesisInfo X (.fromTxid20 t) =
      db.getSubnetGenesisInfo X (.fromTxid20 t) :=
  Table.get_of_restrict _ (decide_eq_true rfl)

@[simp] theorem getAllRootnetMsgs_part :
    (subnetPart X t db).getAllRootnetMsgs X (.fromTxid20 t) =
      db.getAllRootnetMsgs X (.fromTxid20 t) :=
  Table.scan_restrict _ _

@[simp] theorem getAllStakeChanges_part :
    (subnetPart X t db).getAllStakeChanges X (.fromTxid20 t) =
      db.getAllStakeChanges X (.fromTxid20 t) :=
  Table.scan_restrict _ _

@[simp] theorem getValidKillRequests_part (h : Nat) :
    (subnetPart X t db).getValidKillRequests X (.fromTxid20 t) h =
      db.getValidKillRequests X (.fromTxid20 t) h := by
  simp only [HeedDb.getValidKillRequests, subnetPart, Table.scan_restrict]

@[simp] theorem getCheckpoint_part (n : Nat) :
    (subnetPart X t db).getCheckpoint X (.fromTxid20 t) n =
      db.getCheckpoint X (.fromTxid20 t) n :=
  Table.get_of_restrict _ (List.isPrefixOf_iff_prefix.mpr (List.prefix_append _ _))

@[simp] theorem getCommittee_part (n : Nat) :
    (subnetPart X t db).getCommittee X (.fromTxid20 t) n =
      db.getCommittee X (.fromTxid20 t) n :=
  Table.get_of_restrict _ (List.isPrefixOf_iff_prefix.mpr (List.prefix_append _ _))

@[simp] theorem getStakeChange_part (n : Nat) :
    (subnetPart X t db).getStakeChange X (.fromTxid20 t) n =
      db.getStakeChange X (.fromTxid20 t) n := by
  have hkey : (stakeChangesPrefix X (.fromTxid20 t)).isPrefixOf
      (stakeChangeKey X (.fromTxid20 t) n) = true :=
    List.isPrefixOf_iff_prefix.mpr (List.prefix_append _ _)
  exact Table.get_of_restrict _ hkey

@[simp] theorem getNextRootnetMsgNonce_part :
    (subnetPart X t db).getNextRootnetMsgNonce X (.fromTxid20 t) =
      db.getNextRootnetMsgNonce X (.fromTxid20 t) := by
  simp only [HeedDb.getNextRootnetMsgNonce, HeedDb.getLastRootnetMsgNonce, getAllRootnetMsgs_part]

@[simp] theorem getNextStakeChangeConfigurationNumber_part :
    (subnetPart X t db).getNextStakeChangeConfigurationNumber X (.fromTxid20 t) =
      db.getNextStakeChangeConfigurationNumber X (.fromTxid20 t) := by
  simp only [HeedDb.getNextStakeChangeConfigurationNumber,
    HeedDb.getLastStakeChangeConfigurationNumber, getAllStakeChanges_part]

theorem heldBy_self (home : SubnetId) (token : EthAddress) :
    heldBy X t (tokenBalanceKey X home token (.fromTxid20 t)) = true := by
  rw [heldBy, List.isSuffixOf_iff_suffix]
  have htoken : (':' :: subnetDisplay X (.fromTxid20 t)) <:+
      X.ethDisplay token ++ ':' :: subnetDisplay X (.fromTxid20 t) := List.suffix_append _ _
  have hhome : (':' :: subnetDisplay X (.fromTxid20 t)) <:+
      subnetDisplay X home ++
        ':' :: (X.ethDisplay token ++ ':' :: subnetDisplay X (.fromTxid20 t)) :=
    (htoken.trans (List.suffix_cons _ _)).trans (List.suffix_append _ _)
  exact hhome.trans (List.suffix_append _ _)

@[simp] theorem getTokenBalance_part (home : SubnetId) (token : EthAddress) :
    (subnetPart X t db).getTokenBalance X home token (.fromTxid20 t) =
      db.getTokenBalance X home token (.fromTxid20 t) := by
  rw [HeedDb.getTokenBalance, HeedDb.getTokenBalance, subnetPart,
    Table.get_of_restrict _ (heldBy_self home token)]

end Reads

section Writes

variable (laws : DisplayLaws X) (db : HeedDb)
include laws

/-- The holder is what follows the last colon of the key. -/
theorem heldBy_eq (home : SubnetId) (token : EthAddress) :
    heldBy X t (tokenBalanceKey X home token (.fromTxid20 u)) = decide (t = u) := by
  by_cases htu : t = u
  · rw [← htu, heldBy_self, decide_eq_true rfl]
  · rw [decide_eq_false htu, Bool.eq_false_iff]
    intro hsuffix
    rw [heldBy, List.isSuffixOf_iff_suffix] at hsuffix
    have hlen : (':' :: subnetDisplay X (.fromTxid20 t)).length =
        (':' :: subnetDisplay X (.fromTxid20 u)).length := by
      simp only [subnetDisplay, List.length_append, List.length_cons, laws.delegated_length t u]
    have hown : (':' :: subnetDisplay X (.fromTxid20 u)) <:+
        tokenBalanceKey X home token (.fromTxid20 u) := by
      have := heldBy_self (X := X) (t := u) home token
      rwa [heldBy, List.isSuffixOf_iff_suffix] at this
    have heq := (List.suffix_or_suffix_of_suffix hsuffix hown).elim
      (fun h => h.eq_of_length hlen) (fun h => (h.eq_of_length hlen.symm).symm)
    have hdisplay := List.tail_eq_of_cons_eq heq
    exact htu (SubnetId.fromTxid20_injective (subnetDisplay_injective laws hdisplay))

theorem part_saveSubnetState (s : SubnetState) :
    subnetPart X t (db.saveSubnetState X (.fromTxid20 u) s) =
      if t = u then (subnetPart X t db).saveSubnetState X (.fromTxid20 u) s
      else subnetPart X t db := by
  simp only [subnetPart, HeedDb.saveSubnetState]
  split_ifs with h
  · rw [Table.restrict_put _ _ (by simp [h])]
  · rw [Table.restrict_put_of_not]
    have hne : u ≠ t := fun h' => h h'.symm
    simp [subnetStateKey, (subnetKey_injective laws _).eq_iff,
      SubnetId.fromTxid20_injective.eq_iff, hne]

theorem part_saveSubnetGenesisInfo (g : SubnetGenesisInfo) :
    subnetPart X t (db.saveSubnetGenesisInfo X (.fromTxid20 u) g) =
      if t = u then (subnetPart X t db).saveSubnetGenesisInfo X (.fromTxid20 u) g
      else subnetPart X t db := by
  simp only [subnetPart, HeedDb.saveSubnetGenesisInfo]
  split_ifs with h
  · rw [Table.restrict_put _ _ (by simp [h])]
  · rw [Table.restrict_put_of_not]
    have hne : u ≠ t := fun h' => h h'.symm
    simp [subnetGenesisInfoKey, (subnetKey_injective laws _).eq_iff,
      SubnetId.fromTxid20_injective.eq_iff, hne]

theorem part_addRootnetMsg (m : RootnetMessage) :
    subnetPart X t (db.addRootnetMsg X (.fromTxid20 u) m) =
      if t = u then (subnetPart X t db).addRootnetMsg X (.fromTxid20 u) m
      else subnetPart X t db := by
  simp only [subnetPart, HeedDb.addRootnetMsg]
  have hkey : (rootnetMsgsPrefix X (.fromTxid20 t)).isPrefixOf
      (rootnetMsgsKey X (.fromTxid20 u) m.nonce) = decide (t = u) :=
    isPrefixOf_numberedKey laws _ t u _
  split_ifs with h
  · rw [Table.restrict_put _ _ (hkey.trans (decide_eq_true h))]
  · rw [Table.restrict_put_of_not _ _ (hkey.trans (decide_eq_false h))]

theorem part_addStakeChange (c : StakeChangeRequest) :
    subnetPart X t (db.addStakeChange X (.fromTxid20 u) c) =
      if t = u then (subnetPart X t db).addStakeChange X (.fromTxid20 u) c
      else subnetPart X t db := by
  simp only [subnetPart, HeedDb.addStakeChange]
  have hkey : (stakeChangesPrefix X (.fromTxid20 t)).isPrefixOf
      (stakeChangeKey X (.fromTxid20 u) c.configurationNumber) = decide (t = u) :=
    isPrefixOf_numberedKey laws _ t u _
  split_ifs with h
  · rw [Table.restrict_put _ _ (hkey.trans (decide_eq_true h))]
  · rw [Table.restrict_put_of_not _ _ (hkey.trans (decide_eq_false h))]

theorem part_saveCheckpoint (c : SubnetCheckpoint) (n : Nat) :
    subnetPart X t (db.saveCheckpoint X (.fromTxid20 u) c n) =
      if t = u then (subnetPart X t db).saveCheckpoint X (.fromTxid20 u) c n
      else subnetPart X t db := by
  simp only [subnetPart, HeedDb.saveCheckpoint]
  have hkey : (subnetKey X "checkpoints:" (.fromTxid20 t)).isPrefixOf
      (checkpointsKey X (.fromTxid20 u) n) = decide (t = u) :=
    isPrefixOf_numberedKey laws _ t u n
  split_ifs with h
  · rw [Table.restrict_put _ _ (hkey.trans (decide_eq_true h))]
  · rw [Table.restrict_put_of_not _ _ (hkey.trans (decide_eq_false h))]

theorem part_saveCommittee (c : SubnetCommittee) (n : Nat) :
    subnetPart X t (db.saveCommittee X (.fromTxid20 u) n c) =
      if t = u then (subnetPart X t db).saveCommittee X (.fromTxid20 u) n c
      else subnetPart X t db := by
  simp only [subnetPart, HeedDb.saveCommittee]
  have hkey : (subnetKey X "committee:" (.fromTxid20 t)).isPrefixOf
      (committeeKey X (.fromTxid20 u) n) = decide (t = u) :=
    isPrefixOf_numberedKey laws _ t u n
  split_ifs with h
  · rw [Table.restrict_put _ _ (hkey.trans (decide_eq_true h))]
  · rw [Table.restrict_put_of_not _ _ (hkey.trans (decide_eq_false h))]

theorem part_addKillRequest (r : KillRequest) :
    subnetPart X t (db.addKillRequest X (.fromTxid20 u) r) =
      if t = u then (subnetPart X t db).addKillRequest X (.fromTxid20 u) r
      else subnetPart X t db := by
  simp only [subnetPart, HeedDb.addKillRequest]
  have hkey := isPrefixOf_killRequestKey laws t u r.blockHeight r.txid
  split_ifs with h
  · rw [Table.restrict_put _ _ (hkey.trans (decide_eq_true h))]
  · rw [Table.restrict_put_of_not _ _ (hkey.trans (decide_eq_false h))]

theorem part_setTokenBalance (home : SubnetId) (token : EthAddress) (b : U256) :
    subnetPart X t (db.setTokenBalance X home token (.fromTxid20 u) b) =
      if t = u then (subnetPart X t db).setTokenBalance X home token (.fromTxid20 u) b
      else subnetPart X t db := by
  simp only [subnetPart, HeedDb.setTokenBalance]
  have hkey : heldBy X t (tokenBalanceKey X home token (.fromTxid20 u)) = decide (t = u) :=
    heldBy_eq laws home token
  split_ifs with h
  · rw [Table.restrict_put _ _ (hkey.trans (decide_eq_true h))]
  · rw [Table.restrict_put_of_not _ _ (hkey.trans (decide_eq_false h))]

end Writes

section Own

variable (laws : DisplayLaws X) (db : HeedDb) {h : Nat} {hash : BlockHash} {txid : Txid}

include laws

theorem part_foldl_addStakeChange (l : List StakeChangeRequest) :
    subnetPart X t (l.foldl (fun d c => d.addStakeChange X (.fromTxid20 t) c) db) =
      l.foldl (fun d c => d.addStakeChange X (.fromTxid20 t) c) (subnetPart X t db) := by
  induction l generalizing db with
  | nil => rfl
  | cons c rest ih =>
    rw [List.foldl_cons, List.foldl_cons, ih, part_addStakeChange laws, if_pos rfl]

theorem part_confirmStakeChanges (n height : Nat) :
    subnetPart X t (db.confirmStakeChanges X (.fromTxid20 t) n height hash) =
      (subnetPart X t db).confirmStakeChanges X (.fromTxid20 t) n height hash := by
  simp only [HeedDb.confirmStakeChanges, part_foldl_addStakeChange laws, getAllStakeChanges_part]

theorem joinSubnet_own {m : IpcJoinSubnetMsg} (hid : m.subnetId = .fromTxid20 t) :
    m.saveToDb X (subnetPart X t db) h hash txid =
      Except.map (fun saved => (subnetPart X t saved.1, saved.2))
        (m.saveToDb X db h hash txid) := by
  unfold IpcJoinSubnetMsg.saveToDb
  rw [hid, getSubnetGenesisInfo_part, getSubnetState_part]
  refine bind_mapped fun g => bind_mapped fun _ => bind_mapped fun power => ?_
  cases db.getSubnetState X (.fromTxid20 t) with
  | some s =>
    have hpost : m.savePostBootstrap X (subnetPart X t db) s (m.newValidator X power txid) h hash
        txid = Except.map (subnetPart X t)
          (m.savePostBootstrap X db s (m.newValidator X power txid) h hash txid) := by
      unfold IpcJoinSubnetMsg.savePostBootstrap
      refine bind_mapped fun _ => bind_mapped fun _ => bind_mapped fun next => ?_
      simp only [hid, getNextStakeChangeConfigurationNumber_part]
      refine congrArg Except.ok ?_
      rw [part_addStakeChange laws, if_pos rfl, part_addStakeChange laws, if_pos rfl,
        part_saveSubnetState laws, if_pos rfl]
    simp only [hpost]
    cases m.savePostBootstrap X db s (m.newValidator X power txid) h hash txid <;> rfl
  | none =>
    unfold IpcJoinSubnetMsg.savePreBootstrap
    simp only [hid]
    split_ifs
    · refine bind_mapped fun s => congrArg Except.ok (Prod.ext ?_ rfl)
      simp only
      rw [part_saveCommittee laws, if_pos rfl, part_saveSubnetGenesisInfo laws, if_pos rfl,
        part_saveSubnetState laws, if_pos rfl]
    · refine congrArg Except.ok (Prod.ext ?_ rfl)
      simp only
      rw [part_saveSubnetGenesisInfo laws, if_pos rfl]

theorem prefundSubnet_own {m : IpcPrefundSubnetMsg} (hid : m.subnetId = .fromTxid20 t) :
    m.saveToDb X (subnetPart X t db) h txid =
      Except.map (subnetPart X t) (m.saveToDb X db h txid) := by
  unfold IpcPrefundSubnetMsg.saveToDb
  rw [hid, getSubnetGenesisInfo_part]
  refine bind_mapped fun g => bind_mapped fun _ => congrArg Except.ok ?_
  rw [part_saveSubnetGenesisInfo laws, if_pos rfl]

theorem fundSubnet_own {m : IpcFundSubnetMsg} (hid : m.subnetId = .fromTxid20 t) :
    m.saveToDb X (subnetPart X t db) h hash txid =
      Except.map (subnetPart X t) (m.saveToDb X db h hash txid) := by
  unfold IpcFundSubnetMsg.saveToDb
  rw [hid, getSubnetState_part]
  refine bind_mapped fun s => bind_mapped fun _ => congrArg Except.ok ?_
  rw [part_addRootnetMsg laws, if_pos rfl, getNextRootnetMsgNonce_part]

theorem stakeCollateral_own {m : IpcStakeCollateralMsg} (hid : m.subnetId = .fromTxid20 t) :
    m.saveToDb X (subnetPart X t db) h hash txid =
      Except.map (subnetPart X t) (m.saveToDb X db h hash txid) := by
  unfold IpcStakeCollateralMsg.saveToDb
  rw [hid, getSubnetGenesisInfo_part, getSubnetState_part]
  refine bind_mapped fun g => bind_mapped fun s => bind_mapped fun _ => bind_mapped fun v =>
    bind_mapped fun collateral => bind_mapped fun power => bind_mapped fun next =>
      congrArg Except.ok ?_
  rw [part_addStakeChange laws, if_pos rfl, part_saveSubnetState laws, if_pos rfl,
    getNextStakeChangeConfigurationNumber_part]

theorem unstakeCollateral_own {m : IpcUnstakeCollateralMsg} (hid : m.subnetId = .fromTxid20 t) :
    m.saveToDb X (subnetPart X t db) h hash txid =
      Except.map (subnetPart X t) (m.saveToDb X db h hash txid) := by
  unfold IpcUnstakeCollateralMsg.saveToDb
  rw [hid, getSubnetGenesisInfo_part, getSubnetState_part]
  refine bind_mapped fun g => bind_mapped fun s => bind_mapped fun _ => bind_mapped fun key =>
    bind_mapped fun v => bind_mapped fun _ => bind_mapped fun rest => bind_mapped fun next =>
      congrArg Except.ok ?_
  rw [part_addStakeChange laws, if_pos rfl, part_saveSubnetState laws, if_pos rfl,
    getNextStakeChangeConfigurationNumber_part]

theorem killSubnet_own {m : IpcKillSubnetMsg} (hid : m.subnetId = .fromTxid20 t) :
    m.saveToDb X (subnetPart X t db) h hash txid =
      Except.map (subnetPart X t) (m.saveToDb X db h hash txid) := by
  unfold IpcKillSubnetMsg.saveToDb
  rw [hid, getSubnetGenesisInfo_part, getSubnetState_part]
  simp only [getValidKillRequests_part]
  refine bind_mapped fun g => bind_mapped fun s => bind_mapped fun _ => bind_mapped fun key =>
    bind_mapped fun _ => bind_mapped fun _ => bind_mapped fun requested => bind_mapped fun total =>
      bind_mapped fun threshold => ?_
  split_ifs
  · refine congrArg Except.ok ?_
    rw [part_saveSubnetState laws, if_pos rfl, part_addKillRequest laws, if_pos rfl]
  · refine congrArg Except.ok ?_
    rw [part_addKillRequest laws, if_pos rfl]

theorem checkpointSubnet_own {m : IpcCheckpointSubnetMsg} (hid : m.subnetId = .fromTxid20 t) :
    m.saveToDb X (subnetPart X t db) h hash txid =
      Except.map (fun saved => (subnetPart X t saved.1, saved.2))
        (m.saveToDb X db h hash txid) := by
  have hrotation : ∀ s, m.rotation X (subnetPart X t db) s = m.rotation X db s := by
    intro s
    simp only [IpcCheckpointSubnetMsg.rotation, hid, getStakeChange_part]
  unfold IpcCheckpointSubnetMsg.saveToDb
  rw [hid, getSubnetState_part]
  refine bind_mapped fun s => ?_
  rw [hrotation]
  refine bind_mapped fun change => ?_
  cases change with
  | none =>
    refine congrArg Except.ok (Prod.ext ?_ rfl)
    simp only
    rw [part_saveCheckpoint laws, if_pos rfl, part_saveSubnetState laws, if_pos rfl]
  | some c =>
    refine congrArg Except.ok (Prod.ext ?_ rfl)
    simp only
    rw [part_confirmStakeChanges laws, part_saveCommittee laws, if_pos rfl,
      part_saveCheckpoint laws, if_pos rfl, part_saveSubnetState laws, if_pos rfl]

end Own

section Batch

variable (laws : DisplayLaws X) {a b a' b' : HeedDb} {o : Origin} {source : SubnetId}

include laws

/-- A subnet is listed once, when it has a state. -/
theorem getAllSubnets_filter (hs : Sound X a) :
    a.getAllSubnets.filter (fun s => s.id = .fromTxid20 t) =
      (a.getSubnetState X (.fromTxid20 t)).toList := by
  have hentries : (a.subnetDb.scanEntries (fun k => allSubnetsPrefix.isPrefixOf k)).filter
      (fun e => e.2.id = .fromTxid20 t) =
        (a.subnetDb.restrict (fun k => decide (k = subnetStateKey X (.fromTxid20 t)))).entries := by
    rw [Table.scanEntries, List.filter_filter]
    refine List.filter_congr fun e he => ?_
    obtain ⟨u, hkey, hid, -, -⟩ := (hs.states e he).keyed
    rw [hkey, hid, isPrefixOf_subnetStateKey, Bool.and_true, decide_eq_decide]
    exact (subnetKey_injective laws _).eq_iff.symm
  have hvalues : ∀ l : List (Key × SubnetState),
      (l.map Prod.snd).filter (fun s => s.id = .fromTxid20 t) =
        (l.filter (fun e => e.2.id = .fromTxid20 t)).map Prod.snd := fun l => List.filter_map
  rw [HeedDb.getAllSubnets, Table.scan, hvalues, hentries,
    Table.entries_restrict_eq _ (fun j => decide_eq_true_iff), List.map_map]
  exact List.map_id _

theorem part_enqueue (db : HeedDb) (f : Nat → RootnetMessage) :
    subnetPart X t (enqueue X db (.fromTxid20 u) f) =
      if t = u then enqueue X (subnetPart X t db) (.fromTxid20 u) f else subnetPart X t db := by
  rw [enqueue, part_addRootnetMsg laws]
  split_ifs with h
  · rw [enqueue, ← h, getNextRootnetMsgNonce_part]
  · rfl

theorem part_fanOut {subnets : List SubnetState} (hsub : ∀ s ∈ subnets, ∃ u, s.id = .fromTxid20 u)
    (f : Nat → RootnetMessage) (db : HeedDb) :
    subnetPart X t (subnets.foldl (fun d s => enqueue X d s.id f) db) =
      (subnets.filter (fun s => s.id = .fromTxid20 t)).foldl (fun d s => enqueue X d s.id f)
        (subnetPart X t db) := by
  induction subnets generalizing db with
  | nil => rfl
  | cons s rest ih =>
    obtain ⟨u, hu⟩ := hsub s List.mem_cons_self
    rw [List.foldl_cons, ih (fun r hr => hsub r (List.mem_cons_of_mem s hr)), hu, part_enqueue laws]
    by_cases htu : t = u
    · rw [if_pos htu, List.filter_cons_of_pos (by simp [hu, htu]), List.foldl_cons, hu]
    · have hne : ¬ s.id = .fromTxid20 t :=
        fun h => htu (SubnetId.fromTxid20_injective (h.symm.trans hu))
      rw [if_neg htu, List.filter_cons_of_neg (by simpa using hne)]

theorem agree_setTokenBalance {home : SubnetId} {token : EthAddress} {x y : U256}
    (h : subnetPart X t a = subnetPart X t b) (hxy : t = u → x = y) :
    subnetPart X t (a.setTokenBalance X home token (.fromTxid20 u) x) =
      subnetPart X t (b.setTokenBalance X home token (.fromTxid20 u) y) := by
  rw [part_setTokenBalance laws, part_setTokenBalance laws]
  split_ifs with htu
  · rw [h, hxy htu]
  · exact h

theorem agree_enqueue {f : Nat → RootnetMessage} (h : subnetPart X t a = subnetPart X t b) :
    subnetPart X t (enqueue X a (.fromTxid20 u) f) =
      subnetPart X t (enqueue X b (.fromTxid20 u) f) := by
  rw [part_enqueue laws, part_enqueue laws, h]

omit laws in
theorem agree_getTokenBalance {home : SubnetId} {token : EthAddress}
    (h : subnetPart X t a = subnetPart X t b) :
    a.getTokenBalance X home token (.fromTxid20 t) =
      b.getTokenBalance X home token (.fromTxid20 t) := by
  rw [← getTokenBalance_part a, ← getTokenBalance_part b, h]

theorem agree_applyRegistration {subnets subnets' : List SubnetState}
    (hsub : ∀ s ∈ subnets, ∃ u, s.id = .fromTxid20 u)
    (hsub' : ∀ s ∈ subnets', ∃ u, s.id = .fromTxid20 u)
    (hlisted : subnets.filter (fun s => s.id = .fromTxid20 t) =
      subnets'.filter (fun s => s.id = .fromTxid20 t))
    (r : IpcErcTokenRegistration) (h : subnetPart X t a = subnetPart X t b) :
    subnetPart X t (applyRegistration X o (.fromTxid20 u) subnets a r) =
      subnetPart X t (applyRegistration X o (.fromTxid20 u) subnets' b r) := by
  have hothers : ∀ l : List SubnetState, (∀ s ∈ l, ∃ u, s.id = .fromTxid20 u) →
      ∀ s ∈ l.filter (fun s => s.id ≠ .fromTxid20 u), ∃ u, s.id = .fromTxid20 u :=
    fun l hl s hs => hl s (List.mem_of_mem_filter hs)
  rw [applyRegistration, applyRegistration, part_fanOut laws (hothers _ hsub),
    part_fanOut laws (hothers _ hsub'), List.filter_comm, hlisted, List.filter_comm,
    agree_setTokenBalance laws h (fun _ => rfl)]

theorem agree_applyMint (m : IpcErcSupplyAdjustment) (h : subnetPart X t a = subnetPart X t b) :
    subnetPart X t (applyMint X (.fromTxid20 u) a m) =
      subnetPart X t (applyMint X (.fromTxid20 u) b m) := by
  refine agree_setTokenBalance laws h (fun htu => ?_)
  subst htu
  rw [agree_getTokenBalance h]

theorem agree_applyBurn {m : IpcErcSupplyAdjustment} (h : subnetPart X t a = subnetPart X t b)
    (ha : applyBurn X (.fromTxid20 u) a m = .ok a')
    (hb : applyBurn X (.fromTxid20 u) b m = .ok b') :
    subnetPart X t a' = subnetPart X t b' := by
  obtain ⟨left, hleft, ha⟩ := bind_eq_ok.mp ha
  obtain ⟨left', hleft', hb⟩ := bind_eq_ok.mp hb
  obtain rfl := Except.ok.inj ha
  obtain rfl := Except.ok.inj hb
  refine agree_setTokenBalance laws h (fun htu => ?_)
  subst htu
  rw [agree_getTokenBalance h] at hleft
  exact Except.ok.inj (hleft.symm.trans hleft')

theorem agree_applyTransfer {e : IpcCrossSubnetErcTransfer} {d : Txid20}
    (hd : e.destinationSubnetId = .fromTxid20 d) (h : subnetPart X t a = subnetPart X t b)
    (ha : applyTransfer X o (.fromTxid20 u) a e = .ok a')
    (hb : applyTransfer X o (.fromTxid20 u) b e = .ok b') :
    subnetPart X t a' = subnetPart X t b' := by
  unfold applyTransfer at ha hb
  rw [hd] at ha hb
  split_ifs at ha hb
  · cases ha
    cases hb
    exact h
  · obtain ⟨left, hleft, ha⟩ := bind_eq_ok.mp ha
    obtain ⟨left', hleft', hb⟩ := bind_eq_ok.mp hb
    obtain rfl := Except.ok.inj ha
    obtain rfl := Except.ok.inj hb
    have hdebit : subnetPart X t (a.setTokenBalance X e.homeSubnetId e.homeTokenAddress
        (.fromTxid20 u) left) = subnetPart X t (b.setTokenBalance X e.homeSubnetId
          e.homeTokenAddress (.fromTxid20 u) left') := by
      refine agree_setTokenBalance laws h (fun htu => ?_)
      subst htu
      rw [agree_getTokenBalance h] at hleft
      exact Except.ok.inj (hleft.symm.trans hleft')
    refine agree_enqueue laws (agree_setTokenBalance laws hdebit (fun htd => ?_))
    subst htd
    rw [agree_getTokenBalance hdebit]

/-- Two databases with the same part still agree after the same records. -/
theorem agree_applyRecords {m : IpcBatchTransferMsg} {c c' : HeedDb}
    (hid : m.subnetId = .fromTxid20 u)
    (hnative : ∀ e ∈ m.transfers, ∃ d, e.destinationSubnetId = .fromTxid20 d)
    (herc : ∀ e ∈ m.tokenTransfers, ∃ d, e.destinationSubnetId = .fromTxid20 d)
    (hc : Sound X c) (hc' : Sound X c') (hcommitted : subnetPart X t c = subnetPart X t c')
    (h : subnetPart X t a = subnetPart X t b) (ha : m.applyRecords X o c a = .ok a')
    (hb : m.applyRecords X o c' b = .ok b') : subnetPart X t a' = subnetPart X t b' := by
  unfold applyRecords at ha hb
  rw [hid] at ha hb
  obtain ⟨burnt, hburn, htransfer⟩ := bind_eq_ok.mp ha
  obtain ⟨burnt', hburn', htransfer'⟩ := bind_eq_ok.mp hb
  have hlisted : c.getAllSubnets.filter (fun s => s.id = .fromTxid20 t) =
      c'.getAllSubnets.filter (fun s => s.id = .fromTxid20 t) := by
    rw [getAllSubnets_filter laws hc, getAllSubnets_filter laws hc', ← getSubnetState_part c,
      ← getSubnetState_part c', hcommitted]
  have hnatives : subnetPart X t (m.transfers.foldl (applyNative X o) a) =
      subnetPart X t (m.transfers.foldl (applyNative X o) b) := by
    refine List.foldl_rel (r := fun a b => subnetPart X t a = subnetPart X t b) h ?_
    intro e he s s' hs
    obtain ⟨d, hd⟩ := hnative e he
    rw [applyNative, applyNative, hd]
    exact agree_enqueue laws hs
  have hregistered := List.foldl_rel (r := fun a b => subnetPart X t a = subnetPart X t b)
    (l := m.tokenRegistrations) hnatives fun r _ _ _ hs => agree_applyRegistration laws (o := o)
      (u := u) hc.allSubnets hc'.allSubnets hlisted r hs
  have hminted := List.foldl_rel (r := fun a b => subnetPart X t a = subnetPart X t b)
    (l := m.tokenSupplyAdjustments.filter (fun a => !a.delta.isNegative)) hregistered
    fun e _ _ _ hs => agree_applyMint laws (u := u) e hs
  have hburned : subnetPart X t burnt = subnetPart X t burnt' := by
    refine foldlM_both (R := fun a b => subnetPart X t a = subnetPart X t b) ?_ hminted hburn hburn'
    intro e _ s s' d d' hs hd hd'
    exact agree_applyBurn laws hs hd hd'
  refine foldlM_both (R := fun a b => subnetPart X t a = subnetPart X t b) ?_ hburned htransfer
    htransfer'
  intro e he s s' d d' hs hd hd'
  obtain ⟨v, hv⟩ := herc e he
  exact agree_applyTransfer laws hv hs hd hd'

theorem agree_batchTransfer {m : IpcBatchTransferMsg} {saved saved' : HeedDb × SubnetCheckpoint}
    (hid : m.subnetId = .fromTxid20 u)
    (hnative : ∀ e ∈ m.transfers, ∃ d, e.destinationSubnetId = .fromTxid20 d)
    (herc : ∀ e ∈ m.tokenTransfers, ∃ d, e.destinationSubnetId = .fromTxid20 d)
    (hs : Sound X a) (hs' : Sound X b) (h : subnetPart X t a = subnetPart X t b)
    (ha : m.saveToDb X a o = .ok saved) (hb : m.saveToDb X b o = .ok saved') :
    subnetPart X t saved.1 = subnetPart X t saved'.1 := by
  unfold saveToDb at ha hb
  rw [hid] at ha hb
  obtain ⟨s, hst, ha⟩ := bind_eq_ok.mp ha
  obtain ⟨n, hn, ha⟩ := bind_eq_ok.mp ha
  obtain ⟨c, hc, ha⟩ := bind_eq_ok.mp ha
  obtain ⟨_, -, ha⟩ := bind_eq_ok.mp ha
  obtain ⟨d, hd, ha⟩ := bind_eq_ok.mp ha
  obtain ⟨s', hst', hb⟩ := bind_eq_ok.mp hb
  obtain ⟨n', hn', hb⟩ := bind_eq_ok.mp hb
  obtain ⟨c', hc', hb⟩ := bind_eq_ok.mp hb
  obtain ⟨_, -, hb⟩ := bind_eq_ok.mp hb
  obtain ⟨d', hd', hb⟩ := bind_eq_ok.mp hb
  obtain rfl := Except.ok.inj ha
  obtain rfl := Except.ok.inj hb
  refine agree_applyRecords laws hid hnative herc hs hs' h ?_ hd hd'
  rw [part_saveCheckpoint laws, part_saveCheckpoint laws, h]
  split_ifs with htu
  · subst htu
    rw [okOr_eq_ok, ← getSubnetState_part, h, getSubnetState_part, ← okOr_eq_ok] at hst
    cases hst.symm.trans hst'
    cases hn.symm.trans hn'
    rw [okOr_eq_ok, ← getCheckpoint_part, h, getCheckpoint_part, ← okOr_eq_ok] at hc
    cases hc.symm.trans hc'
    rfl
  · rfl

/-- A batch transfer of another subnet that neither pays the subnet nor registers a token. -/
theorem quiet_batchTransfer {m : IpcBatchTransferMsg} {saved : HeedDb × SubnetCheckpoint}
    (hid : m.subnetId = .fromTxid20 u) (htu : t ≠ u) (hnone : m.tokenRegistrations = [])
    (hnative : ∀ e ∈ m.transfers, ∃ d, e.destinationSubnetId = .fromTxid20 d ∧ t ≠ d)
    (herc : ∀ e ∈ m.tokenTransfers, ∃ d, e.destinationSubnetId = .fromTxid20 d ∧ t ≠ d)
    (ha : m.saveToDb X a o = .ok saved) : subnetPart X t saved.1 = subnetPart X t a := by
  obtain ⟨s, -, ha⟩ := bind_eq_ok.mp ha
  obtain ⟨n, -, ha⟩ := bind_eq_ok.mp ha
  obtain ⟨c, -, ha⟩ := bind_eq_ok.mp ha
  obtain ⟨_, -, ha⟩ := bind_eq_ok.mp ha
  obtain ⟨d, hd, ha⟩ := bind_eq_ok.mp ha
  obtain rfl := Except.ok.inj ha
  unfold applyRecords at hd
  rw [hid, hnone] at hd
  obtain ⟨burnt, hburn, htransfer⟩ := bind_eq_ok.mp hd
  have hrefl : ∀ d : HeedDb, subnetPart X t d = subnetPart X t d := fun _ => rfl
  have htrans : ∀ a b c : HeedDb, subnetPart X t b = subnetPart X t a →
      subnetPart X t c = subnetPart X t b → subnetPart X t c = subnetPart X t a :=
    fun _ _ _ h₁ h₂ => h₂.trans h₁
  have hset : ∀ (d : HeedDb) home token x,
      subnetPart X t (d.setTokenBalance X home token (.fromTxid20 u) x) = subnetPart X t d := by
    intro d home token x
    rw [part_setTokenBalance laws, if_neg htu]
  have hnatives := foldl_rel_of_mem (R := fun a b => subnetPart X t b = subnetPart X t a) hrefl
    htrans (f := applyNative X o) (l := m.transfers) (fun e he s => by
      obtain ⟨v, hv, htv⟩ := hnative e he
      rw [applyNative, hv, part_enqueue laws, if_neg htv])
  have hminted := foldl_rel (R := fun a b => subnetPart X t b = subnetPart X t a) hrefl
    htrans (f := applyMint X (.fromTxid20 u)) (fun s e => hset s _ _ _)
    (m.tokenSupplyAdjustments.filter (fun a => !a.delta.isNegative))
  have hburned : ∀ {l : List IpcErcSupplyAdjustment} {d d' : HeedDb},
      l.foldlM (applyBurn X (.fromTxid20 u)) d = .ok d' → subnetPart X t d' = subnetPart X t d := by
    intro l d d' hl
    refine foldlM_rel (R := fun a b => subnetPart X t b = subnetPart X t a) hrefl htrans ?_ hl
    intro s e s' hs
    obtain ⟨left, -, hs⟩ := bind_eq_ok.mp hs
    exact (Except.ok.inj hs) ▸ hset s _ _ _
  have hmoved : subnetPart X t d = subnetPart X t burnt := by
    refine foldlM_rel_of_mem (R := fun a b => subnetPart X t b = subnetPart X t a) hrefl htrans ?_
      htransfer
    intro e he s s' hs
    obtain ⟨v, hv, htv⟩ := herc e he
    unfold applyTransfer at hs
    rw [hv] at hs
    split_ifs at hs
    · rw [Except.ok.inj hs]
    · obtain ⟨left, -, hs⟩ := bind_eq_ok.mp hs
      rw [← Except.ok.inj hs, part_enqueue laws, if_neg htv, part_setTokenBalance laws, if_neg htv,
        hset]
  rw [hmoved, hburned hburn, hminted, List.foldl_nil, hnatives, part_saveCheckpoint laws,
    if_neg htu]

end Batch

/-- Whether a commit concerns a subnet: the messages to it and about it, and the
transfers and the registrations of tokens of the others. -/
def concerns (X : Library) (t : Txid20) : Event → Bool
  | .message _ tx (.createSubnet _) => decide (Txid20.fromTxid (X.computeTxid tx) = t)
  | .message _ _ (.joinSubnet m) => decide (m.subnetId = .fromTxid20 t)
  | .message _ _ (.prefundSubnet m) => decide (m.subnetId = .fromTxid20 t)
  | .message _ _ (.fundSubnet m) => decide (m.subnetId = .fromTxid20 t)
  | .message _ _ (.checkpointSubnet m) => decide (m.subnetId = .fromTxid20 t)
  | .message _ _ (.batchTransfer m) => decide (m.subnetId = .fromTxid20 t) ||
      !m.tokenRegistrations.isEmpty ||
      m.transfers.any (fun e => e.destinationSubnetId = .fromTxid20 t) ||
      m.tokenTransfers.any (fun e => e.destinationSubnetId = .fromTxid20 t)
  | .message _ _ (.stakeCollateral m) => decide (m.subnetId = .fromTxid20 t)
  | .message _ _ (.unstakeCollateral m) => decide (m.subnetId = .fromTxid20 t)
  | .message _ _ (.killSubnet m) => decide (m.subnetId = .fromTxid20 t)
  | .transaction _ => false
  | .rewards => false
  | .block _ => false

section Commits

variable (laws : DisplayLaws X) {a b a' b' : HeedDb} {e : Event}
include laws

theorem part_foldl_addStakeChange_other (htu : t ≠ u) (l : List StakeChangeRequest)
    (db : HeedDb) :
    subnetPart X t (l.foldl (fun d c => d.addStakeChange X (.fromTxid20 u) c) db) =
      subnetPart X t db :=
  foldl_rel (R := fun a b => subnetPart X t b = subnetPart X t a) (fun _ => rfl)
    (fun _ _ _ h₁ h₂ => h₂.trans h₁)
    (fun d c => by rw [part_addStakeChange laws, if_neg htu]) l db

theorem part_recordStake_other (htu : t ≠ u) (db : HeedDb) (s : SubnetState)
    (next : SubnetCommittee) (requests : List StakeChangeRequest) :
    subnetPart X t (recordStake X db (.fromTxid20 u) s next requests) = subnetPart X t db := by
  rw [recordStake, part_foldl_addStakeChange_other laws htu, part_saveSubnetState laws, if_neg htu]

/-- A commit that does not concern the subnet leaves its part as it is. -/
theorem part_of_commit_hidden (hs : Sound X a) (h : Commit X a e a')
    (hnot : concerns X t e = false) : subnetPart X t a' = subnetPart X t a := by
  have hstate : ∀ {id s}, a.getSubnetState X id = some s → id ≠ .fromTxid20 t →
      ∃ u, id = .fromTxid20 u ∧ t ≠ u := by
    intro id s hst hne
    obtain ⟨u, rfl, -⟩ := hs.state laws hst
    exact ⟨u, rfl, fun htu => hne (congrArg _ htu.symm)⟩
  have hgenesis : ∀ {id g}, a.getSubnetGenesisInfo X id = some g → id ≠ .fromTxid20 t →
      ∃ u, id = .fromTxid20 u ∧ t ≠ u := by
    intro id g hg hne
    obtain ⟨-, ⟨u, rfl⟩, -⟩ := hs.genesis _ _ hg
    exact ⟨u, rfl, fun htu => hne (congrArg _ htu.symm)⟩
  cases h with
  | @createSubnet ctx tx m =>
    have hne : ¬ t = Txid20.fromTxid (X.computeTxid tx) := fun h =>
      of_decide_eq_false hnot h.symm
    exact (part_saveSubnetGenesisInfo laws _ _).trans (if_neg hne)
  | @joinSubnet ctx tx m₀ m saved _ _ hsave =>
    have hid : m.subnetId ≠ .fromTxid20 t := of_decide_eq_false hnot
    cases hst : a.getSubnetState X m.subnetId with
    | none =>
      obtain ⟨g, hg, -, -, hsaved⟩ := IpcJoinSubnetMsg.saveToDb_pre hst hsave
      obtain ⟨u, hu, htu⟩ := hgenesis hg hid
      rw [hu] at hsaved
      rcases hsaved with ⟨-, rfl⟩ | ⟨s, -, -, rfl⟩
      · rw [part_saveSubnetGenesisInfo laws, if_neg htu]
      · rw [part_saveCommittee laws, if_neg htu, part_saveSubnetGenesisInfo laws, if_neg htu,
          part_saveSubnetState laws, if_neg htu]
    | some s =>
      obtain ⟨next, -, -, -, rfl⟩ := IpcJoinSubnetMsg.saveToDb_post hst hsave
      obtain ⟨u, hu, htu⟩ := hstate hst hid
      rw [hu]
      exact part_recordStake_other laws htu _ _ _ _
  | prefundSubnet _ _ hsave =>
    obtain ⟨g, hg, -, rfl⟩ := IpcPrefundSubnetMsg.saveToDb_eq_ok hsave
    obtain ⟨u, hu, htu⟩ := hgenesis hg (of_decide_eq_false hnot)
    rw [hu, part_saveSubnetGenesisInfo laws, if_neg htu]
  | fundSubnet _ _ hsave =>
    obtain ⟨s, hst, rfl⟩ := IpcFundSubnetMsg.saveToDb_eq_ok hsave
    obtain ⟨u, hu, htu⟩ := hstate hst (of_decide_eq_false hnot)
    rw [hu, part_addRootnetMsg laws, if_neg htu]
  | checkpointSubnet _ _ hsave =>
    obtain ⟨s, change, hst, -, rfl⟩ := IpcCheckpointSubnetMsg.saveToDb_eq_ok hsave
    obtain ⟨u, hu, htu⟩ := hstate hst (of_decide_eq_false hnot)
    have hadd : ∀ (l : List StakeChangeRequest) (d : HeedDb), subnetPart X t (l.foldl
        (fun d c => d.addStakeChange X (.fromTxid20 u) c) d) = subnetPart X t d :=
      part_foldl_addStakeChange_other laws htu
    cases change with
    | none =>
      simp only [IpcCheckpointSubnetMsg.checkpointedDb, hu]
      rw [part_saveCheckpoint laws, if_neg htu, part_saveSubnetState laws, if_neg htu]
    | some c =>
      simp only [IpcCheckpointSubnetMsg.checkpointedDb, hu, HeedDb.confirmStakeChanges]
      rw [hadd, part_saveCommittee laws, if_neg htu, part_saveCheckpoint laws, if_neg htu,
        part_saveSubnetState laws, if_neg htu]
  | @batchTransfer ctx tx m₀ m saved hparsed hcheck hsave =>
    simp only [concerns, Bool.or_eq_false_iff, decide_eq_false_iff_not, List.any_eq_false,
      decide_eq_true_eq, Bool.not_eq_false', List.isEmpty_iff] at hnot
    obtain ⟨⟨⟨hid, hnone⟩, hnative⟩, herc⟩ := hnot
    obtain ⟨hhome, hhome'⟩ := fromTx_homes hparsed
    have hm := checkBatch_eq hcheck
    obtain ⟨s, n, record, hst, -⟩ := IpcBatchTransferMsg.saveToDb_eq_ok hsave
    obtain ⟨u, hu, htu⟩ := hstate hst hid
    refine quiet_batchTransfer laws hu htu hnone ?_ ?_ hsave
    · intro e he
      obtain ⟨d, hd⟩ := hhome e (by rw [hm] at he; exact he)
      exact ⟨d, hd, fun htd => hnative e he (hd.trans (congrArg _ htd.symm))⟩
    · intro e he
      obtain ⟨d, hd⟩ := hhome' e (by rw [hm] at he; exact he)
      exact ⟨d, hd, fun htd => herc e he (hd.trans (congrArg _ htd.symm))⟩
  | stakeCollateral _ _ hsave =>
    obtain ⟨s, v, next, hst, -, -, rfl⟩ := IpcStakeCollateralMsg.saveToDb_eq_ok hsave
    obtain ⟨u, hu, htu⟩ := hstate hst (of_decide_eq_false hnot)
    rw [hu]
    exact part_recordStake_other laws htu _ _ _ _
  | unstakeCollateral _ _ hsave =>
    obtain ⟨s, v, next, hst, -, -, -, -, rfl⟩ := IpcUnstakeCollateralMsg.saveToDb_eq_ok hsave
    obtain ⟨u, hu, htu⟩ := hstate hst (of_decide_eq_false hnot)
    rw [hu]
    exact part_recordStake_other laws htu _ _ _ _
  | killSubnet _ _ hsave =>
    obtain ⟨s, r, hst, hsaved⟩ := IpcKillSubnetMsg.saveToDb_eq_ok hsave
    obtain ⟨u, hu, htu⟩ := hstate hst (of_decide_eq_false hnot)
    rw [hu] at hsaved
    rcases hsaved with rfl | ⟨marked, -, rfl⟩
    · rw [part_addKillRequest laws, if_neg htu]
    · rw [part_saveSubnetState laws, if_neg htu, part_addKillRequest laws, if_neg htu]
  | transaction => rfl
  | rewards hr =>
    obtain ⟨c, r, rfl⟩ := hr
    rfl
  | block => rfl

/-- The same commit that concerns the subnet does the same to equal parts. -/
theorem part_of_commit_seen (hs : Sound X a) (hs' : Sound X b) (ha : Commit X a e a')
    (hb : Commit X b e b') (hsees : concerns X t e = true)
    (h : subnetPart X t a = subnetPart X t b) : subnetPart X t a' = subnetPart X t b' := by
  cases ha with
  | @createSubnet ctx tx m =>
    cases hb
    refine (part_saveSubnetGenesisInfo laws _ _).trans ?_
    rw [h]
    exact (part_saveSubnetGenesisInfo laws _ _).symm
  | @joinSubnet ctx tx m₀ m saved _ _ hsave =>
    obtain _ | ⟨_, _, hsave'⟩ := hb
    have hid : m.subnetId = .fromTxid20 t := of_decide_eq_true hsees
    exact congrArg Prod.fst (agree_of_mapped
      (fun db => m.saveToDb X db ctx.blockHeight ctx.blockHash (X.computeTxid tx))
      (fun db => joinSubnet_own laws db hid) h hsave hsave')
  | @prefundSubnet ctx tx m _ _ _ hsave =>
    obtain _ | _ | ⟨_, _, hsave'⟩ := hb
    have hid : m.subnetId = .fromTxid20 t := of_decide_eq_true hsees
    exact agree_of_mapped (fun db => m.saveToDb X db ctx.blockHeight (X.computeTxid tx))
      (fun db => prefundSubnet_own laws db hid) h hsave hsave'
  | @fundSubnet ctx tx m _ _ _ hsave =>
    obtain _ | _ | _ | ⟨_, _, hsave'⟩ := hb
    have hid : m.subnetId = .fromTxid20 t := of_decide_eq_true hsees
    exact agree_of_mapped
      (fun db => m.saveToDb X db ctx.blockHeight ctx.blockHash (X.computeTxid tx))
      (fun db => fundSubnet_own laws db hid) h hsave hsave'
  | @checkpointSubnet ctx tx m saved _ _ hsave =>
    obtain _ | _ | _ | _ | ⟨_, _, hsave'⟩ := hb
    have hid : m.subnetId = .fromTxid20 t := of_decide_eq_true hsees
    exact congrArg Prod.fst (agree_of_mapped
      (fun db => m.saveToDb X db ctx.blockHeight ctx.blockHash (X.computeTxid tx))
      (fun db => checkpointSubnet_own laws db hid) h hsave hsave')
  | @batchTransfer ctx tx m₀ m saved hparsed hcheck hsave =>
    obtain _ | _ | _ | _ | _ | ⟨_, _, hsave'⟩ := hb
    obtain ⟨hhome, hhome'⟩ := fromTx_homes hparsed
    have hm := checkBatch_eq hcheck
    obtain ⟨s, n, record, hst, -⟩ := IpcBatchTransferMsg.saveToDb_eq_ok hsave
    obtain ⟨u, hu, -⟩ := hs.state laws hst
    refine agree_batchTransfer laws hu ?_ ?_ hs hs' h hsave hsave'
    · rw [hm]
      exact hhome
    · rw [hm]
      exact hhome'
  | @stakeCollateral ctx tx m _ _ _ hsave =>
    obtain _ | _ | _ | _ | _ | _ | ⟨_, _, hsave'⟩ := hb
    have hid : m.subnetId = .fromTxid20 t := of_decide_eq_true hsees
    exact agree_of_mapped
      (fun db => m.saveToDb X db ctx.blockHeight ctx.blockHash (X.computeTxid tx))
      (fun db => stakeCollateral_own laws db hid) h hsave hsave'
  | @unstakeCollateral ctx tx m _ _ _ hsave =>
    obtain _ | _ | _ | _ | _ | _ | _ | ⟨_, _, hsave'⟩ := hb
    have hid : m.subnetId = .fromTxid20 t := of_decide_eq_true hsees
    exact agree_of_mapped
      (fun db => m.saveToDb X db ctx.blockHeight ctx.blockHash (X.computeTxid tx))
      (fun db => unstakeCollateral_own laws db hid) h hsave hsave'
  | @killSubnet ctx tx m _ _ _ hsave =>
    obtain _ | _ | _ | _ | _ | _ | _ | _ | ⟨_, _, hsave'⟩ := hb
    have hid : m.subnetId = .fromTxid20 t := of_decide_eq_true hsees
    exact agree_of_mapped
      (fun db => m.saveToDb X db ctx.blockHeight ctx.blockHash (X.computeTxid tx))
      (fun db => killSubnet_own laws db hid) h hsave hsave'
  | transaction => cases hsees
  | rewards => cases hsees
  | block => cases hsees

/-- The commits of the monitor unwind for every subnet. -/
theorem unwinds_commit : Unwinds (Commit X) (Sound X) (concerns X t) (subnetPart X t) where
  kept := fun hs h => hs.commit laws h
  hidden := fun hs h hnot => part_of_commit_hidden laws hs h hnot
  seen := fun hs hs' ha hb hsees hsame => part_of_commit_seen laws hs hs' ha hb hsees hsame

end Commits

/-- The two databases answer alike about the subnet. -/
structure SameAnswers (X : Library) (t : Txid20) (a b : HeedDb) : Prop where
  genesis : getGenesisInfo X a (.fromTxid20 t) = getGenesisInfo X b (.fromTxid20 t)
  state : getSubnet X a (.fromTxid20 t) = getSubnet X b (.fromTxid20 t)
  messages : ∀ h, getRootnetMessages X a (.fromTxid20 t) h =
    getRootnetMessages X b (.fromTxid20 t) h
  stakeChanges : ∀ h, getStakeChanges X a (.fromTxid20 t) h = getStakeChanges X b (.fromTxid20 t) h
  killRequests : a.getLastProcessedBlock = b.getLastProcessedBlock →
    getKillRequests X a (.fromTxid20 t) = getKillRequests X b (.fromTxid20 t)
  checkpoints : ∀ n, getSubnetCheckpoint X a (.fromTxid20 t) n =
    getSubnetCheckpoint X b (.fromTxid20 t) n
  balances : ∀ home token, getTokenBalance X a home token (.fromTxid20 t) =
    getTokenBalance X b home token (.fromTxid20 t)

/-- The answers are read from the part of the subnet. -/
theorem sameAnswers_of_part {a b : HeedDb} (h : subnetPart X t a = subnetPart X t b) :
    SameAnswers X t a b := by
  have hgenesis : a.getSubnetGenesisInfo X (.fromTxid20 t) =
      b.getSubnetGenesisInfo X (.fromTxid20 t) := by
    rw [← getSubnetGenesisInfo_part a, h, getSubnetGenesisInfo_part]
  have hstate : a.getSubnetState X (.fromTxid20 t) = b.getSubnetState X (.fromTxid20 t) := by
    rw [← getSubnetState_part a, h, getSubnetState_part]
  have hmessages : a.getAllRootnetMsgs X (.fromTxid20 t) =
      b.getAllRootnetMsgs X (.fromTxid20 t) := by
    rw [← getAllRootnetMsgs_part a, h, getAllRootnetMsgs_part]
  have hchanges : a.getAllStakeChanges X (.fromTxid20 t) =
      b.getAllStakeChanges X (.fromTxid20 t) := by
    rw [← getAllStakeChanges_part a, h, getAllStakeChanges_part]
  have hkills : ∀ n, a.getValidKillRequests X (.fromTxid20 t) n =
      b.getValidKillRequests X (.fromTxid20 t) n := fun n => by
    rw [← getValidKillRequests_part a, h, getValidKillRequests_part]
  have hcheckpoints : ∀ n, a.getCheckpoint X (.fromTxid20 t) n =
      b.getCheckpoint X (.fromTxid20 t) n := fun n => by
    rw [← getCheckpoint_part a, h, getCheckpoint_part]
  constructor
  case genesis => rw [getGenesisInfo, getGenesisInfo, readGenesis, readGenesis, hgenesis]
  case state => rw [getSubnet, getSubnet, readState, readState, hstate]
  case messages =>
    intro n
    simp only [getRootnetMessages, readState, hstate, HeedDb.getRootnetMsgsByHeight, hmessages]
  case stakeChanges =>
    intro n
    simp only [getStakeChanges, readState, hstate, HeedDb.getStakeChangesByHeight, hchanges]
  case killRequests =>
    intro hheight
    simp only [getKillRequests, readState, hstate, hkills, hheight]
  case checkpoints =>
    intro n
    simp only [getSubnetCheckpoint, readState, hstate, hcheckpoints]
  case balances =>
    intro home token
    rw [Provider.getTokenBalance, Provider.getTokenBalance, agree_getTokenBalance h]

/-- What the provider answers about a subnet depends on nothing but the messages that concern
it, in their order: however many other subnets there are, and whatever is saved for them
before, between and after. -/
theorem subnets_isolated (laws : DisplayLaws X) (t : Txid20) {l l' : List (Event × HeedDb)}
    (hl : Trail (Commit X) HeedDb.empty l) (hl' : Trail (Commit X) HeedDb.empty l')
    (hsame : seenEvents (concerns X t) l = seenEvents (concerns X t) l') :
    SameAnswers X t (lastStore HeedDb.empty l) (lastStore HeedDb.empty l') :=
  sameAnswers_of_part
    ((unwinds_commit laws).view_lastStore sound_empty sound_empty rfl hl hl' hsame)

section Neighbours

open Solo

theorem commit_create {tx : Transaction} (h : (.createSubnet (createMsg 10000) : IpcMessage) ∈
    witnessMessages (library 10000 []) tx) (db : HeedDb) :
    Commit (library 10000 []) db (.message context tx (.createSubnet (createMsg 10000)))
      ((createMsg 10000).saveToDb (library 10000 []) db 1
        ((library 10000 []).computeTxid tx)).1 := by
  refine .createSubnet h ?_
  decide +kernel

/-- The subnet answers alike with and without a neighbour. -/
theorem subnets_isolated_from_neighbour : ∃ alone crowded : List (Event × HeedDb),
    Trail (Commit (library 10000 [])) HeedDb.empty alone ∧
      Trail (Commit (library 10000 [])) HeedDb.empty crowded ∧
      (lastStore HeedDb.empty alone).subnetGenesisDb.entries.length = 1 ∧
      (lastStore HeedDb.empty crowded).subnetGenesisDb.entries.length = 2 ∧
      SameAnswers (library 10000 []) subnet (lastStore HeedDb.empty alone)
        (lastStore HeedDb.empty crowded) := by
  have hcreate : (.createSubnet (createMsg 10000) : IpcMessage) ∈
      witnessMessages (library 10000 []) createTx := by decide +kernel
  have hneighbour : (.createSubnet (createMsg 10000) : IpcMessage) ∈
      witnessMessages (library 10000 []) (otherCreateTx 20) := by decide +kernel
  have hsees : concerns (library 10000 []) subnet
      (.message context createTx (.createSubnet (createMsg 10000))) = true := by decide +kernel
  have hnot : concerns (library 10000 []) subnet
      (.message context (otherCreateTx 20) (.createSubnet (createMsg 10000))) = false := by decide +kernel
  have hlaws : DisplayLaws (library 10000 []) := displayLaws_ideal _
  refine ⟨[(_, _)], [(_, _), (_, _)], ⟨commit_create hcreate _, trivial⟩,
    ⟨commit_create hneighbour _, commit_create hcreate _, trivial⟩, ?_, ?_,
    subnets_isolated hlaws subnet ⟨commit_create hcreate _, trivial⟩
      ⟨commit_create hneighbour _, commit_create hcreate _, trivial⟩ ?_⟩
  · decide +kernel
  · decide +kernel
  · rw [seenEvents_seen hsees, seenEvents_hidden hnot, seenEvents_seen hsees]

end Neighbours

end Monitor
