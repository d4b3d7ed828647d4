import BitcoinIpc.Db
import BitcoinIpc.Lib.OrderedTable
import BitcoinIpc.Lib.Text
import Mathlib.Data.Char

/-!
# The database

The tables of the monitor's database and the keys under which records are
stored. A key is the text the source formats. Tables are iterated in key order,
and the next number of a log is the number of keys under the prefix of its
subnet.
-/

namespace Db

open Faults Bytes Chain Messages Crates Multisig OrderedTable Text

abbrev Key := List Char

structure HeedDb where
  monitorInfo : Option Nat
  subnetDb : Table Key SubnetState
  subnetGenesisDb : Table Key SubnetGenesisInfo
  checkpointsDb : Table Key SubnetCheckpoint
  rootnetMsgsDb : Table Key RootnetMessage
  transactionsDb : Table Key Transaction
  committeeDb : Table Key SubnetCommittee
  stakeChangesDb : Table Key StakeChangeRequest
  killRequestsDb : Table Key KillRequest
  rewardCandidatesDb : Table Key SubnetRewardInfo
  rewardResultsDb : Table Key SnapshotResult
  tokenBalancesDb : Table Key U256
deriving DecidableEq

def HeedDb.empty : HeedDb :=
  ⟨none, .empty, .empty, .empty, .empty, .empty, .empty, .empty, .empty, .empty, .empty, .empty⟩

section Keys

variable (X : Library)

/-- The key of a record of a subnet, under the name of its table. -/
def subnetKey (table : String) (s : SubnetId) : Key :=
  table.toList ++ ':' :: subnetDisplay X s

/-- The key of a numbered record of a subnet. -/
def numberedKey (table : String) (s : SubnetId) (n : Nat) : Key :=
  subnetKey X table s ++ ':' :: decimal n

def subnetStateKey : SubnetId → Key := subnetKey X "subnet_state:"
def allSubnetsPrefix : Key := "subnet_state:".toList
def subnetGenesisInfoKey : SubnetId → Key := subnetKey X "subnet_genesis_info:"
def rootnetMsgsPrefix : SubnetId → Key := subnetKey X "rootnet_msgs:"
def rootnetMsgsKey : SubnetId → Nat → Key := numberedKey X "rootnet_msgs:"
def checkpointsKey : SubnetId → Nat → Key := numberedKey X "checkpoints:"
def committeeKey : SubnetId → Nat → Key := numberedKey X "committee:"
def stakeChangesPrefix : SubnetId → Key := subnetKey X "stake_changes:"
def stakeChangeKey : SubnetId → Nat → Key := numberedKey X "stake_changes:"

/-- `Display` of a transaction id: its bytes from the last to the first. -/
def txidDisplay (t : Txid) : List Char := hexBytes t.bytes.reverse

def transactionKey (t : Txid) : Key := "transactions:".toList ++ ':' :: txidDisplay t

def killRequestsPrefix : SubnetId → Key := subnetKey X "kill_requests:"

def killRequestKey (s : SubnetId) (blockHeight : Nat) (txid : Txid) : Key :=
  numberedKey X "kill_requests:" s blockHeight ++ ':' :: txidDisplay txid

def rewardCandidatesPrefix (snapshot : Nat) : Key :=
  "reward_candidates:".toList ++ ':' :: (decimal snapshot ++ [':'])

def rewardCandidateKey (snapshot : Nat) (s : SubnetId) : Key :=
  "reward_candidates:".toList ++ ':' :: (decimal snapshot ++ ':' :: subnetDisplay X s)

def rewardResultKey (snapshot : Nat) : Key :=
  "reward_results:".toList ++ ':' :: decimal snapshot

/-- Unlike the others, this key has one colon after the name of its table. -/
def tokenBalanceKey (home : SubnetId) (token : EthAddress) (holder : SubnetId) : Key :=
  "token_balance:".toList ++
    (subnetDisplay X home ++ ':' :: (X.ethDisplay token ++ ':' :: subnetDisplay X holder))

section Laws

variable {X : Library} (laws : DisplayLaws X)
include laws

theorem subnetKey_injective (table : String) : Function.Injective (subnetKey X table) := by
  intro s s' h
  have h' : subnetDisplay X s = subnetDisplay X s' :=
    List.tail_eq_of_cons_eq (List.append_cancel_left h)
  exact subnetDisplay_injective laws h'

theorem numberedKey_inj {table : String} {s s' : SubnetId} {n n' : Nat}
    (h : numberedKey X table s n = numberedKey X table s' n') : s = s' ∧ n = n' := by
  simp only [numberedKey, subnetKey, List.append_assoc, List.append_cancel_left_eq,
    List.cons_append, List.cons.injEq, true_and] at h
  obtain ⟨hs, hn⟩ := join_inj (subnetDisplay_no_colon laws s) (subnetDisplay_no_colon laws s') h
  exact ⟨subnetDisplay_injective laws hs, decimal_injective hn⟩

theorem tokenBalanceKey_inj {home home' : SubnetId} {token token' : EthAddress}
    {holder holder' : SubnetId}
    (h : tokenBalanceKey X home token holder = tokenBalanceKey X home' token' holder') :
    home = home' ∧ token = token' ∧ holder = holder' := by
  obtain ⟨hhome, hrest⟩ := join_inj (subnetDisplay_no_colon laws home)
    (subnetDisplay_no_colon laws home') (List.append_cancel_left h)
  obtain ⟨htoken, hholder⟩ := join_inj (laws.eth_no_colon token) (laws.eth_no_colon token') hrest
  exact ⟨subnetDisplay_injective laws hhome, laws.eth_injective htoken,
    subnetDisplay_injective laws hholder⟩

/-- The prefix of a subnet selects its own records and no others. -/
theorem isPrefixOf_subnetKey (table : String) (t u : Txid20) (rest : Key) :
    (subnetKey X table (.fromTxid20 t)).isPrefixOf (subnetKey X table (.fromTxid20 u) ++ rest) =
      decide (t = u) := by
  rw [Bool.eq_iff_iff, List.isPrefixOf_iff_prefix, decide_eq_true_iff]
  constructor
  · intro h
    have hlen : (subnetKey X table (.fromTxid20 t)).length =
        (subnetKey X table (.fromTxid20 u)).length := by
      simp only [subnetKey, subnetDisplay, List.length_append, List.length_cons]
      rw [laws.delegated_length t u]
    have := eq_of_prefix_of_length hlen h
    exact SubnetId.fromTxid20_injective (subnetKey_injective laws table this)
  · rintro rfl
    exact List.prefix_append _ _

theorem isPrefixOf_numberedKey (table : String) (t u : Txid20) (n : Nat) :
    (subnetKey X table (.fromTxid20 t)).isPrefixOf (numberedKey X table (.fromTxid20 u) n) =
      decide (t = u) :=
  isPrefixOf_subnetKey laws table t u _

end Laws

theorem transactionKey_injective : Function.Injective transactionKey := by
  intro a b h
  have h' : txidDisplay a = txidDisplay b :=
    List.tail_eq_of_cons_eq (List.append_cancel_left h)
  exact FixedBytes.ext_bytes (List.reverse_injective (hexBytes_injective h'))

theorem isPrefixOf_subnetStateKey (s : SubnetId) :
    allSubnetsPrefix.isPrefixOf (subnetStateKey X s) = true := by
  rw [List.isPrefixOf_iff_prefix]
  exact List.prefix_append _ _

end Keys

namespace HeedDb

def getLastProcessedBlock (db : HeedDb) : Nat := db.monitorInfo.getD 0

def setLastProcessedBlock (db : HeedDb) (blockHeight : Nat) : HeedDb :=
  { db with monitorInfo := some blockHeight }

variable (X : Library) (db : HeedDb)

def getSubnetGenesisInfo (s : SubnetId) : Option SubnetGenesisInfo :=
  db.subnetGenesisDb.get (subnetGenesisInfoKey X s)

def saveSubnetGenesisInfo (s : SubnetId) (g : SubnetGenesisInfo) : HeedDb :=
  { db with subnetGenesisDb := db.subnetGenesisDb.put (subnetGenesisInfoKey X s) g }

def getSubnetState (s : SubnetId) : Option SubnetState := db.subnetDb.get (subnetStateKey X s)

def saveSubnetState (s : SubnetId) (st : SubnetState) : HeedDb :=
  { db with subnetDb := db.subnetDb.put (subnetStateKey X s) st }

def getAllSubnets : List SubnetState :=
  db.subnetDb.scan (fun k => allSubnetsPrefix.isPrefixOf k)

/-- The first subnet, in key order, whose current committee has the address. -/
def getSubnetByMultisigAddress (a : Address) : Option SubnetState :=
  (db.subnetDb.scan (fun _ => true)).find? (fun st => st.committee.multisigAddress = a)

def getAllRootnetMsgs (s : SubnetId) : List RootnetMessage :=
  db.rootnetMsgsDb.scan (fun k => (rootnetMsgsPrefix X s).isPrefixOf k)

def getRootnetMsgsByHeight (s : SubnetId) (blockHeight : Nat) : List RootnetMessage :=
  (db.getAllRootnetMsgs X s).filter (fun m => m.blockHeight = blockHeight)

def getLastRootnetMsgNonce (s : SubnetId) : Option Nat :=
  let count := (db.getAllRootnetMsgs X s).length
  if count = 0 then none else some (count - 1)

def getNextRootnetMsgNonce (s : SubnetId) : Nat :=
  match db.getLastRootnetMsgNonce X s with
  | some n => n + 1
  | none => 0

def getRootnetMsg (s : SubnetId) (nonce : Nat) : Option RootnetMessage :=
  db.rootnetMsgsDb.get (rootnetMsgsKey X s nonce)

def addRootnetMsg (s : SubnetId) (msg : RootnetMessage) : HeedDb :=
  { db with rootnetMsgsDb := db.rootnetMsgsDb.put (rootnetMsgsKey X s msg.nonce) msg }

def getCheckpoint (s : SubnetId) (number : Nat) : Option SubnetCheckpoint :=
  db.checkpointsDb.get (checkpointsKey X s number)

def saveCheckpoint (s : SubnetId) (c : SubnetCheckpoint) (number : Nat) : HeedDb :=
  { db with checkpointsDb := db.checkpointsDb.put (checkpointsKey X s number) c }

def getTransaction (txid : Txid) : Option Transaction :=
  db.transactionsDb.get (transactionKey txid)

def saveTransaction (tx : Transaction) : HeedDb :=
  { db with transactionsDb := db.transactionsDb.put (transactionKey (X.computeTxid tx)) tx }

def getCommittee (s : SubnetId) (committeeNumber : Nat) : Option SubnetCommittee :=
  db.committeeDb.get (committeeKey X s committeeNumber)

def saveCommittee (s : SubnetId) (committeeNumber : Nat) (c : SubnetCommittee) : HeedDb :=
  { db with committeeDb := db.committeeDb.put (committeeKey X s committeeNumber) c }

def getStakeChange (s : SubnetId) (configurationNumber : Nat) : Option StakeChangeRequest :=
  db.stakeChangesDb.get (stakeChangeKey X s configurationNumber)

def getAllStakeChanges (s : SubnetId) : List StakeChangeRequest :=
  db.stakeChangesDb.scan (fun k => (stakeChangesPrefix X s).isPrefixOf k)

def getUnconfirmedStakeChanges (s : SubnetId) : List StakeChangeRequest :=
  (db.getAllStakeChanges X s).filter (fun c => c.checkpointBlockHeight.isNone)

def getStakeChangesByHeight (s : SubnetId) (blockHeight : Nat) : List StakeChangeRequest :=
  (db.getAllStakeChanges X s).filter (fun c => c.blockHeight = blockHeight)

def getLastStakeChangeConfigurationNumber (s : SubnetId) : Nat :=
  let count := (db.getAllStakeChanges X s).length
  if count = 0 then genesisCommitteeConfNum else count

def getNextStakeChangeConfigurationNumber (s : SubnetId) : Nat :=
  db.getLastStakeChangeConfigurationNumber X s + 1

def addStakeChange (s : SubnetId) (c : StakeChangeRequest) : HeedDb :=
  { db with stakeChangesDb := db.stakeChangesDb.put (stakeChangeKey X s c.configurationNumber) c }

/-- Whether `confirm_stake_changes` confirms the change. -/
def confirms (maxConfigurationNumber : Nat) (c : StakeChangeRequest) : Bool :=
  c.checkpointBlockHeight.isNone && c.configurationNumber ≤ maxConfigurationNumber

def confirmed (blockHeight : Nat) (blockHash : BlockHash) (c : StakeChangeRequest) :
    StakeChangeRequest :=
  { c with checkpointBlockHeight := some blockHeight, checkpointBlockHash := some blockHash }

/-- Writes back, confirmed, the open changes up to the given number. Its callers
ignore what the source returns. -/
def confirmStakeChanges (s : SubnetId) (maxConfigurationNumber blockHeight : Nat)
    (blockHash : BlockHash) : HeedDb :=
  let changes := (db.getAllStakeChanges X s).filter (confirms maxConfigurationNumber)
  (changes.map (confirmed blockHeight blockHash)).foldl (fun d c => d.addStakeChange X s c) db

def addKillRequest (s : SubnetId) (r : KillRequest) : HeedDb :=
  { db with killRequestsDb :=
      db.killRequestsDb.put (killRequestKey X s r.blockHeight r.txid) r }

def getValidKillRequests (s : SubnetId) (currentBlockHeight : Nat) : List KillRequest :=
  (db.killRequestsDb.scan (fun k => (killRequestsPrefix X s).isPrefixOf k)).filter
    (fun r => currentBlockHeight - killRequestValidBlocks ≤ r.blockHeight)

def getTokenBalance (home : SubnetId) (token : EthAddress) (holder : SubnetId) : U256 :=
  (db.tokenBalancesDb.get (tokenBalanceKey X home token holder)).getD 0

def setTokenBalance (home : SubnetId) (token : EthAddress) (holder : SubnetId)
    (balance : U256) : HeedDb :=
  { db with tokenBalancesDb :=
      db.tokenBalancesDb.put (tokenBalanceKey X home token holder) balance }

def getRewardCandidateInfo (snapshot : Nat) (s : SubnetId) : Option SubnetRewardInfo :=
  db.rewardCandidatesDb.get (rewardCandidateKey X snapshot s)

def putRewardCandidateInfo (snapshot : Nat) (s : SubnetId) (i : SubnetRewardInfo) : HeedDb :=
  { db with rewardCandidatesDb := db.rewardCandidatesDb.put (rewardCandidateKey X snapshot s) i }

def deleteRewardCandidateInfo (snapshot : Nat) (s : SubnetId) : HeedDb :=
  { db with rewardCandidatesDb := db.rewardCandidatesDb.delete (rewardCandidateKey X snapshot s) }

def putSnapshotResult (snapshot : Nat) (r : SnapshotResult) : HeedDb :=
  { db with rewardResultsDb := db.rewardResultsDb.put (rewardResultKey snapshot) r }

section Laws

variable {X} (laws : DisplayLaws X)
include laws

theorem getSubnetState_save (s s' : SubnetId) (st : SubnetState) :
    (db.saveSubnetState X s st).getSubnetState X s' =
      if s' = s then some st else db.getSubnetState X s' := by
  simp only [getSubnetState, saveSubnetState, Table.get_put, subnetStateKey,
    (subnetKey_injective laws _).eq_iff]

theorem getSubnetGenesisInfo_save (s s' : SubnetId) (g : SubnetGenesisInfo) :
    (db.saveSubnetGenesisInfo X s g).getSubnetGenesisInfo X s' =
      if s' = s then some g else db.getSubnetGenesisInfo X s' := by
  simp only [getSubnetGenesisInfo, saveSubnetGenesisInfo, Table.get_put, subnetGenesisInfoKey,
    (subnetKey_injective laws _).eq_iff]

theorem numberedKey_eq_iff {table : String} {s s' : SubnetId} {n n' : Nat} :
    numberedKey X table s n = numberedKey X table s' n' ↔ s = s' ∧ n = n' :=
  ⟨numberedKey_inj laws, fun h => by rw [h.1, h.2]⟩

theorem getStakeChange_add (s s' : SubnetId) (c : StakeChangeRequest) (n : Nat) :
    (db.addStakeChange X s c).getStakeChange X s' n =
      if s' = s ∧ n = c.configurationNumber then some c else db.getStakeChange X s' n := by
  simp only [getStakeChange, addStakeChange, Table.get_put, stakeChangeKey,
    numberedKey_eq_iff laws]

theorem getCheckpoint_save (s s' : SubnetId) (c : SubnetCheckpoint) (n n' : Nat) :
    (db.saveCheckpoint X s c n).getCheckpoint X s' n' =
      if s' = s ∧ n' = n then some c else db.getCheckpoint X s' n' := by
  simp only [getCheckpoint, saveCheckpoint, Table.get_put, checkpointsKey,
    numberedKey_eq_iff laws]

theorem getCommittee_save (s s' : SubnetId) (c : SubnetCommittee) (n n' : Nat) :
    (db.saveCommittee X s n c).getCommittee X s' n' =
      if s' = s ∧ n' = n then some c else db.getCommittee X s' n' := by
  simp only [getCommittee, saveCommittee, Table.get_put, committeeKey, numberedKey_eq_iff laws]

theorem getTokenBalance_set (home home' : SubnetId) (token token' : EthAddress)
    (holder holder' : SubnetId) (b : U256) :
    (db.setTokenBalance X home token holder b).getTokenBalance X home' token' holder' =
      if home' = home ∧ token' = token ∧ holder' = holder then b
      else db.getTokenBalance X home' token' holder' := by
  have key : tokenBalanceKey X home' token' holder' = tokenBalanceKey X home token holder ↔
      home' = home ∧ token' = token ∧ holder' = holder :=
    ⟨tokenBalanceKey_inj laws, fun h => by rw [h.1, h.2.1, h.2.2]⟩
  simp only [getTokenBalance, setTokenBalance, Table.get_put, key]
  split <;> rfl

theorem getAllStakeChanges_add_other {t u : Txid20} (h : t ≠ u) (c : StakeChangeRequest) :
    (db.addStakeChange X (.fromTxid20 u) c).getAllStakeChanges X (.fromTxid20 t) =
      db.getAllStakeChanges X (.fromTxid20 t) := by
  apply Table.scan_put_of_not
  rw [stakeChangesPrefix, stakeChangeKey, isPrefixOf_numberedKey laws]
  exact decide_eq_false h

theorem getAllStakeChanges_add_fresh {t : Txid20} {c : StakeChangeRequest}
    (h : db.getStakeChange X (.fromTxid20 t) c.configurationNumber = none) :
    ((db.addStakeChange X (.fromTxid20 t) c).getAllStakeChanges X (.fromTxid20 t)).Perm
      (c :: db.getAllStakeChanges X (.fromTxid20 t)) := by
  apply Table.scan_put_perm _ _ _ _ _ h
  rw [stakeChangesPrefix, stakeChangeKey, isPrefixOf_numberedKey laws]
  exact decide_eq_true rfl

omit laws in
theorem length_getAllStakeChanges_add_present {s : SubnetId} {c c' : StakeChangeRequest}
    (s' : SubnetId) (h : db.getStakeChange X s c.configurationNumber = some c') :
    ((db.addStakeChange X s c).getAllStakeChanges X s').length =
      (db.getAllStakeChanges X s').length :=
  Table.scan_put_length _ _ _ _ _ h

theorem getAllRootnetMsgs_add_other {t u : Txid20} (h : t ≠ u) (m : RootnetMessage) :
    (db.addRootnetMsg X (.fromTxid20 u) m).getAllRootnetMsgs X (.fromTxid20 t) =
      db.getAllRootnetMsgs X (.fromTxid20 t) := by
  apply Table.scan_put_of_not
  rw [rootnetMsgsPrefix, rootnetMsgsKey, isPrefixOf_numberedKey laws]
  exact decide_eq_false h

end Laws

theorem getTransaction_save (tx : Transaction) (txid : Txid) :
    (db.saveTransaction X tx).getTransaction txid =
      if txid = X.computeTxid tx then some tx else db.getTransaction txid := by
  simp only [getTransaction, saveTransaction, Table.get_put, transactionKey_injective.eq_iff]

theorem getNextStakeChangeConfigurationNumber_eq (s : SubnetId) :
    db.getNextStakeChangeConfigurationNumber X s = (db.getAllStakeChanges X s).length + 1 := by
  simp only [getNextStakeChangeConfigurationNumber, getLastStakeChangeConfigurationNumber,
    genesisCommitteeConfNum]
  split <;> omega

theorem getNextRootnetMsgNonce_eq (s : SubnetId) :
    db.getNextRootnetMsgNonce X s = (db.getAllRootnetMsgs X s).length := by
  simp only [getNextRootnetMsgNonce, getLastRootnetMsgNonce]
  by_cases h : (db.getAllRootnetMsgs X s).length = 0
  · simp [h]
  · simp only [h, if_false]
    omega

end HeedDb

end Db
