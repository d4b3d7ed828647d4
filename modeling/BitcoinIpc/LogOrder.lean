import BitcoinIpc.Logs

/-!
# The order of the log readers

The readers of a log return its entries in the order of their keys, which print
their numbers without leading zeros. This is the order of the numbers as long
as they all have one digit, and no longer: ten is printed before two.
-/

namespace Monitor

open Faults Bytes Chain Messages Crates Multisig Db Commits OrderedTable Text

variable {X : Library}

/-- A list of records in ascending order that holds exactly the wanted ones. -/
def Ascending {V : Type} (number : V → Nat) (wanted : V → Prop) (l : List V) : Prop :=
  l.Pairwise (fun a b => number a < number b) ∧ ∀ v, v ∈ l ↔ wanted v

/-- The readers return the matching entries of the logs of a subnet in log order. -/
structure ReadsInOrder (X : Library) (db : HeedDb) (t : Txid20) : Prop where
  allMessages : Ascending RootnetMessage.nonce
    (fun m => db.getRootnetMsg X (.fromTxid20 t) m.nonce = some m)
    (db.getAllRootnetMsgs X (.fromTxid20 t))
  messagesByHeight : ∀ h, Ascending RootnetMessage.nonce
    (fun m => db.getRootnetMsg X (.fromTxid20 t) m.nonce = some m ∧ m.blockHeight = h)
    (db.getRootnetMsgsByHeight X (.fromTxid20 t) h)
  allRequests : Ascending StakeChangeRequest.configurationNumber
    (fun c => db.getStakeChange X (.fromTxid20 t) c.configurationNumber = some c)
    (db.getAllStakeChanges X (.fromTxid20 t))
  unconfirmedRequests : Ascending StakeChangeRequest.configurationNumber
    (fun c => db.getStakeChange X (.fromTxid20 t) c.configurationNumber = some c ∧
      c.checkpointBlockHeight = none)
    (db.getUnconfirmedStakeChanges X (.fromTxid20 t))
  requestsByHeight : ∀ h, Ascending StakeChangeRequest.configurationNumber
    (fun c => db.getStakeChange X (.fromTxid20 t) c.configurationNumber = some c ∧
      c.blockHeight = h)
    (db.getStakeChangesByHeight X (.fromTxid20 t) h)

theorem Ascending.filter {V : Type} {number : V → Nat} {wanted more : V → Prop} {p : V → Bool}
    {l : List V} (h : Ascending number wanted l) (hp : ∀ v, p v = true ↔ more v) :
    Ascending number (fun v => wanted v ∧ more v) (l.filter p) := by
  refine ⟨h.1.filter p, ?_⟩
  intro v
  rw [List.mem_filter, h.2 v, hp v]

/-- The keys of the journal print the numbers after a text of the subnet. -/
def PrintsNumbers {V : Type} (J : Journal Txid20 Key V) : Prop :=
  ∀ t, ∃ start, ∀ n, J.key t n = start ++ decimal n

section Printed

variable {V : Type} {J : Journal Txid20 Key V} {t : Txid20} {table : Table Key V}

theorem ascending_of_digits (hp : PrintsNumbers J) (h : J.Kept table)
    (hcount : J.first + J.count table t ≤ 10) :
    Ascending J.number (fun v => table.get (J.key t (J.number v)) = some v)
      (table.scan (J.belongs t)) := by
  obtain ⟨start, hkey⟩ := hp t
  have hscan := Journal.scan_eq_records (i := t) h (by
    intro n m hnm hm
    rw [hkey, hkey]
    exact List.append_left_lt (decimal_lt_of_digit hnm (by omega)))
  refine ⟨?_, fun v => h.mem_scan⟩
  rw [hscan]
  exact Journal.records_sorted h t

/-- With a number of two digits the scan is not in order. -/
theorem digits_of_ascending (hp : PrintsNumbers J) (h : J.Kept table) (hfirst : J.first ≤ 2)
    (hsorted : (table.scan (J.belongs t)).Pairwise (fun a b => J.number a < J.number b)) :
    J.first + J.count table t ≤ 10 := by
  by_contra hlt
  obtain ⟨start, hkey⟩ := hp t
  have hscan : table.scan (J.belongs t) = J.records table t :=
    (Journal.scan_perm_records h t).eq_of_pairwise
      (fun _ _ _ _ hab hba => absurd hab (lt_asymm hba)) hsorted (Journal.records_sorted h t)
  have hkeys := Journal.key_lt_of_scan_eq h hscan hfirst (by omega : 2 < 10) (by omega)
  rw [hkey, hkey] at hkeys
  exact lt_asymm hkeys (List.append_left_lt decimal_ten_lt_two)

end Printed

section Reached

variable (laws : DisplayLaws X) {db : HeedDb}
include laws

theorem printsNumbers_messages : PrintsNumbers (messageJournal laws) := by
  intro t
  refine ⟨rootnetMsgsPrefix X (.fromTxid20 t) ++ [':'], ?_⟩
  intro n
  rw [List.append_assoc]
  rfl

theorem printsNumbers_requests : PrintsNumbers (requestJournal laws) := by
  intro t
  refine ⟨stakeChangesPrefix X (.fromTxid20 t) ++ [':'], ?_⟩
  intro n
  rw [List.append_assoc]
  rfl

/-- The readers of a subnet are in log order exactly when its next nonce and its next
configuration number are at most ten. -/
theorem readers_in_log_order_iff (h : Reachable X db) (t : Txid20) :
    ReadsInOrder X db t ↔ db.getNextRootnetMsgNonce X (.fromTxid20 t) ≤ 10 ∧
      db.getNextStakeChangeConfigurationNumber X (.fromTxid20 t) ≤ 10 := by
  obtain ⟨hm, hr⟩ := logs_kept laws h
  rw [HeedDb.getNextRootnetMsgNonce_eq, HeedDb.getNextStakeChangeConfigurationNumber_eq]
  constructor
  · intro hread
    have hmsgs := digits_of_ascending (t := t) (printsNumbers_messages laws) hm (Nat.zero_le 2)
      hread.allMessages.1
    have hreqs := digits_of_ascending (t := t) (printsNumbers_requests laws) hr (Nat.le_succ 1)
      hread.allRequests.1
    constructor
    · exact (Nat.zero_add _).symm.trans_le hmsgs
    · exact (Nat.add_comm _ 1).trans_le hreqs
  · rintro ⟨hmsgs, hreqs⟩
    have hall := ascending_of_digits (t := t) (printsNumbers_messages laws) hm
      ((Nat.zero_add _).trans_le hmsgs)
    have hrequests := ascending_of_digits (t := t) (printsNumbers_requests laws) hr
      ((Nat.add_comm 1 _).trans_le hreqs)
    exact ⟨hall, fun h => hall.filter (fun _ => decide_eq_true_iff), hrequests,
      hrequests.filter (fun _ => Option.isNone_iff_eq_none),
      fun h => hrequests.filter (fun _ => decide_eq_true_iff)⟩

end Reached

open Solo

/-- A subnet that is funded a number of times. -/
def fundedTxs (n : Nat) : List Transaction :=
  [createTx, joinTx 100000] ++ (List.range n).map (fun i =>
    payingTx (UInt8.ofNat (20 + i)) ipcFundSubnetTag (subnet.bytes ++ user.bytes) 5000 10)

theorem two_messages_in_log_order : ∃ db, Reachable (library 10000 []) db ∧
    db.getNextRootnetMsgNonce (library 10000 []) (.fromTxid20 subnet) = 2 ∧
    ReadsInOrder (library 10000 []) db subnet := by
  obtain ⟨l, hl, -, hlast⟩ := exists_trail (X := library 10000 []) ⟨none⟩ context
    (fundedTxs 2) HeedDb.empty
  have hreach : Reachable (library 10000 []) (lastStore HeedDb.empty l) := ⟨l, hl, rfl⟩
  have hmsgs : (lastStore HeedDb.empty l).getNextRootnetMsgNonce (library 10000 [])
      (.fromTxid20 subnet) = 2 := by
    rw [hlast]
    decide +kernel
  have hreqs : (lastStore HeedDb.empty l).getNextStakeChangeConfigurationNumber (library 10000 [])
      (.fromTxid20 subnet) = 1 := by
    rw [hlast]
    decide +kernel
  exact ⟨_, hreach, hmsgs, (readers_in_log_order_iff (displayLaws_ideal _) hreach subnet).mpr
    ⟨hmsgs.trans_le (by decide), hreqs.trans_le (by decide)⟩⟩

/-- After eleven messages the last one is read in the third place. -/
theorem eleven_messages_out_of_order :
    ¬ ∀ X : Library, DisplayLaws X → ∀ db, Reachable X db → ∀ t, ReadsInOrder X db t := by
  intro hall
  obtain ⟨l, hl, -, hlast⟩ := exists_trail (X := library 10000 []) ⟨none⟩ context
    (fundedTxs 11) HeedDb.empty
  have hread := hall (library 10000 []) (displayLaws_ideal _) (lastStore HeedDb.empty l)
    ⟨l, hl, rfl⟩ subnet
  have hnonces : ((lastStore HeedDb.empty l).getAllRootnetMsgs (library 10000 [])
      (.fromTxid20 subnet)).map (·.nonce) = [0, 1, 10, 2, 3, 4, 5, 6, 7, 8, 9] := by
    rw [hlast]
    decide +kernel
  have hsorted := List.pairwise_map.mpr hread.allMessages.1
  rw [hnonces] at hsorted
  revert hsorted
  decide

end Monitor
