import BitcoinIpc.Configurations
import BitcoinIpc.CheckpointPlans

/-!
# The payment of unstakes

The provider pays, with a checkpoint that rotates, every open withdrawal of a
validator of the active committee; the monitor confirms the withdrawals up to
the number the checkpoint asks for, if it saves the checkpoint at all. A withdrawal
is paid by the first checkpoint that asks for its number or a later one, and by no
other, exactly when the two selections agree at every rotation.
-/

namespace Monitor

open Faults Bytes Chain Messages Crates Multisig Db Grouping Commits OrderedTable Provider

variable {X : Library}

/-- The transaction is a checkpoint that the provider built on the database, with
witnesses added, and the checkpoint kills no subnet. -/
def BuiltOn (X : Library) (db : HeedDb) (tx : Transaction) (g : GenCheckpointPsbt) : Prop :=
  ∃ σ τ validator, ∃ r : CheckpointRequest, ∃ unspent feeRate, r.checkpointHeight < 2 ^ 64 ∧
    r.nextCommitteeConfigurationNumber < 2 ^ 64 ∧
    genCheckpointPsbt X σ τ db validator r unspent feeRate = .ok g ∧
    tx.stripped = g.unsignedPsbt.unsignedTx ∧ g.msg.isKillCheckpoint = false

/-- Every checkpoint that is saved for the subnet is built by the provider on the state it is
processed on. -/
def BuiltByProvider (X : Library) (t : Txid20) (db : HeedDb) : Event → HeedDb → Prop
  | .message _ tx (.checkpointSubnet m), _ => m.subnetId = .fromTxid20 t → ∃ g, BuiltOn X db tx g
  | _, _ => True

/-- What the monitor does in a run: it commits, or it leaves a checkpoint of the subnet unsaved,
because it cannot read it or refuses it. -/
inductive Processed where
  | committed (e : Event)
  | unsaved (tx : Transaction) (g : GenCheckpointPsbt)

/-- A step of a run whose checkpoints of a subnet are built by the provider, each on the state it
is processed on. -/
inductive Processes (X : Library) (t : Txid20) (db : HeedDb) : Processed → HeedDb → Prop
  | committed {e : Event} {db' : HeedDb} : Commit X db e db' → BuiltByProvider X t db e db' →
      Processes X t db (.committed e) db'
  | unsaved {tx : Transaction} {g : GenCheckpointPsbt} : g.msg.subnetId = .fromTxid20 t →
      BuiltOn X db tx g → Processes X t db (.unsaved tx g) db

/-- The step is about a checkpoint of the subnet that the provider built, saved or not. -/
inductive CheckpointOf (X : Library) (t : Txid20) (db : HeedDb) :
    Processed → Transaction → GenCheckpointPsbt → Prop
  | committed {ctx : BlockContext} {tx : Transaction} {m : IpcCheckpointSubnetMsg}
      {g : GenCheckpointPsbt} : m.subnetId = .fromTxid20 t → BuiltOn X db tx g →
      CheckpointOf X t db (.committed (.message ctx tx (.checkpointSubnet m))) tx g
  | unsaved {tx : Transaction} {g : GenCheckpointPsbt} : g.msg.subnetId = .fromTxid20 t →
      BuiltOn X db tx g → CheckpointOf X t db (.unsaved tx g) tx g

def Processed.event : Processed → Option Event
  | .committed e => some e
  | .unsaved _ _ => none

/-- The number that a checkpoint asks for which is not saved. -/
def Processed.unsavedNumber : Processed → Option Nat
  | .committed _ => none
  | .unsaved _ g => some g.msg.nextCommitteeConfigurationNumber

/-- The number that a checkpoint asks for, saved or not. -/
def Processed.askedNumber (t : Txid20) : Processed → Option Nat
  | .committed e => requestedNumber t e
  | .unsaved _ g => some g.msg.nextCommitteeConfigurationNumber

def unsavedNumbers (l : List (Processed × HeedDb)) : List Nat :=
  l.filterMap (fun a => a.1.unsavedNumber)

def askedNumbers (t : Txid20) (l : List (Processed × HeedDb)) : List Nat :=
  l.filterMap (fun a => a.1.askedNumber t)

/-- At a checkpoint that rotates to a number, the open withdrawals of the validators of the active
committee are those up to the number that no unsaved checkpoint has asked for. -/
def SelectedAt (X : Library) (t : Txid20) (db : HeedDb) (unsaved : List Nat) (n : Nat) : Prop :=
  ∀ s, db.getSubnetState X (.fromTxid20 t) = some s → s.committee.configurationNumber < n →
    ∀ k c, db.getStakeChange X (.fromTxid20 t) k = some c → IsWithdraw c →
      c.checkpointBlockHeight = none →
      (s.committee.isValidator c.validatorXpk = true ↔ k ≤ n ∧ ∀ a ∈ unsaved, a < k)

/-- This holds at every checkpoint of the run. -/
def UnstakesSelected (X : Library) (t : Txid20) (l : List (Processed × HeedDb)) : Prop :=
  ∀ l₁ a db' l₂ tx g, l = l₁ ++ (a, db') :: l₂ →
    CheckpointOf X t (lastStore HeedDb.empty l₁) a tx g →
    SelectedAt X t (lastStore HeedDb.empty l₁) (unsavedNumbers l₁)
      g.msg.nextCommitteeConfigurationNumber

/-- The validator and the amount of a withdrawal. -/
def withdrawalOf (c : StakeChangeRequest) : Option (XOnlyPublicKey × Amount) :=
  (withdrawnAmount c).map (fun amount => (c.validatorXpk, amount))

/-- The recorded withdrawals up to a number that no earlier checkpoint asked for. -/
def dueWithdrawals (X : Library) (db : HeedDb) (t : Txid20) (asked : List Nat) (n : Nat) :
    List (XOnlyPublicKey × Amount) :=
  (List.range' 1 n).filterMap (fun k => if ∀ a ∈ asked, a < k then
    (db.getStakeChange X (.fromTxid20 t) k).bind withdrawalOf else none)

/-- In the run, every withdrawal of the subnet recorded in it is paid, with its amount,
by the first checkpoint that asks for its number or a later one, and by no other:
these are the unstake outputs of each checkpoint, whether it is saved or not. -/
def PaidOnce (X : Library) (t : Txid20) (l : List (Processed × HeedDb)) : Prop :=
  ∀ l₁ a db' l₂ tx g, l = l₁ ++ (a, db') :: l₂ →
    CheckpointOf X t (lastStore HeedDb.empty l₁) a tx g →
    (∃ front back, tx.output =
      front ++ g.msg.unstakes.map IpcCheckpointSubnetMsg.unstakeOut ++ back) ∧
    (g.msg.unstakes.map (fun u => (u.pubkey, u.amount))).Perm
      (dueWithdrawals X (lastStore HeedDb.empty l) t (askedNumbers t l₁)
        g.msg.nextCommitteeConfigurationNumber)

/-- The open withdrawals of a subnet. -/
def openWithdrawals (X : Library) (db : HeedDb) (t : Txid20) : List StakeChangeRequest :=
  (db.getUnconfirmedStakeChanges X (.fromTxid20 t)).filter (fun c => (withdrawnAmount c).isSome)

/-- The validator and the amount of a request that takes one out. -/
def paymentOf (c : StakeChangeRequest) : XOnlyPublicKey × Amount :=
  (c.validatorXpk, (withdrawnAmount c).getD 0)

variable {db db' : HeedDb} {t : Txid20} {asked saved unsaved : List Nat} {n : Nat}

theorem findValidator_isSome (c : SubnetCommittee) (pubkey : XOnlyPublicKey) :
    (c.findValidator pubkey).isSome = c.isValidator pubkey := by
  rw [SubnetCommittee.findValidator, SubnetCommittee.isValidator, List.isSome_find?]

/-- What the provider pays: the open withdrawals of validators of the committee. -/
theorem map_pendingUnstakes (s : SubnetState) :
    (pendingUnstakes X db s (.fromTxid20 t)).map (fun u => (u.pubkey, u.amount)) =
      ((openWithdrawals X db t).filter (fun c => s.committee.isValidator (paymentOf c).1)).map
        paymentOf := by
  rw [pendingUnstakes, openWithdrawals]
  generalize db.getUnconfirmedStakeChanges X (.fromTxid20 t) = l
  induction l with
  | nil => rfl
  | cons c rest ih =>
    have hfind := findValidator_isSome s.committee c.validatorXpk
    cases hv : s.committee.findValidator c.validatorXpk with
    | none =>
      rw [hv] at hfind
      cases hw : withdrawnAmount c with
      | none => simpa [hv, hw] using ih
      | some amount => simpa [hv, hw, paymentOf, ← hfind] using ih
    | some v =>
      rw [hv] at hfind
      cases hc : c.change with
      | withdraw amount =>
        have hw : withdrawnAmount c = some amount := by rw [withdrawnAmount, hc]
        simpa [hv, hc, hw, paymentOf, ← hfind] using ih
      | deposit amount =>
        have hw : withdrawnAmount c = none := by rw [withdrawnAmount, hc]
        simpa [hv, hc, hw] using ih
      | join pubkey =>
        have hw : withdrawnAmount c = none := by rw [withdrawnAmount, hc]
        simpa [hv, hc, hw] using ih

/-- The number of a request is asked for now, and was not by an unsaved checkpoint. -/
def Asked (unsaved : List Nat) (n k : Nat) : Prop := k ≤ n ∧ ∀ a ∈ unsaved, a < k

instance (unsaved : List Nat) (n k : Nat) : Decidable (Asked unsaved n k) :=
  inferInstanceAs (Decidable (k ≤ n ∧ ∀ a ∈ unsaved, a < k))

/-- The withdrawal of a request that is open and asked for. -/
def openAsked (unsaved : List Nat) (n : Nat) (c : StakeChangeRequest) :
    Option (XOnlyPublicKey × Amount) :=
  if c.checkpointBlockHeight = none ∧ Asked unsaved n c.configurationNumber then withdrawalOf c
  else none

theorem map_openWithdrawals (unsaved : List Nat) (n : Nat) :
    ((openWithdrawals X db t).filter (fun c => Asked unsaved n c.configurationNumber)).map
        paymentOf =
      (db.getAllStakeChanges X (.fromTxid20 t)).filterMap (openAsked unsaved n) := by
  rw [openWithdrawals, HeedDb.getUnconfirmedStakeChanges]
  generalize db.getAllStakeChanges X (.fromTxid20 t) = l
  induction l with
  | nil => rfl
  | cons c rest ih =>
    cases hopen : c.checkpointBlockHeight with
    | some height => simpa [openAsked, hopen] using ih
    | none =>
      cases hw : withdrawnAmount c with
      | none => simpa [openAsked, hopen, hw, withdrawalOf] using ih
      | some amount =>
        by_cases hasked : Asked unsaved n c.configurationNumber
        · simpa [openAsked, hopen, hw, hasked, withdrawalOf, paymentOf] using ih
        · simpa [openAsked, hopen, hw, hasked, withdrawalOf] using ih

/-- A withdrawal is due while its request is open and no unsaved checkpoint has asked for it. -/
theorem dueWithdrawals_eq (laws : DisplayLaws X) (hs : Sound X db) (h : Accounted X saved db t)
    (hasked : ∀ a, a ∈ asked ↔ a ∈ saved ∨ a ∈ unsaved) :
    dueWithdrawals X db t asked n = (List.range' 1 n).filterMap (fun k =>
      (db.getStakeChange X (.fromTxid20 t) k).bind (openAsked unsaved n)) := by
  apply List.filterMap_congr
  intro k hk
  rw [List.mem_range'_1] at hk
  cases hget : db.getStakeChange X (.fromTxid20 t) k with
  | none => simp
  | some c =>
    have hnum := (hs.request laws hget).1
    have hle : k ≤ n := by omega
    simp only [Option.bind_some, openAsked, Asked, hnum, hle, true_and]
    cases hw : withdrawnAmount c with
    | none => simp [withdrawalOf, hw]
    | some amount =>
      have hopen := h.open_iff k c hget (by rw [IsWithdraw, hw]; rfl)
      have hall : (∀ a ∈ asked, a < k) ↔
          c.checkpointBlockHeight = none ∧ ∀ a ∈ unsaved, a < k := by
        rw [hopen]
        simp only [hasked, or_imp, forall_and]
      simp only [hall]

/-- The requests after the number are not asked for. -/
theorem openAsked_late (laws : DisplayLaws X) (hs : Sound X db) (length : Nat) :
    (List.range' (1 + n) length).filterMap (fun k =>
      (db.getStakeChange X (.fromTxid20 t) k).bind (openAsked unsaved n)) = [] := by
  rw [List.filterMap_eq_nil_iff]
  intro k hk
  rw [List.mem_range'_1] at hk
  cases hget : db.getStakeChange X (.fromTxid20 t) k with
  | none => rfl
  | some c =>
    have hnum := (hs.request laws hget).1
    rw [Option.bind_some, openAsked, if_neg]
    rintro ⟨-, hle, -⟩
    omega

/-- What is due: the open withdrawals that are asked for now. -/
theorem dueWithdrawals_perm (laws : DisplayLaws X) (hs : Sound X db) (h : Accounted X saved db t)
    (hasked : ∀ a, a ∈ asked ↔ a ∈ saved ∨ a ∈ unsaved) (hn : n ≤ count X db t) :
    (dueWithdrawals X db t asked n).Perm (((openWithdrawals X db t).filter
      (fun c => Asked unsaved n c.configurationNumber)).map paymentOf) := by
  have hnumbered : (recorded X db t).filterMap (openAsked unsaved n) =
      (List.range' 1 (count X db t)).filterMap (fun k =>
        (db.getStakeChange X (.fromTxid20 t) k).bind (openAsked unsaved n)) := by
    rw [recorded_eq laws hs h.dense, List.filterMap_filterMap, List.range'_eq_map_range,
      List.filterMap_map]
    apply List.filterMap_congr
    intro i _
    rw [Function.comp_apply, Nat.add_comm]
  have hsplit : List.range' 1 (count X db t) =
      List.range' 1 n ++ List.range' (1 + n) (count X db t - n) := by
    rw [List.range'_append_1]
    congr 1
    omega
  have hperm : ((recorded X db t).filterMap (openAsked unsaved n)).Perm
      ((db.getAllStakeChanges X (.fromTxid20 t)).filterMap (openAsked unsaved n)) :=
    (List.perm_insertionSort _ _).filterMap _
  rw [hnumbered, hsplit, List.filterMap_append, openAsked_late laws hs, List.append_nil,
    ← dueWithdrawals_eq laws hs h hasked] at hperm
  rw [map_openWithdrawals]
  exact hperm

/-- What a checkpoint of the subnet pays that the provider built. -/
structure Pays (X : Library) (db : HeedDb) (t : Txid20) (tx : Transaction) (g : GenCheckpointPsbt)
    (s : SubnetState) : Prop where
  state : db.getSubnetState X (.fromTxid20 t) = some s
  outputs : ∃ front back, tx.output =
    front ++ g.msg.unstakes.map IpcCheckpointSubnetMsg.unstakeOut ++ back
  unstakes : (s.committee.configurationNumber < g.msg.nextCommitteeConfigurationNumber ∧
      (∃ c, db.getStakeChange X (.fromTxid20 t) g.msg.nextCommitteeConfigurationNumber = some c) ∧
      g.msg.unstakes = pendingUnstakes X db s (.fromTxid20 t)) ∨
    (g.msg.nextCommitteeConfigurationNumber ≤ s.committee.configurationNumber ∧
      g.msg.unstakes = [])

theorem BuiltOn.pays {tx : Transaction} {g : GenCheckpointPsbt} (hbuilt : BuiltOn X db tx g)
    (hg : g.msg.subnetId = .fromTxid20 t) : ∃ s, Pays X db t tx g s := by
  obtain ⟨σ, τ, validator, r, unspent, feeRate, -, -, hgen, htx, hkill⟩ := hbuilt
  obtain ⟨s, next, hst, hid, hnum, -, hplan, hpsbt⟩ := genCheckpointPsbt_eq_ok hgen
  obtain ⟨id, batch, us, change, -, -, -, hus, -, -, -, hout⟩ :=
    IpcCheckpointSubnetMsg.layout_of_toCheckpointPsbt hpsbt
  have hout' : tx.output = g.unsignedPsbt.unsignedTx.output := by
    rw [← htx]
    rfl
  have hr : r.subnetId = .fromTxid20 t := hid.symm.trans hg
  rw [hr] at hst hplan
  rw [← hnum, hkill] at hplan
  refine ⟨s, hst, ⟨IpcCheckpointSubnetMsg.metadataOut X g.msg id feeRate ::
    (g.msg.withdrawals.map IpcCheckpointSubnetMsg.withdrawalOut ++ batch), change.toList, ?_⟩, ?_⟩
  · rw [hout', hout, hus hkill]
    simp only [List.cons_append, List.append_assoc]
  · exact hplan.resolve_left (by simp)

/-- The monitor reads the subnet and the number out of the checkpoint that the provider put in. -/
theorem BuiltOn.read {tx : Transaction} {m : IpcCheckpointSubnetMsg} {g : GenCheckpointPsbt}
    (laws : DisplayLaws X) (hs : Sound X db)
    (hparsed : IpcCheckpointSubnetMsg.fromCheckpointTx X db tx = .ok m)
    (hbuilt : BuiltOn X db tx g) : g.msg.subnetId = m.subnetId ∧
      m.nextCommitteeConfigurationNumber = g.msg.nextCommitteeConfigurationNumber := by
  obtain ⟨σ, τ, validator, r, unspent, feeRate, hheight, hnext, hgen, htx, hkill⟩ := hbuilt
  obtain ⟨s, next, hst, hid, hnum, hh, hplan, hpsbt⟩ := genCheckpointPsbt_eq_ok hgen
  obtain ⟨id, batch, us, change, htxid, -, -, hus, -, -, -, hout⟩ :=
    IpcCheckpointSubnetMsg.layout_of_toCheckpointPsbt hpsbt
  have hout' : tx.output = g.unsignedPsbt.unsignedTx.output := by
    rw [← htx]
    rfl
  obtain ⟨data, d, hdata, hd, hsub, hconf, -⟩ :=
    IpcCheckpointSubnetMsg.fromCheckpointTx_fields hparsed
  rw [IpcCheckpointSubnetMsg.opReturnData_metadata (hout'.trans hout)] at hdata
  obtain rfl := Except.ok.inj hdata
  rw [IpcCheckpointSubnetMsg.parseMetadata_metadata id (hh ▸ hheight) (hnum ▸ hnext)] at hd
  obtain rfl := Except.ok.inj hd
  obtain ⟨u, hu, -⟩ := hs.state laws hst
  have hsame := hid.trans hu
  rw [hsame, SubnetId.txid20_fromTxid20] at htxid
  obtain rfl := Except.ok.inj htxid
  exact ⟨hsame.trans hsub.symm, hconf⟩

/-- A checkpoint pays what is due exactly when its unstakes are selected. -/
theorem Pays.paid_iff {tx : Transaction} {g : GenCheckpointPsbt} {s : SubnetState}
    (laws : DisplayLaws X) (hs : Sound X db) (h : Accounted X saved db t)
    (hasked : ∀ a, a ∈ asked ↔ a ∈ saved ∨ a ∈ unsaved) (hpays : Pays X db t tx g s) :
    (g.msg.unstakes.map (fun u => (u.pubkey, u.amount))).Perm
        (dueWithdrawals X db t asked g.msg.nextCommitteeConfigurationNumber) ↔
      SelectedAt X t db unsaved g.msg.nextCommitteeConfigurationNumber := by
  rcases hpays.unstakes with ⟨hlt, ⟨c, hc⟩, hunst⟩ | ⟨hle, hunst⟩
  · have hdue := dueWithdrawals_perm laws hs h hasked (h.number_bounds hc).2
    rw [hunst, map_pendingUnstakes, hdue.congr_right]
    refine (perm_map_filter_iff (f := paymentOf)
      (p := fun e : XOnlyPublicKey × Amount => s.committee.isValidator e.1)).trans ?_
    have hmem : ∀ r, r ∈ openWithdrawals X db t ↔
        db.getStakeChange X (.fromTxid20 t) r.configurationNumber = some r ∧ IsWithdraw r ∧
          r.checkpointBlockHeight = none := by
      intro r
      rw [openWithdrawals, HeedDb.getUnconfirmedStakeChanges, List.mem_filter, List.mem_filter,
        hs.mem_getAllStakeChanges laws, Option.isNone_iff_eq_none]
      exact ⟨fun ⟨⟨h₁, h₂⟩, h₃⟩ => ⟨h₁, h₃, h₂⟩, fun ⟨h₁, h₂, h₃⟩ => ⟨⟨h₁, h₃⟩, h₂⟩⟩
    constructor
    · intro hall s' hs' _ k r hr hw hopen
      rw [hpays.state] at hs'
      cases hs'
      have hnum := (hs.request laws hr).1
      have hsel := hall r ((hmem r).mpr ⟨hnum.symm ▸ hr, hw, hopen⟩)
      rw [paymentOf, hnum] at hsel
      rw [hsel, decide_eq_true_iff, Asked]
    · intro hsel r hr
      obtain ⟨hget, hw, hopen⟩ := (hmem r).mp hr
      rw [Bool.eq_iff_iff, decide_eq_true_iff]
      exact hsel s hpays.state hlt _ r hget hw hopen
  · -- nothing is due, since what the active committee stands for is confirmed
    have hnone : dueWithdrawals X db t asked g.msg.nextCommitteeConfigurationNumber = [] := by
      rw [dueWithdrawals_eq laws hs h hasked, List.filterMap_eq_nil_iff]
      intro k hk
      rw [List.mem_range'_1] at hk
      cases hget : db.getStakeChange X (.fromTxid20 t) k with
      | none => rfl
      | some r =>
        cases hw : withdrawnAmount r with
        | none => simp [openAsked, withdrawalOf, hw]
        | some amount =>
          have hclosed := h.active_confirmed s k r hpays.state hget
            (by rw [IsWithdraw, hw]; rfl) (by omega)
          rw [Option.bind_some, openAsked, if_neg (fun hopen => hclosed hopen.1)]
    rw [hunst, hnone]
    refine iff_of_true (List.Perm.refl _) ?_
    intro s' hs' hlt
    rw [hpays.state] at hs'
    cases hs'
    omega

theorem Pays.number_le {tx : Transaction} {g : GenCheckpointPsbt} {s : SubnetState}
    (h : Accounted X saved db t) (hpays : Pays X db t tx g s) :
    g.msg.nextCommitteeConfigurationNumber ≤ count X db t := by
  rcases hpays.unstakes with ⟨-, ⟨c, hc⟩, -⟩ | ⟨hle, -⟩
  · exact (h.number_bounds hc).2
  · exact le_trans hle (h.configuration_le s hpays.state).1

/-- The commits of a run. -/
def commitsOf (l : List (Processed × HeedDb)) : List (Event × HeedDb) := kept Processed.event l

theorem trail_commitsOf {l : List (Processed × HeedDb)} (h : Trail (Processes X t) db l) :
    Trail (Commit X) db (commitsOf l) ∧ lastStore db (commitsOf l) = lastStore db l := by
  refine trail_kept (S := HeedDb) ?_ ?_ h
  · intro s a s' e hstep he
    cases hstep with
    | committed hcommit _ =>
      cases he
      exact hcommit
    | unsaved _ _ => cases he
  · intro s a s' hstep he
    cases hstep with
    | committed _ _ => cases he
    | unsaved _ _ => rfl

theorem Processed.askedNumber_eq_some (t : Txid20) (p : Processed) (a : Nat) :
    p.askedNumber t = some a ↔
      (∃ e, p.event = some e ∧ requestedNumber t e = some a) ∨ p.unsavedNumber = some a := by
  cases p with
  | committed e => simp [askedNumber, event, unsavedNumber]
  | unsaved tx g => simp [askedNumber, event, unsavedNumber]

/-- The numbers that were asked for are those of the saved and the unsaved checkpoints. -/
theorem mem_askedNumbers (t : Txid20) (l : List (Processed × HeedDb)) (a : Nat) :
    a ∈ askedNumbers t l ↔ a ∈ requestedNumbers t (commitsOf l) ∨ a ∈ unsavedNumbers l := by
  have hsaved : a ∈ requestedNumbers t (commitsOf l) ↔
      ∃ p ∈ l, ∃ e, p.1.event = some e ∧ requestedNumber t e = some a := by
    rw [requestedNumbers, commitsOf, kept, List.filterMap_filterMap, List.mem_filterMap]
    simp only [Option.bind_map, Option.bind_eq_some_iff, Function.comp_apply]
  rw [hsaved, askedNumbers, unsavedNumbers, List.mem_filterMap, List.mem_filterMap, ← exists_or]
  simp only [Processed.askedNumber_eq_some, and_or_left]

section Runs

variable (laws : DisplayLaws X)
include laws

/-- The withdrawals recorded in a state are the same in every later one. -/
theorem withdrawal_of_trail {l : List (Event × HeedDb)} (h : Reachable X db)
    (hl : Trail (Commit X) db l) {k : Nat} {c : StakeChangeRequest}
    (hc : db.getStakeChange X (.fromTxid20 t) k = some c) :
    ∃ c', (lastStore db l).getStakeChange X (.fromTxid20 t) k = some c' ∧
      withdrawalOf c' = withdrawalOf c := by
  induction l generalizing db c with
  | nil => exact ⟨c, hc, rfl⟩
  | cons a rest ih =>
    obtain ⟨e, d⟩ := a
    obtain ⟨c₁, hc₁, hsame⟩ := (appendOnly_of_commit laws h hl.1 t).requests k c hc
    have heq : withdrawalOf c₁ = withdrawalOf c := by
      rcases hsame with rfl | ⟨_, _, _, -, -, -, rfl⟩ <;> rfl
    obtain ⟨l₀, hl₀, rfl⟩ := h
    have hreach : Reachable X d := ⟨l₀ ++ [(e, d)], trail_snoc.mpr ⟨hl₀, hl.1⟩, lastStore_snoc _ _ _ _⟩
    obtain ⟨c', hc', heq'⟩ := ih hreach hl.2 hc₁
    exact ⟨c', by rw [lastStore_cons]; exact hc', heq'.trans heq⟩

theorem dueWithdrawals_of_trail {l : List (Event × HeedDb)} (h : Reachable X db)
    (hl : Trail (Commit X) db l) (hdense : Dense X db t) (hn : n ≤ count X db t) :
    dueWithdrawals X (lastStore db l) t asked n = dueWithdrawals X db t asked n := by
  apply List.filterMap_congr
  intro k hk
  rw [List.mem_range'_1] at hk
  obtain ⟨c, hc⟩ := entry_isSome.mp ((hdense k).mpr ⟨hk.1, by omega⟩)
  obtain ⟨c', hc', heq⟩ := withdrawal_of_trail laws h hl hc
  rw [hc, hc', Option.bind_some, Option.bind_some, heq]

/-- A checkpoint of a run pays its unstakes, and these are due exactly when they are
selected. -/
theorem paid_at_iff {l₁ l₂ : List (Processed × HeedDb)} {a : Processed} {tx : Transaction}
    {g : GenCheckpointPsbt} (hrun : Trail (Processes X t) HeedDb.empty (l₁ ++ (a, db') :: l₂))
    (hg : CheckpointOf X t (lastStore HeedDb.empty l₁) a tx g) :
    (∃ front back, tx.output =
      front ++ g.msg.unstakes.map IpcCheckpointSubnetMsg.unstakeOut ++ back) ∧
    ((g.msg.unstakes.map (fun u => (u.pubkey, u.amount))).Perm
      (dueWithdrawals X (lastStore HeedDb.empty (l₁ ++ (a, db') :: l₂)) t (askedNumbers t l₁)
        g.msg.nextCommitteeConfigurationNumber) ↔
      SelectedAt X t (lastStore HeedDb.empty l₁) (unsavedNumbers l₁)
        g.msg.nextCommitteeConfigurationNumber) := by
  obtain ⟨hl₁, hl₂⟩ := trail_append.mp hrun
  obtain ⟨hcommits, hstore⟩ := trail_commitsOf hl₁
  obtain ⟨hlater, hlast⟩ := trail_commitsOf hl₂
  have hsound := sound_of_trail laws sound_empty hcommits
  have hacc := accounted_of_trail laws hcommits t
  rw [hstore] at hsound hacc
  obtain ⟨s, hpays⟩ : ∃ s, Pays X (lastStore HeedDb.empty l₁) t tx g s := by
    cases hg with
    | unsaved hid hbuilt => exact hbuilt.pays hid
    | committed hm hbuilt =>
      have hparsed : ∃ m', IpcCheckpointSubnetMsg.fromCheckpointTx X
          (lastStore HeedDb.empty l₁) tx = .ok m' ∧ m'.subnetId = .fromTxid20 t := by
        cases hl₂.1 with
        | committed hcommit _ =>
          cases hcommit with
          | checkpointSubnet hparsed _ _ => exact ⟨_, hparsed, hm⟩
      obtain ⟨m', hparsed, hm'⟩ := hparsed
      exact hbuilt.pays ((hbuilt.read laws hsound hparsed).1.trans hm')
  rw [lastStore_append, ← hlast, dueWithdrawals_of_trail laws ⟨_, hcommits, hstore⟩ hlater
    hacc.dense (hpays.number_le hacc)]
  exact ⟨hpays.outputs, hpays.paid_iff laws hsound hacc (mem_askedNumbers t l₁)⟩

/-- In a run whose checkpoints of a subnet are built by the provider and kill nothing,
every withdrawal is paid once, by the first checkpoint that asks for its number or
a later one, exactly when every rotation selects its unstakes. -/
theorem unstakes_paid_once_iff {l : List (Processed × HeedDb)}
    (hrun : Trail (Processes X t) HeedDb.empty l) : UnstakesSelected X t l ↔ PaidOnce X t l := by
  constructor
  · rintro hsel l₁ a db' l₂ tx g rfl hg
    obtain ⟨houts, hiff⟩ := paid_at_iff laws hrun hg
    exact ⟨houts, hiff.mpr (hsel l₁ a db' l₂ tx g rfl hg)⟩
  · rintro hpaid l₁ a db' l₂ tx g rfl hg
    exact (paid_at_iff laws hrun hg).2.mp (hpaid l₁ a db' l₂ tx g rfl hg).2

end Runs

open Solo

/-- An unstake of an amount by the validator. -/
def withdrawTx (prev : UInt8) (amount : Amount) : Transaction :=
  payingTx prev ipcUnstakeTag (signature.bytes ++ toBe amountSize amount) 330 10

/-- The library that knows the signatures of two unstakes. -/
def withdrawLibrary : Library :=
  library 10000
    [((bytes32 13).bytes ++ key.bytes ++ toBe amountSize 1000 ++ subnet.bytes, signature),
      ((bytes32 14).bytes ++ key.bytes ++ toBe amountSize 2000 ++ subnet.bytes, signature)]

/-- A request for the first configuration after the genesis. -/
def rotationRequest : CheckpointRequest := ⟨.fromTxid20 subnet, bytes32 4, 1, 1, [], [], [], [], []⟩

def builtRotation (db : HeedDb) : Outcome RpcError GenCheckpointPsbt :=
  genCheckpointPsbt withdrawLibrary listedOrders listedOrders db key rotationRequest [coin] 1000

/-- What the provider's checkpoint pays, if the monitor accepts it. -/
def paidByRotation (db : HeedDb) : Option (List (XOnlyPublicKey × Amount)) := do
  let g ← (builtRotation db).toOption
  let m ← (IpcCheckpointSubnetMsg.fromCheckpointTx withdrawLibrary db
    g.unsignedPsbt.unsignedTx).toOption
  let _ ← m.validate.toOption
  let _ ← (m.saveToDb withdrawLibrary db context.blockHeight context.blockHash
    (withdrawLibrary.computeTxid g.unsignedPsbt.unsignedTx)).toOption
  if g.unsignedPsbt.unsignedTx.stripped = g.unsignedPsbt.unsignedTx ∧
      m.subnetId = .fromTxid20 subnet ∧ m.nextCommitteeConfigurationNumber = 1 ∧
      g.msg.isKillCheckpoint = false then
    some (g.msg.unstakes.map (fun u => (u.pubkey, u.amount)))
  else none

theorem commit_of_paidByRotation {db : HeedDb} {paid : List (XOnlyPublicKey × Amount)}
    (h : paidByRotation db = some paid) : ∃ tx m g db', BuiltOn withdrawLibrary db tx g ∧
      Commit withdrawLibrary db (.message context tx (.checkpointSubnet m)) db' ∧
      m.subnetId = .fromTxid20 subnet ∧ m.nextCommitteeConfigurationNumber = 1 ∧
      g.msg.unstakes.map (fun u => (u.pubkey, u.amount)) = paid := by
  obtain ⟨g, hg, h⟩ := Option.bind_eq_some_iff.mp h
  obtain ⟨m, hm, h⟩ := Option.bind_eq_some_iff.mp h
  obtain ⟨_, hvalid, h⟩ := Option.bind_eq_some_iff.mp h
  obtain ⟨saved, hsaved, h⟩ := Option.bind_eq_some_iff.mp h
  split_ifs at h with hall
  obtain ⟨hstripped, hid, hn, hkill⟩ := hall
  rw [toOption_eq_some] at hg hm hvalid hsaved
  exact ⟨_, m, g, _, ⟨listedOrders, listedOrders, key, rotationRequest, [coin], 1000, by decide,
    by decide, hg, hstripped, hkill⟩, .checkpointSubnet hm hvalid hsaved, hid, hn,
    Option.some.inj h⟩

/-- No transaction of the list is a checkpoint. -/
def NoCheckpoint (txs : List Transaction) (db : HeedDb) : Prop :=
  ∀ tx ∈ txs, (IpcCheckpointSubnetMsg.fromCheckpointTx withdrawLibrary db tx).toOption = none

instance (txs : List Transaction) (db : HeedDb) : Decidable (NoCheckpoint txs db) := by
  unfold NoCheckpoint
  infer_instance

/-- A condition on checkpoints alone holds of a chain without checkpoints. -/
theorem allSteps_of_noCheckpoint {C : HeedDb → Event → HeedDb → Prop} {txs : List Transaction}
    {l : List (Event × HeedDb)}
    (hl : ChainTrail withdrawLibrary ⟨none⟩ HeedDb.empty (txs.map (fun tx => (context, tx))) l)
    (hno : ∀ d ∈ HeedDb.empty :: l.map Prod.snd, NoCheckpoint txs d)
    (hC : ∀ d e d', (∀ ctx tx m, e ≠ .message ctx tx (.checkpointSubnet m)) → C d e d') :
    AllSteps C HeedDb.empty l := by
  refine hl.allSteps (P := NoCheckpoint txs) ?_ hno
  intro d e d' hstep hP hmem
  apply hC
  rintro ctx tx m rfl
  obtain ⟨tx', htx', heq⟩ := List.mem_map.mp (hmem _ rfl)
  cases heq
  cases hstep with
  | checkpointSubnet hparsed _ _ =>
    have hnone := hP tx htx'
    rw [toOption_eq_some.mpr hparsed] at hnone
    cases hnone

/-- No commit of a chain without checkpoints is one. -/
theorem noCheckpoint_events {txs : List Transaction} {l : List (Event × HeedDb)}
    (hl : ChainTrail withdrawLibrary ⟨none⟩ HeedDb.empty (txs.map (fun tx => (context, tx))) l)
    (hno : ∀ d ∈ HeedDb.empty :: l.map Prod.snd, NoCheckpoint txs d) :
    ∀ a ∈ l, ∀ ctx tx m, a.1 ≠ .message ctx tx (.checkpointSubnet m) := by
  intro a ha
  obtain ⟨d, -, hne⟩ := exists_step hl.trail (allSteps_of_noCheckpoint hl hno
    (C := fun _ e _ => ∀ ctx tx m, e ≠ .message ctx tx (.checkpointSubnet m))
    (fun _ _ _ he => he)) ha
  exact hne

theorem builtByProvider_of_ne {X : Library} {t : Txid20} {d d' : HeedDb} {e : Event}
    (he : ∀ ctx tx m, e ≠ .message ctx tx (.checkpointSubnet m)) : BuiltByProvider X t d e d' := by
  unfold BuiltByProvider
  split
  · exact absurd rfl (he _ _ _)
  · trivial

/-- A run of commits alone, in which every checkpoint is built by the provider. -/
def allSaved (l : List (Event × HeedDb)) : List (Processed × HeedDb) :=
  l.map (fun a => (.committed a.1, a.2))

theorem lastStore_allSaved (db : HeedDb) (l : List (Event × HeedDb)) :
    lastStore db (allSaved l) = lastStore db l := by
  rw [lastStore, lastStore, allSaved, List.map_map]
  rfl

theorem trail_allSaved {X : Library} {t : Txid20} {db : HeedDb} {l : List (Event × HeedDb)}
    (h : Trail (Commit X) db l) (hbuilt : AllSteps (BuiltByProvider X t) db l) :
    Trail (Processes X t) db (allSaved l) := by
  induction l generalizing db with
  | nil => trivial
  | cons a rest ih => exact ⟨.committed h.1 hbuilt.1, ih h.2 hbuilt.2⟩

theorem unsavedNumbers_allSaved (l : List (Event × HeedDb)) : unsavedNumbers (allSaved l) = [] := by
  rw [unsavedNumbers, allSaved, List.filterMap_map, List.filterMap_eq_nil_iff]
  exact fun _ _ => rfl

/-- A run without a checkpoint, and one checkpoint after it. -/
theorem unstakesSelected_of_last {X : Library} {t : Txid20} {l : List (Event × HeedDb)}
    {ctx : BlockContext} {tx : Transaction} {m : IpcCheckpointSubnetMsg} {db' : HeedDb}
    (hno : ∀ a ∈ l, ∀ ctx tx m, a.1 ≠ .message ctx tx (.checkpointSubnet m))
    (hlast : ∀ g, BuiltOn X (lastStore HeedDb.empty l) tx g → SelectedAt X t
      (lastStore HeedDb.empty l) [] g.msg.nextCommitteeConfigurationNumber) :
    UnstakesSelected X t (allSaved (l ++ [(.message ctx tx (.checkpointSubnet m), db')])) := by
  intro l₁ a d l₂ tx' g heq hg
  have hcut : allSaved l ++ [(.committed (.message ctx tx (.checkpointSubnet m)), db')] =
      l₁ ++ (a, d) :: l₂ := by
    rw [← heq, allSaved, allSaved, List.map_append]
    rfl
  obtain ⟨rfl, hlabel, -⟩ | ⟨l₃, -, hbefore⟩ := snoc_eq_append_cons.mp hcut
  · obtain ⟨rfl, rfl⟩ := Prod.mk.inj hlabel
    rw [lastStore_allSaved] at hg ⊢
    rw [unsavedNumbers_allSaved]
    cases hg with
    | committed hm hbuilt => exact hlast g hbuilt
  · -- the run before it has no checkpoint
    have hmem : (a, d) ∈ allSaved l := by
      rw [hbefore]
      exact List.mem_append_right _ List.mem_cons_self
    obtain ⟨⟨e, d'⟩, he, hed⟩ := List.mem_map.mp hmem
    obtain ⟨rfl, rfl⟩ := Prod.mk.inj hed
    have hne := hno _ he
    dsimp only at hg hne
    cases hg with
    | committed hm hbuilt => exact absurd rfl (hne _ _ _)

/-- One unstake, which the rotation to its number pays. -/
def oneUnstake : List Transaction := [createTx, joinTx 100000, withdrawTx 13 1000]

/-- Two unstakes; the rotation to the first pays both. -/
def twoUnstakes : List Transaction :=
  [createTx, joinTx 100000, withdrawTx 13 1000, withdrawTx 14 2000]

/-- Every request is of a validator and asked for. -/
def RequestsSelected (db : HeedDb) : Prop :=
  ∀ e ∈ db.stakeChangesDb.entries, e.2.configurationNumber ≤ 1 ∧
    (db.getSubnetState withdrawLibrary (.fromTxid20 subnet)).all (fun s =>
      s.committee.isValidator e.2.validatorXpk)

instance (db : HeedDb) : Decidable (RequestsSelected db) := by
  unfold RequestsSelected
  infer_instance

/-- The checkpoint that the provider builds asks for the number of the request. -/
theorem number_of_builtOn {X : Library} {db : HeedDb} {tx : Transaction}
    {m : IpcCheckpointSubnetMsg} {db' : HeedDb} {ctx : BlockContext} {g : GenCheckpointPsbt}
    (laws : DisplayLaws X) (hs : Sound X db)
    (hcommit : Commit X db (.message ctx tx (.checkpointSubnet m)) db')
    (hbuilt : BuiltOn X db tx g) :
    g.msg.nextCommitteeConfigurationNumber = m.nextCommitteeConfigurationNumber := by
  cases hcommit with
  | checkpointSubnet hparsed _ _ => exact (hbuilt.read laws hs hparsed).2.symm

/-- The unstake is paid by the rotation to its number. -/
theorem unstakes_paid_once_after_rotation : ∃ l tx m db', ∃ g : GenCheckpointPsbt,
    Trail (Processes withdrawLibrary subnet) HeedDb.empty
      (allSaved (l ++ [(.message context tx (.checkpointSubnet m), db')])) ∧
    BuiltOn withdrawLibrary (lastStore HeedDb.empty l) tx g ∧
    g.msg.unstakes.map (fun u => (u.pubkey, u.amount)) = [(key, 1000)] ∧
    PaidOnce withdrawLibrary subnet
      (allSaved (l ++ [(.message context tx (.checkpointSubnet m), db')])) := by
  have hlaws : DisplayLaws withdrawLibrary := displayLaws_ideal _
  have hok : (run withdrawLibrary oneUnstake).outcome.toOption = some () :=
    of_decide_eq_true (by decide +kernel)
  obtain ⟨l, hl, hc, hlast⟩ := exists_chainTrail ⟨none⟩ context oneUnstake HeedDb.empty hok
  have hpaid : paidByRotation (lastStore HeedDb.empty l) = some [(key, 1000)] := by
    rw [hlast]
    decide +kernel
  have hselected : RequestsSelected (lastStore HeedDb.empty l) := by
    rw [hlast]
    decide +kernel
  have hno : ∀ d ∈ HeedDb.empty :: l.map Prod.snd, NoCheckpoint oneUnstake d := by
    rw [hc]
    exact of_decide_eq_true (by decide +kernel)
  obtain ⟨tx, m, g, db', hbuilt, hcommit, hid, hn, hpay⟩ := commit_of_paidByRotation hpaid
  have hsound := sound_of_trail hlaws sound_empty hl.trail
  have hrun : Trail (Processes withdrawLibrary subnet) HeedDb.empty
      (allSaved (l ++ [(.message context tx (.checkpointSubnet m), db')])) := by
    refine trail_allSaved (trail_snoc.mpr ⟨hl.trail, hcommit⟩) (allSteps_snoc.mpr ⟨?_, ?_⟩)
    · exact allSteps_of_noCheckpoint hl hno (fun _ _ _ he => builtByProvider_of_ne he)
    · exact fun _ => ⟨g, hbuilt⟩
  refine ⟨l, tx, m, db', g, hrun, hbuilt, hpay, (unstakes_paid_once_iff hlaws hrun).mp ?_⟩
  apply unstakesSelected_of_last (noCheckpoint_events hl hno)
  intro g' hg' s hs _ k c hget _ _
  obtain ⟨hle, hvalidator⟩ := hselected _ ((Table.get_eq_some_iff _).mp hget)
  rw [hs, Option.all_some] at hvalidator
  have hnum := (hsound.request hlaws hget).1
  have hasked : g'.msg.nextCommitteeConfigurationNumber = 1 :=
    (number_of_builtOn hlaws hsound hcommit hg').trans hn
  refine iff_of_true hvalidator ⟨?_, fun a ha => by cases ha⟩
  rw [hasked, ← hnum]
  exact hle

/-- The rotation to the first of two unstakes pays both. -/
theorem rotation_pays_later_unstake :
    ¬ ∀ X : Library, DisplayLaws X → ∀ t l, Trail (Processes X t) HeedDb.empty l →
      PaidOnce X t l := by
  intro hpaidOnce
  have hlaws : DisplayLaws withdrawLibrary := displayLaws_ideal _
  have hok : (run withdrawLibrary twoUnstakes).outcome.toOption = some () :=
    of_decide_eq_true (by decide +kernel)
  obtain ⟨l, hl, hc, hlast⟩ := exists_chainTrail ⟨none⟩ context twoUnstakes HeedDb.empty hok
  have hpaid : paidByRotation (lastStore HeedDb.empty l) = some [(key, 1000), (key, 2000)] := by
    rw [hlast]
    decide +kernel
  have hno : ∀ d ∈ HeedDb.empty :: l.map Prod.snd, NoCheckpoint twoUnstakes d := by
    rw [hc]
    exact of_decide_eq_true (by decide +kernel)
  obtain ⟨tx, m, g, db', hbuilt, hcommit, hid, hn, hpay⟩ := commit_of_paidByRotation hpaid
  have hrun : Trail (Processes withdrawLibrary subnet) HeedDb.empty
      (allSaved (l ++ [(.message context tx (.checkpointSubnet m), db')])) := by
    refine trail_allSaved (trail_snoc.mpr ⟨hl.trail, hcommit⟩) (allSteps_snoc.mpr ⟨?_, ?_⟩)
    · exact allSteps_of_noCheckpoint hl hno (fun _ _ _ he => builtByProvider_of_ne he)
    · exact fun _ => ⟨g, hbuilt⟩
  have hcut : allSaved (l ++ [(.message context tx (.checkpointSubnet m), db')]) =
      allSaved l ++ (.committed (.message context tx (.checkpointSubnet m)), db') :: [] := by
    rw [allSaved, allSaved, List.map_append]
    rfl
  have hasked : g.msg.nextCommitteeConfigurationNumber = 1 :=
    (number_of_builtOn hlaws (sound_of_trail hlaws sound_empty hl.trail) hcommit hbuilt).trans hn
  obtain ⟨-, hperm⟩ := hpaidOnce withdrawLibrary hlaws subnet _ hrun _ _ db' [] tx g hcut
    (.committed hid (by rw [lastStore_allSaved]; exact hbuilt))
  -- one request is due at most, and two are paid
  have hlen := hperm.length_eq
  have hle := List.length_filterMap_le (fun k => if ∀ a ∈ askedNumbers subnet (allSaved l), a < k
    then ((lastStore HeedDb.empty (allSaved
      (l ++ [(Event.message context tx (.checkpointSubnet m), db')]))).getStakeChange
      withdrawLibrary (.fromTxid20 subnet) k).bind withdrawalOf else none) (List.range' 1 1)
  rw [dueWithdrawals, hpay, hasked] at hlen
  rw [← hlen] at hle
  simp at hle

end Monitor
