import BitcoinIpc.CommitteeHistory

/-!
# The stakes of a subnet and its recorded requests

Deposits and withdrawals account for the collaterals of the latest committee in
every state of a run exactly when no unstake takes a validator with a rest out of
the committee, and no rotation replaces the latest committee by one with other
collaterals.
-/

namespace Monitor

open Faults Bytes Chain Messages Crates Multisig Db Commits OrderedTable Accounts

/-- The collateral of a key in a committee. -/
def collateralHeld (c : SubnetCommittee) (p : XOnlyPublicKey) : Nat :=
  ((c.findValidator p).map (·.collateral)).getD 0

/-- The collaterals are the ones of the genesis committee with the requests paid in and
out. -/
def Balanced (genesis c : SubnetCommittee) (requests : List (XOnlyPublicKey × Change)) : Prop :=
  ∀ p, collateralHeld c p + withdrawn requests p = collateralHeld genesis p + deposited requests p

section Conditions

variable (X : Library)

/-- The recorded requests account for the collaterals of the latest committee of a
bootstrapped subnet. -/
def StakesConserved (t : Txid20) (db : HeedDb) : Prop :=
  ∀ s, db.getSubnetState X (.fromTxid20 t) = some s →
    ∃ genesis, db.getCommittee X (.fromTxid20 t) 1 = some genesis ∧
      Balanced genesis s.latestCommittee (recordedRequests X db t)

/-- An unstake that leaves no power leaves no rest, and a rotation that replaces the
latest committee keeps every collateral. -/
def KeepsStake (t : Txid20) (db : HeedDb) : Event → HeedDb → Prop
  | .message _ _ (.unstakeCollateral m), _ => m.subnetId = .fromTxid20 t →
    ∀ s v, db.getSubnetState X m.subnetId = some s → m.pubkey = some v.pubkey →
      s.latestCommittee.findValidator v.pubkey = some v →
      powerOf (v.collateral - m.amount) = 0 → m.amount = v.collateral
  | .message _ _ (.checkpointSubnet m), _ => m.subnetId = .fromTxid20 t →
    ∀ s c, db.getSubnetState X m.subnetId = some s →
      s.committee.configurationNumber < m.nextCommitteeConfigurationNumber →
      db.getStakeChange X m.subnetId m.nextCommitteeConfigurationNumber = some c →
      s.committee.multisigAddress ≠ c.committeeAfterChange.multisigAddress →
      (∀ w, s.waitingCommittee = some w →
        w.multisigAddress = c.committeeAfterChange.multisigAddress) →
      ∀ p, collateralHeld c.committeeAfterChange p = collateralHeld s.latestCommittee p
  | _, _ => True

end Conditions

variable {X : Library} {db db' : HeedDb} {t : Txid20}

theorem collateralOf_eq (c : SubnetCommittee) (p : XOnlyPublicKey) :
    collateralHeld c p = amountIn (book c) p := by
  rw [collateralHeld, amountIn, book, List.find?_map, Option.map_map]
  rfl

theorem nodup_book {c : SubnetCommittee} (h : Regular c) : ((book c).map Prod.fst).Nodup := by
  rw [book, List.map_map]
  exact h.nodup

/-- A deposit shows in the account of its key alone. -/
theorem amountIn_paid {book : List (XOnlyPublicKey × Nat)} {k : XOnlyPublicKey}
    (hk : k ∈ book.map Prod.fst) (amount : Nat) (p : XOnlyPublicKey) :
    amountIn (change powerless book (k, .deposit amount)) p =
      amountIn book p + depositedBy p (k, .deposit amount) := by
  by_cases hkp : k = p
  · subst hkp
    have hby : depositedBy k (k, .deposit amount) = amount := if_pos rfl
    rw [amountIn_deposit powerless hk, hby]
  · have hby : depositedBy p (k, .deposit amount) = 0 := if_neg hkp
    rw [amountIn_change_of_ne powerless (by exact hkp), hby, Nat.add_zero]

/-- A join or a deposit is accounted for by its requests. -/
theorem Balanced.payIn {genesis c next : SubnetCommittee} {first : Nat}
    {requests : List StakeChangeRequest} {log : List (XOnlyPublicKey × Change)}
    (h : Balanced genesis c log) (hstep : StakeStep X t c next first requests)
    (hpay : PaysIn requests) : Balanced genesis next (log ++ requests.map requestOf) := by
  intro p
  have hp := h p
  rw [collateralOf_eq] at hp
  rw [collateralOf_eq, hstep.book_eq, deposited_append, withdrawn_append]
  cases hstep.kind with
  | @join a b k amount ha hb hnew =>
    rw [List.map_cons, List.map_singleton, ha, hb]
    have hopened : k ∈ (change powerless (book c) (k, .join)).map Prod.fst := by
      simp [change]
    have hpaid := amountIn_paid hopened amount p
    rw [amountIn_join] at hpaid
    have hin : deposited [(k, .join), (k, .deposit amount)] p =
        depositedBy p (k, .deposit amount) := by
      simp [deposited, depositedBy]
    have hout : withdrawn [(k, .join), (k, .deposit amount)] p = 0 := rfl
    have hafter : after powerless (book c) [(k, .join), (k, .deposit amount)] =
        change powerless (change powerless (book c) (k, .join)) (k, .deposit amount) := rfl
    rw [hafter]
    omega
  | @deposit r k amount collateral hr hmem =>
    rw [List.map_singleton, hr]
    have hk : k ∈ (book c).map Prod.fst := List.mem_map_of_mem (f := Prod.fst) hmem
    have hpaid := amountIn_paid hk amount p
    have hin : deposited [(k, .deposit amount)] p = depositedBy p (k, .deposit amount) :=
      Nat.add_zero _
    have hout : withdrawn [(k, .deposit amount)] p = 0 := rfl
    have hafter : after powerless (book c) [(k, .deposit amount)] =
        change powerless (book c) (k, .deposit amount) := rfl
    rw [hafter]
    omega
  | @withdraw r k amount collateral hr _ _ =>
    exact absurd hr (hpay r List.mem_cons_self k amount)

/-- A withdrawal is accounted for unless it closes an account with a rest. -/
theorem Balanced.withdraw_iff {genesis c next : SubnetCommittee} {first : Nat}
    {r : StakeChangeRequest} {log : List (XOnlyPublicKey × Change)} {v : SubnetValidator}
    {amount : Amount} (h : Balanced genesis c log) (hc : Regular c)
    (hstep : StakeStep X t c next first [r]) (hr : requestOf r = (v.pubkey, .withdraw amount))
    (hv : c.findValidator v.pubkey = some v) (hle : amount ≤ v.collateral) :
    Balanced genesis next (log ++ [r].map requestOf) ↔
      (powerOf (v.collateral - amount) = 0 → amount = v.collateral) := by
  have hmem := mem_book_of_findValidator hv
  have hamount : amountIn (book c) v.pubkey = v.collateral := amountIn_of_mem (nodup_book hc) hmem
  have hself := amountIn_withdraw powerless (a := amount) (nodup_book hc)
    (List.mem_map_of_mem (f := Prod.fst) hmem)
  rw [hamount] at hself
  have hnext : book next = change powerless (book c) (v.pubkey, .withdraw amount) := by
    rw [hstep.book_eq, List.map_singleton, hr]
    rfl
  have hdead : (powerless (v.collateral - amount) = true) ↔
      powerOf (v.collateral - amount) = 0 := decide_eq_true_iff
  have hin : ∀ p, deposited [(v.pubkey, .withdraw amount)] p = 0 := fun _ => rfl
  have hout : ∀ p, withdrawn [(v.pubkey, .withdraw amount)] p =
      if v.pubkey = p then amount else 0 := fun _ => Nat.add_zero _
  have hcover := Nat.sub_add_cancel hle
  rw [List.map_singleton, hr]
  simp only [Balanced, collateralOf_eq, hnext, deposited_append, withdrawn_append, hin, hout]
  constructor
  · intro hall hzero
    have hp := hall v.pubkey
    have hbefore := h v.pubkey
    rw [collateralOf_eq, collateralOf_eq, hamount] at hbefore
    rw [hself, if_pos (hdead.mpr hzero), if_pos rfl] at hp
    exact Nat.le_antisymm hle (by omega)
  · intro hcond p
    have hbefore := h p
    rw [collateralOf_eq, collateralOf_eq] at hbefore
    by_cases hp : v.pubkey = p
    · subst hp
      rw [hamount] at hbefore
      rw [hself, if_pos rfl]
      split_ifs with hd
      · have hall := Nat.le_of_eq (hcond (hdead.mp hd)).symm
        omega
      · omega
    · rw [amountIn_change_of_ne powerless (by exact hp), if_neg hp]
      omega

/-- The same with the log in the place of the sorted records. -/
def Conserves (X : Library) (t : Txid20) (db : HeedDb) : Prop :=
  ∀ s, db.getSubnetState X (.fromTxid20 t) = some s →
    ∃ genesis, db.getCommittee X (.fromTxid20 t) 1 = some genesis ∧
      Balanced genesis s.latestCommittee (log X db t)

/-- The two databases agree on the latest committee, the log and the genesis committee
of a subnet. -/
structure SameStakes (X : Library) (t : Txid20) (db db' : HeedDb) : Prop where
  latest : (db'.getSubnetState X (.fromTxid20 t)).map (·.latestCommittee) =
    (db.getSubnetState X (.fromTxid20 t)).map (·.latestCommittee)
  log_eq : log X db' t = log X db t
  genesis : db'.getCommittee X (.fromTxid20 t) 1 = db.getCommittee X (.fromTxid20 t) 1

theorem Conserves.congr (h : Conserves X t db) (hsame : SameStakes X t db db') :
    Conserves X t db' := by
  intro s' hs'
  have hlatest := hsame.latest
  rw [hs', Option.map_some] at hlatest
  obtain ⟨s, hs, heq⟩ := Option.map_eq_some_iff.mp hlatest.symm
  rw [hsame.genesis, hsame.log_eq, ← heq]
  exact h s hs

theorem sameStakes_of_tables (hstate : db'.subnetDb = db.subnetDb)
    (hrequests : db'.stakeChangesDb = db.stakeChangesDb)
    (hcommittees : db'.committeeDb = db.committeeDb) : SameStakes X t db db' := by
  refine ⟨?_, log_congr ?_ ?_, ?_⟩
  · rw [HeedDb.getSubnetState, hstate]
    rfl
  · simp only [count, HeedDb.getAllStakeChanges, hrequests]
  · simp only [entry, HeedDb.getStakeChange, hrequests, implies_true]
  · simp only [HeedDb.getCommittee, hcommittees]

section Steps

variable (laws : DisplayLaws X)
include laws

/-- The kill state of a subnet is no part of its stakes. -/
theorem sameStakes_kill {u : Txid20} {s : SubnetState} {killed : SubnetKillState}
    {marked : Option Nat} (hs : db.getSubnetState X (.fromTxid20 u) = some s)
    (hstate : db'.subnetDb = db.subnetDb.put (subnetStateKey X (.fromTxid20 u))
      { s with killed := killed, markedForKillCheckpointNumber := marked })
    (hrequests : db'.stakeChangesDb = db.stakeChangesDb)
    (hcommittees : db'.committeeDb = db.committeeDb) : SameStakes X t db db' := by
  refine ⟨?_, log_congr ?_ ?_, ?_⟩
  · rw [getSubnetState_of_put laws hstate]
    split_ifs with htu
    · rw [htu, hs]
      rfl
    · rfl
  · simp only [count, HeedDb.getAllStakeChanges, hrequests]
  · simp only [entry, HeedDb.getStakeChange, hrequests, implies_true]
  · simp only [HeedDb.getCommittee, hcommittees]

/-- A stake change shows on its own subnet alone. -/
theorem sameStakes_recordStake {u : Txid20} (htu : t ≠ u) (s : SubnetState)
    (next : SubnetCommittee) (requests : List StakeChangeRequest) :
    SameStakes X t db (recordStake X db (.fromTxid20 u) s next requests) := by
  obtain ⟨hcount, hentry⟩ := entry_foldl_other laws
    (db.saveSubnetState X (.fromTxid20 u) { s with waitingCommittee := some next }) requests htu
  obtain ⟨table, hframe⟩ := foldl_addStakeChange_frame (X := X) (.fromTxid20 u) requests
    (db.saveSubnetState X (.fromTxid20 u) { s with waitingCommittee := some next })
  refine ⟨?_, log_congr hcount hentry, ?_⟩
  · rw [getSubnetState_of_put laws (subnetDb_recordStake _ _ _ _ _), if_neg htu]
  · rw [recordStake, hframe]
    rfl

theorem conserves_recordStake {s : SubnetState} {next : SubnetCommittee}
    {requests : List StakeChangeRequest} {genesis : SubnetCommittee} (hdense : Dense X db t)
    (hgenesis : db.getCommittee X (.fromTxid20 t) 1 = some genesis)
    (hstep : StakeStep X t s.latestCommittee next
      (db.getNextStakeChangeConfigurationNumber X (.fromTxid20 t)) requests) :
    Conserves X t (recordStake X db (.fromTxid20 t) s next requests) ↔
      Balanced genesis next (log X db t ++ requests.map requestOf) := by
  obtain ⟨-, hlog, hstate, hcommittee⟩ := recordStake_writes laws s next hdense hstep.numbers_eq
  rw [hgenesis] at hcommittee
  constructor
  · intro h
    obtain ⟨genesis', hg, hbalanced⟩ := h _ hstate
    rw [hcommittee] at hg
    obtain rfl := Option.some.inj hg
    rw [hlog] at hbalanced
    exact hbalanced
  · intro h s' hs'
    rw [hstate] at hs'
    obtain rfl := Option.some.inj hs'
    refine ⟨genesis, hcommittee, ?_⟩
    rw [hlog]
    exact h

/-- A subnet starts with its genesis committee and an empty log. -/
theorem conserves_start {u : Txid20} {g : SubnetGenesisInfo} {s : SubnetState}
    (h : Conserves X t db) (hbefore : db.getSubnetState X (.fromTxid20 t) = none →
      count X db t = 0)
    (hnone : db.getSubnetState X (.fromTxid20 u) = none) (hwait : s.waitingCommittee = none)
    (hnum : s.committeeNumber = 1) :
    Conserves X t (((db.saveSubnetState X (.fromTxid20 u) s).saveSubnetGenesisInfo X
      (.fromTxid20 u) g).saveCommittee X (.fromTxid20 u) s.committeeNumber s.committee) := by
  have hstate := HeedDb.getSubnetState_save db laws (.fromTxid20 u) (.fromTxid20 t) s
  have hcommittee := HeedDb.getCommittee_save db laws (.fromTxid20 u) (.fromTxid20 t) s.committee
    s.committeeNumber 1
  by_cases htu : t = u
  · subst htu
    rw [if_pos rfl] at hstate
    rw [if_pos ⟨rfl, hnum.symm⟩] at hcommittee
    have hlog : log X db t = [] := by
      rw [log, hbefore hnone]
      rfl
    intro s' hs'
    obtain rfl := Option.some.inj (hstate.symm.trans hs')
    refine ⟨s.committee, hcommittee, ?_⟩
    have hlatest : s.latestCommittee = s.committee := by
      rw [latestCommittee_eq, hwait, Option.getD_none]
    intro p
    change collateralHeld _ p + withdrawn (log X db t) p = _ + deposited (log X db t) p
    rw [hlatest, hlog]
    rfl
  · have hne : ¬ (SubnetId.fromTxid20 t = SubnetId.fromTxid20 u) :=
      fun heq => htu (SubnetId.fromTxid20_injective heq)
    rw [if_neg hne] at hstate
    rw [if_neg (fun hand => hne hand.1)] at hcommittee
    exact h.congr ⟨congrArg _ hstate, rfl, hcommittee⟩

omit laws in
/-- The latest committee after a rotation: the new one when nothing waits that has
another address, and the one before otherwise. -/
theorem latest_rotated (s : SubnetState) (c : StakeChangeRequest) :
    (IpcCheckpointSubnetMsg.rotated s (some c)).latestCommittee =
      if s.committee.multisigAddress ≠ c.committeeAfterChange.multisigAddress ∧
        ∀ w, s.waitingCommittee = some w →
          w.multisigAddress = c.committeeAfterChange.multisigAddress
      then c.committeeAfterChange else s.latestCommittee := by
  simp only [IpcCheckpointSubnetMsg.rotated, SubnetState.rotateToCommittee,
    SubnetCommittee.sameAs]
  by_cases hsame : s.committee.multisigAddress = c.committeeAfterChange.multisigAddress
  · simp [hsame]
  · cases hw : s.waitingCommittee with
    | none => simp [hsame, SubnetState.latestCommittee]
    | some w =>
      by_cases hclear : w.multisigAddress = c.committeeAfterChange.multisigAddress
      · simp [hsame, hclear, SubnetState.latestCommittee]
      · simp [hsame, hclear, SubnetState.latestCommittee, hw]

/-- A checkpoint keeps the log, so it conserves the stakes exactly when it keeps the
collaterals of the latest committee. -/
theorem conserves_checkpointedDb {m : IpcCheckpointSubnetMsg} {s : SubnetState}
    {change : Option StakeChangeRequest} (h : Conserves X t db) (hsound : Sound X db)
    (hpos : 1 ≤ s.committeeNumber) (hm : m.subnetId = .fromTxid20 t)
    (hs : db.getSubnetState X (.fromTxid20 t) = some s) (hrot : m.rotation X db s = .ok change)
    (height : Nat) (hash : BlockHash) (txid : Txid) :
    Conserves X t (m.checkpointedDb X db s change height hash txid) ↔
      ∀ p, collateralHeld (IpcCheckpointSubnetMsg.rotated s change).latestCommittee p =
        collateralHeld s.latestCommittee p := by
  obtain ⟨hcount, hentry, hstate, hcommittee⟩ :=
    checkpointedDb_reads laws height hash txid hsound hm hs hrot t
  have hgenesis := hcommittee 1 (fun _ => by omega)
  have hlog := log_congr hcount hentry
  rw [if_pos rfl] at hstate
  have hlatest : (m.checkpointedState s change height).latestCommittee =
      (IpcCheckpointSubnetMsg.rotated s change).latestCommittee := by
    rw [IpcCheckpointSubnetMsg.checkpointedState_eq]
    rfl
  obtain ⟨genesis, hg, hbefore⟩ := h s hs
  constructor
  · intro hafter p
    obtain ⟨genesis', hg', hbalanced⟩ := hafter _ hstate
    rw [hgenesis, hg] at hg'
    obtain rfl := Option.some.inj hg'
    rw [hlog, hlatest] at hbalanced
    have h₁ := hbefore p
    have h₂ := hbalanced p
    omega
  · intro hkeeps s' hs'
    rw [hstate] at hs'
    obtain rfl := Option.some.inj hs'
    refine ⟨genesis, hgenesis.trans hg, ?_⟩
    intro p
    rw [hlog, hlatest, hkeeps p]
    exact hbefore p

/-- What the steps of a run rely on. -/
structure Grounded (X : Library) (t : Txid20) (db : HeedDb) : Prop where
  sound : Sound X db
  dense : Dense X db t
  before : db.getSubnetState X (.fromTxid20 t) = none → count X db t = 0
  positive : ∀ s, db.getSubnetState X (.fromTxid20 t) = some s → 1 ≤ s.committeeNumber

theorem positive_step {e : Event} (hsound : Sound X db) (hstep : Commit X db e db')
    (h : ∀ s, db.getSubnetState X (.fromTxid20 t) = some s → 1 ≤ s.committeeNumber) :
    ∀ s, db'.getSubnetState X (.fromTxid20 t) = some s → 1 ≤ s.committeeNumber := by
  intro s' hs'
  cases committeeStep_of_commit laws hsound hstep t with
  | other _ hkeeps _ =>
    cases hkeeps with
    | same hstate _ =>
      rw [hs', Option.map_some] at hstate
      obtain ⟨s, hs, heq⟩ := Option.map_eq_some_iff.mp hstate.symm
      rw [← (Prod.mk.inj heq).1]
      exact h s hs
    | starts _ hs hnum _ _ =>
      rw [hs] at hs'
      cases hs'
      exact hnum.ge
  | @checkpoint ctx tx m s change hm hs _ =>
    rw [getSubnetState_checkpointedDb laws _ _ _ _ _ _ hm, if_pos rfl] at hs'
    obtain rfl := Option.some.inj hs'
    have hpos := h s hs
    rw [IpcCheckpointSubnetMsg.checkpointedState_eq]
    change 1 ≤ (IpcCheckpointSubnetMsg.rotated s change).committeeNumber
    cases change with
    | none => exact hpos
    | some c =>
      rcases rotated_cases s c with ⟨-, heq⟩ | ⟨-, -, hnum⟩
      · rw [heq]
        exact hpos
      · omega

theorem grounded_of_trail {l : List (Event × HeedDb)} (hrun : Trail (Commit X) HeedDb.empty l)
    (t : Txid20) : Grounded X t (lastStore HeedDb.empty l) := by
  have hacc := accounted_of_trail laws hrun t
  refine ⟨sound_of_trail laws sound_empty hrun, hacc.dense, hacc.before, ?_⟩
  clear hacc
  induction l using List.reverseRec with
  | nil =>
    intro s hs
    cases hs
  | append_singleton l a ih =>
    obtain ⟨e, db'⟩ := a
    obtain ⟨hl, hstep⟩ := trail_snoc.mp hrun
    rw [lastStore_snoc]
    exact positive_step laws (sound_of_trail laws sound_empty hl) hstep (ih hl)

omit laws in
theorem Grounded.conserves_iff (h : Grounded X t db) (laws : DisplayLaws X) :
    StakesConserved X t db ↔ Conserves X t db := by
  rw [StakesConserved, recordedRequests_eq laws h.sound h.dense]
  rfl

/-- A join before the bootstrap stores the genesis info, and maybe the first state. -/
theorem conserves_join_before {m : IpcJoinSubnetMsg} {height : Nat} {hash : BlockHash}
    {txid : Txid} {saved : HeedDb × Option SubnetState} (hg : Grounded X t db)
    (h : Conserves X t db) (hnone : db.getSubnetState X m.subnetId = none)
    (hsave : m.saveToDb X db height hash txid = .ok saved) : Conserves X t saved.1 := by
  obtain ⟨g, hget, hnew, -, hcase⟩ := IpcJoinSubnetMsg.saveToDb_pre hnone hsave
  obtain ⟨hgid, ⟨u, hu⟩, hreg⟩ := hg.sound.genesis _ _ hget
  have hreg' : RegularList (m.joinedGenesis X g txid).genesisValidators :=
    hreg.append hnew rfl
  rw [hu] at hnone hcase hgid
  rcases hcase with ⟨-, heq⟩ | ⟨s, -, hsub, heq⟩
  · rw [heq]
    exact h.congr (sameStakes_of_tables rfl rfl rfl)
  · rw [heq]
    have hid : (IpcJoinSubnetMsg.startedGenesis (m.joinedGenesis X g txid) height).subnetId =
        .fromTxid20 u := hgid
    obtain ⟨-, -, hwait, hnum, -⟩ := good_toSubnet hid hreg' hsub
    exact conserves_start laws h hg.before hnone hwait hnum

/-- A stake change that pays in conserves the stakes of every subnet. -/
theorem conserves_payIn {u : Txid20} {s : SubnetState} {next : SubnetCommittee}
    {requests : List StakeChangeRequest} (hg : Grounded X t db) (h : Conserves X t db)
    (hs : db.getSubnetState X (.fromTxid20 u) = some s)
    (hstep : StakeStep X u s.latestCommittee next
      (db.getNextStakeChangeConfigurationNumber X (.fromTxid20 u)) requests)
    (hpay : PaysIn requests) :
    Conserves X t (recordStake X db (.fromTxid20 u) s next requests) := by
  by_cases htu : t = u
  · subst htu
    obtain ⟨genesis, hgenesis, hbalanced⟩ := h s hs
    exact (conserves_recordStake laws hg.dense hgenesis hstep).mpr (hbalanced.payIn hstep hpay)
  · exact h.congr (sameStakes_recordStake laws htu s next requests)

/-- An unstake conserves the stakes of its subnet exactly when it leaves no dead rest. -/
theorem keepsStake_unstake_iff {ctx : BlockContext} {tx : Transaction}
    {m : IpcUnstakeCollateralMsg} {height : Nat} {hash : BlockHash} {txid : Txid}
    (hg : Grounded X t db) (h : Conserves X t db)
    (hsave : m.saveToDb X db height hash txid = .ok db') :
    KeepsStake X t db (.message ctx tx (.unstakeCollateral m)) db' ↔ Conserves X t db' := by
  obtain ⟨u, s, v, next, r, hu, hs, hpk, hv, hle, hr, rfl, hstep⟩ :=
    stakeStep_withdraw laws hg.sound hsave
  by_cases htu : t = u
  · subst htu
    obtain ⟨genesis, hgenesis, hbalanced⟩ := h s hs
    rw [conserves_recordStake laws hg.dense hgenesis hstep,
      hbalanced.withdraw_iff (hg.sound.latest laws hs).regular hstep hr hv hle]
    constructor
    · intro hkeeps
      exact hkeeps hu s v (hu ▸ hs) hpk hv
    · intro hrest _ s' v' hs' hpk' hv'
      rw [hu, hs] at hs'
      obtain rfl := Option.some.inj hs'
      rw [hpk] at hpk'
      rw [← Option.some.inj hpk', hv] at hv'
      obtain rfl := Option.some.inj hv'
      exact hrest
  · refine iff_of_true ?_ (h.congr (sameStakes_recordStake laws htu s next [r]))
    intro hm
    exact absurd (SubnetId.fromTxid20_injective (hm.symm.trans hu)) htu

theorem keepsStake_checkpoint_iff {ctx : BlockContext} {tx : Transaction}
    {m : IpcCheckpointSubnetMsg} {saved : HeedDb × SubnetCheckpoint} {height : Nat}
    {hash : BlockHash} {txid : Txid} (hg : Grounded X t db) (h : Conserves X t db)
    (hsave : m.saveToDb X db height hash txid = .ok saved) :
    KeepsStake X t db (.message ctx tx (.checkpointSubnet m)) saved.1 ↔
      Conserves X t saved.1 := by
  obtain ⟨s, change, hst, hrot, heq⟩ := IpcCheckpointSubnetMsg.saveToDb_eq_ok hsave
  obtain ⟨u, hu, -⟩ := hg.sound.state laws hst
  rw [hu] at hst
  rw [heq]
  by_cases htu : t = u
  · subst htu
    rw [conserves_checkpointedDb laws h hg.sound (hg.positive s hst) hu hst hrot]
    cases change with
    | none =>
      refine iff_of_true ?_ (fun _ => rfl)
      intro _ s' c hs' hlt
      rw [hu, hst] at hs'
      obtain rfl := Option.some.inj hs'
      rcases rotation_eq_none hrot with hn | hn <;> omega
    | some c =>
      obtain ⟨hlt, hc⟩ := IpcCheckpointSubnetMsg.rotation_eq_some hrot
      rw [latest_rotated]
      constructor
      · intro hkeeps p
        split_ifs with hreplaced
        · exact hkeeps hu s c (hu ▸ hst) hlt hc hreplaced.1 hreplaced.2 p
        · rfl
      · intro hkeeps _ s' c' hs' _ hc' hne hwait p
        rw [hu, hst] at hs'
        obtain rfl := Option.some.inj hs'
        rw [hc] at hc'
        obtain rfl := Option.some.inj hc'
        have hp := hkeeps p
        rwa [if_pos ⟨hne, hwait⟩] at hp
  · obtain ⟨hcount, hentry, hstate, hcommittee⟩ :=
      checkpointedDb_reads laws height hash txid hg.sound hu hst hrot t
    rw [if_neg htu] at hstate
    refine iff_of_true ?_ (h.congr ⟨congrArg _ hstate, log_congr hcount hentry,
      hcommittee 1 (fun heq => absurd heq htu)⟩)
    intro hm
    exact absurd (SubnetId.fromTxid20_injective (hm.symm.trans hu)) htu

/-- One step: the condition says exactly when the stakes stay conserved. -/
theorem keepsStake_iff {e : Event} (hg : Grounded X t db) (hstep : Commit X db e db')
    (h : Conserves X t db) : KeepsStake X t db e db' ↔ Conserves X t db' := by
  cases hstep with
  | createSubnet => exact iff_of_true trivial (h.congr (sameStakes_of_tables rfl rfl rfl))
  | @joinSubnet ctx tx m₀ m saved _ _ hsave =>
    refine iff_of_true trivial ?_
    cases hst : db.getSubnetState X m.subnetId with
    | none => exact conserves_join_before laws hg h hst hsave
    | some s =>
      obtain ⟨u, next, requests, hu, heq, hstake, hpay⟩ := stakeStep_join laws hg.sound hst hsave
      rw [hu] at hst
      rw [heq]
      exact conserves_payIn laws hg h hst hstake hpay
  | prefundSubnet _ _ hsave =>
    obtain ⟨g, -, -, rfl⟩ := IpcPrefundSubnetMsg.saveToDb_eq_ok hsave
    exact iff_of_true trivial (h.congr (sameStakes_of_tables rfl rfl rfl))
  | fundSubnet _ _ hsave =>
    obtain ⟨s, -, rfl⟩ := IpcFundSubnetMsg.saveToDb_eq_ok hsave
    exact iff_of_true trivial (h.congr (sameStakes_of_tables rfl rfl rfl))
  | checkpointSubnet _ _ hsave => exact keepsStake_checkpoint_iff laws hg h hsave
  | batchTransfer _ _ hsave =>
    obtain ⟨_, _, _, heq⟩ := IpcBatchTransferMsg.sameButBatch_saveToDb hsave
    rw [heq]
    exact iff_of_true trivial (h.congr (sameStakes_of_tables rfl rfl rfl))
  | stakeCollateral _ _ hsave =>
    obtain ⟨u, s, next, requests, -, hs, rfl, hstake, hpay⟩ :=
      stakeStep_deposit laws hg.sound hsave
    exact iff_of_true trivial (conserves_payIn laws hg h hs hstake hpay)
  | unstakeCollateral _ _ hsave => exact keepsStake_unstake_iff laws hg h hsave
  | killSubnet _ _ hsave =>
    obtain ⟨s, request, hst, rfl | ⟨marked, -, rfl⟩⟩ := IpcKillSubnetMsg.saveToDb_eq_ok hsave
    · exact iff_of_true trivial (h.congr (sameStakes_of_tables rfl rfl rfl))
    · obtain ⟨u, hu, -⟩ := hg.sound.state laws hst
      rw [hu] at hst ⊢
      exact iff_of_true trivial (h.congr (sameStakes_kill laws hst rfl rfl rfl))
  | transaction => exact iff_of_true trivial (h.congr (sameStakes_of_tables rfl rfl rfl))
  | rewards hsame =>
    obtain ⟨_, _, rfl⟩ := hsame
    exact iff_of_true trivial (h.congr (sameStakes_of_tables rfl rfl rfl))
  | block => exact iff_of_true trivial (h.congr (sameStakes_of_tables rfl rfl rfl))

/-- The recorded requests account for the stakes of a subnet in every state of a run
exactly when no unstake closes an account with a rest and no rotation replaces the
latest committee by one with other collaterals. -/
theorem stakes_conserved_iff {l : List (Event × HeedDb)} (hrun : Trail (Commit X) HeedDb.empty l) :
    (∀ l', l' <+: l → StakesConserved X t (lastStore HeedDb.empty l')) ↔
      AllSteps (KeepsStake X t) HeedDb.empty l := by
  symm
  apply allSteps_iff_prefixes
  · intro s hs
    cases hs
  · rintro l₁ e db' l₂ rfl hbefore
    obtain ⟨hl₁, hstep, -⟩ := trail_append.mp hrun
    have hg := grounded_of_trail laws hl₁ t
    have hg' : Grounded X t db' := by
      have hl : Trail (Commit X) HeedDb.empty (l₁ ++ [(e, db')]) := trail_snoc.mpr ⟨hl₁, hstep⟩
      have hlast := grounded_of_trail laws hl t
      rwa [lastStore_snoc] at hlast
    rw [hg.conserves_iff laws] at hbefore
    rw [hg'.conserves_iff laws]
    exact keepsStake_iff laws hg hstep hbefore

end Steps

/-- A key without accounts and requests is balanced. -/
theorem balanced_iff {genesis c : SubnetCommittee} {requests : List (XOnlyPublicKey × Change)} :
    Balanced genesis c requests ↔
      ∀ p ∈ (book genesis).map Prod.fst ++ (book c).map Prod.fst ++ requests.map Prod.fst,
        collateralHeld c p + withdrawn requests p =
          collateralHeld genesis p + deposited requests p := by
  refine ⟨fun h p _ => h p, fun h p => ?_⟩
  by_cases hp : p ∈ (book genesis).map Prod.fst ++ (book c).map Prod.fst ++ requests.map Prod.fst
  · exact h p hp
  · rw [List.mem_append, List.mem_append, not_or, not_or] at hp
    rw [collateralOf_eq, collateralOf_eq, amountIn_of_not_mem hp.1.1, amountIn_of_not_mem hp.1.2,
      deposited_of_not_mem hp.2, withdrawn_of_not_mem hp.2]

instance (genesis c : SubnetCommittee) (requests : List (XOnlyPublicKey × Change)) :
    Decidable (Balanced genesis c requests) :=
  decidable_of_iff _ balanced_iff.symm

instance (X : Library) (t : Txid20) (db : HeedDb) : Decidable (StakesConserved X t db) :=
  match hs : db.getSubnetState X (.fromTxid20 t), hg : db.getCommittee X (.fromTxid20 t) 1 with
  | none, _ => .isTrue (by
      intro s hs'
      rw [hs] at hs'
      cases hs')
  | some s, none => .isFalse (by
      intro h
      obtain ⟨genesis, hgenesis, -⟩ := h s hs
      rw [hg] at hgenesis
      cases hgenesis)
  | some s, some genesis =>
    decidable_of_iff (Balanced genesis s.latestCommittee (recordedRequests X db t)) (by
      constructor
      · intro h s' hs'
        rw [hs] at hs'
        obtain rfl := Option.some.inj hs'
        exact ⟨genesis, hg, h⟩
      · intro h
        obtain ⟨genesis', hgenesis, hbalanced⟩ := h s hs
        rw [hg] at hgenesis
        obtain rfl := Option.some.inj hgenesis
        exact hbalanced)

open Solo

/-- A second validator, who joins with 15000. -/
def partner : XOnlyPublicKey := bytes32 20

def partnerTx : Transaction :=
  spending (bytes32 12) 0 [makePushDataScript (tagBytes ipcJoinSubnetTag ++ [1])]
    [⟨15000, backup.scriptPubkey⟩]

/-- An unstake of the first validator, who has a collateral of 100000. -/
def leavingTx (amount : Amount) : Transaction :=
  payingTx 13 ipcUnstakeTag (signature.bytes ++ toBe amountSize amount) 330 10

/-- A library for a subnet with a minimum stake of 1000, less than a power of one needs. -/
def leavingLibrary (amount : Amount) : Library :=
  ideal { creates := [createMsg 1000], joins := [joinMsg, { joinMsg with pubkey := partner }]
          signed := [(key, (bytes32 13).bytes ++ key.bytes ++ toBe amountSize amount ++
            subnet.bytes, signature)] }

def leavingTxs (amount : Amount) : List Transaction :=
  [createTx, joinTx 100000, partnerTx, leavingTx amount]

/-- The first validator takes out all of its collateral and is gone. -/
theorem stakes_conserved_of_whole_unstake :
    ∃ l s, Trail (Commit (leavingLibrary 100000)) HeedDb.empty l ∧
      (lastStore HeedDb.empty l).getSubnetState (leavingLibrary 100000) (.fromTxid20 subnet) =
        some s ∧
      s.latestCommittee.validators.map (·.pubkey) = [partner] ∧
      AllSteps (KeepsStake (leavingLibrary 100000) subnet) HeedDb.empty l := by
  have hlaws : DisplayLaws (leavingLibrary 100000) := displayLaws_ideal _
  obtain ⟨l, hl, hc, hlast⟩ := exists_trail (X := leavingLibrary 100000) ⟨none⟩ context
    (leavingTxs 100000) HeedDb.empty
  have hstores : ∀ db ∈ l.map Prod.snd, StakesConserved (leavingLibrary 100000) subnet db := by
    rw [hc]
    decide +kernel
  have hstate : ((lastStore HeedDb.empty l).getSubnetState (leavingLibrary 100000)
      (.fromTxid20 subnet)).map (fun s => s.latestCommittee.validators.map (·.pubkey)) =
        some [partner] := by
    rw [hlast]
    decide +kernel
  obtain ⟨s, hs, hkeys⟩ := Option.map_eq_some_iff.mp hstate
  refine ⟨l, s, hl, hs, hkeys, (stakes_conserved_iff hlaws hl).mp ?_⟩
  refine forall_prefixes_of_stores ?_ hstores
  intro s hs
  cases hs

/-- It takes out 95000: no power is left, so it is removed, and 5000 of its collateral
are in no record. -/
theorem unstake_forgets_rest :
    ¬ ∀ X : Library, DisplayLaws X → ∀ l t, Trail (Commit X) HeedDb.empty l →
      StakesConserved X t (lastStore HeedDb.empty l) := by
  intro hall
  obtain ⟨l, hl, -, hlast⟩ := exists_trail (X := leavingLibrary 95000) ⟨none⟩ context
    (leavingTxs 95000) HeedDb.empty
  have hnot : ¬ StakesConserved (leavingLibrary 95000) subnet (lastStore HeedDb.empty l) := by
    rw [hlast]
    decide +kernel
  exact hnot (hall (leavingLibrary 95000) (displayLaws_ideal _) l subnet hl)

end Monitor
