import BitcoinIpc.Logs
import BitcoinIpc.StakeHistory
import Mathlib.Data.List.Induction

/-!
# Configuration numbers along a run

The committee a request leads to has at most the number of the request, but for
the first request of a join, whose committee has the number of the deposit after
it. So the withdrawals up to the number of the active committee are confirmed,
and a withdrawal is open exactly as long as no checkpoint of its subnet has asked
for its number or a later one.
-/

namespace Monitor

open Faults Bytes Chain Messages Crates Multisig Db Grouping Commits OrderedTable

variable {X : Library}

/-- The configuration number that the checkpoint of an event asks of a subnet. -/
def requestedNumber (t : Txid20) : Event → Option Nat
  | .message _ _ (.checkpointSubnet m) =>
    if m.subnetId = .fromTxid20 t then some m.nextCommitteeConfigurationNumber else none
  | _ => none

/-- The numbers that the checkpoints of a run ask of a subnet. -/
def requestedNumbers (t : Txid20) (l : List (Event × HeedDb)) : List Nat :=
  l.filterMap (fun a => requestedNumber t a.1)

theorem requestedNumbers_snoc (t : Txid20) (l : List (Event × HeedDb)) (e : Event) (db : HeedDb) :
    requestedNumbers t (l ++ [(e, db)]) = requestedNumbers t l ++ (requestedNumber t e).toList := by
  rw [requestedNumbers, List.filterMap_append]
  simp only [List.filterMap_cons, List.filterMap_nil]
  cases requestedNumber t e <;> rfl

/-- The amount that a request takes out. -/
def withdrawnAmount (c : StakeChangeRequest) : Option Amount :=
  match c.change with
  | .withdraw amount => some amount
  | _ => none

def IsWithdraw (c : StakeChangeRequest) : Prop := (withdrawnAmount c).isSome

/-- What holds of the requests of a subnet after checkpoints asked for the numbers
`asked`. -/
structure Accounted (X : Library) (asked : List Nat) (db : HeedDb) (t : Txid20) : Prop where
  dense : Dense X db t
  before : db.getSubnetState X (.fromTxid20 t) = none → count X db t = 0
  configuration_le : ∀ s, db.getSubnetState X (.fromTxid20 t) = some s →
    s.committee.configurationNumber ≤ count X db t ∧
    ∀ w, s.waitingCommittee = some w → w.configurationNumber ≤ count X db t
  after_le : ∀ k c, db.getStakeChange X (.fromTxid20 t) k = some c →
    c.committeeAfterChange.configurationNumber ≤ count X db t ∧
    ∀ k' c', db.getStakeChange X (.fromTxid20 t) k' = some c' → IsWithdraw c' →
      k' ≤ c.committeeAfterChange.configurationNumber → k' ≤ k
  asked_le : ∀ n ∈ asked, n ≤ count X db t
  open_iff : ∀ k c, db.getStakeChange X (.fromTxid20 t) k = some c → IsWithdraw c →
    (c.checkpointBlockHeight = none ↔ ∀ n ∈ asked, n < k)
  active_confirmed : ∀ s k c, db.getSubnetState X (.fromTxid20 t) = some s →
    db.getStakeChange X (.fromTxid20 t) k = some c → IsWithdraw c →
    k ≤ s.committee.configurationNumber → c.checkpointBlockHeight ≠ none

variable {db db' : HeedDb} {t u : Txid20} {asked : List Nat}

/-- The requests and the committees of the state are all that is read. -/
theorem Accounted.congr (h : Accounted X asked db t)
    (hreq : ∀ k, db'.getStakeChange X (.fromTxid20 t) k = db.getStakeChange X (.fromTxid20 t) k)
    (hcount : count X db' t = count X db t)
    (hstate : (db'.getSubnetState X (.fromTxid20 t)).map (fun s => (s.committee, s.waitingCommittee)) =
      (db.getSubnetState X (.fromTxid20 t)).map (fun s => (s.committee, s.waitingCommittee))) :
    Accounted X asked db' t := by
  have hold : ∀ s', db'.getSubnetState X (.fromTxid20 t) = some s' →
      ∃ s, db.getSubnetState X (.fromTxid20 t) = some s ∧ s.committee = s'.committee ∧
        s.waitingCommittee = s'.waitingCommittee := by
    intro s' hs'
    rw [hs', Option.map_some] at hstate
    obtain ⟨s, hs, heq⟩ := Option.map_eq_some_iff.mp hstate.symm
    exact ⟨s, hs, (Prod.mk.inj heq).1, (Prod.mk.inj heq).2⟩
  refine ⟨?_, ?_, ?_, ?_, ?_, ?_, ?_⟩
  · intro k
    rw [entry, hreq, hcount]
    exact h.dense k
  · intro hnone
    rw [hnone, Option.map_none] at hstate
    rw [hcount]
    exact h.before (Option.map_eq_none_iff.mp hstate.symm)
  · intro s' hs'
    obtain ⟨s, hs, hc, hw⟩ := hold s' hs'
    rw [← hc, ← hw, hcount]
    exact h.configuration_le s hs
  · simp only [hreq, hcount]
    exact h.after_le
  · simp only [hcount]
    exact h.asked_le
  · simp only [hreq]
    exact h.open_iff
  · intro s' k c hs'
    obtain ⟨s, hs, hc, -⟩ := hold s' hs'
    rw [hreq, ← hc]
    exact h.active_confirmed s k c hs

theorem accounted_empty (t : Txid20) : Accounted X [] HeedDb.empty t := by
  refine ⟨(history_empty t).dense, fun _ => rfl, ?_, ?_, ?_, ?_, ?_⟩
  · intro s hs
    cases hs
  · intro k c hc
    cases hc
  · simp
  · intro k c hc
    cases hc
  · intro s k c hs
    cases hs

theorem Accounted.latest_le (h : Accounted X asked db t) {s : SubnetState}
    (hs : db.getSubnetState X (.fromTxid20 t) = some s) :
    s.latestCommittee.configurationNumber ≤ count X db t := by
  obtain ⟨hc, hw⟩ := h.configuration_le s hs
  rw [latestCommittee_eq]
  cases hwait : s.waitingCommittee with
  | none => exact hc
  | some w => exact hw w hwait

theorem Accounted.number_bounds (h : Accounted X asked db t) {k : Nat} {c : StakeChangeRequest}
    (hc : db.getStakeChange X (.fromTxid20 t) k = some c) : 1 ≤ k ∧ k ≤ count X db t :=
  (h.dense k).mp (entry_isSome.mpr ⟨c, hc⟩)

section Steps

variable (laws : DisplayLaws X)
include laws

/-- The requests after a stake change: the ones before it and the new ones, which have
the next numbers. -/
theorem getStakeChange_recordStake {s : SubnetState} {c next : SubnetCommittee}
    {requests : List StakeChangeRequest}
    (hstep : StakeStep X t c next
      (db.getNextStakeChangeConfigurationNumber X (.fromTxid20 t)) requests)
    {k : Nat} {r : StakeChangeRequest}
    (hr : (recordStake X db (.fromTxid20 t) s next requests).getStakeChange X (.fromTxid20 t) k =
      some r) :
    (r ∈ requests ∧ count X db t < k) ∨ db.getStakeChange X (.fromTxid20 t) k = some r := by
  have hnumbers := hstep.numbers_eq
  rw [HeedDb.getNextStakeChangeConfigurationNumber_eq] at hnumbers
  have hnodup : (requests.map (·.configurationNumber)).Nodup := by
    rw [hnumbers]
    exact List.nodup_range'
  rw [recordStake, getStakeChange_foldl laws
    (fun a ha b hb hab => List.inj_on_of_nodup_map hnodup ha hb hab), if_pos rfl,
    Option.or_eq_some_iff] at hr
  rcases hr with hfind | ⟨-, hold⟩
  · left
    have hmem := List.mem_of_find?_eq_some hfind
    have hk : r.configurationNumber = k := by simpa using List.find?_some hfind
    have hrange := List.mem_map_of_mem (f := fun r : StakeChangeRequest => r.configurationNumber) hmem
    rw [hnumbers, List.mem_range'_1] at hrange
    refine ⟨hmem, ?_⟩
    rw [← hk]
    exact Nat.lt_of_succ_le hrange.1
  · exact Or.inr hold

omit laws in
/-- A withdrawal is the only request of its stake change. -/
theorem length_of_isWithdraw {c : SubnetCommittee} {requests : List StakeChangeRequest}
    (h : StakeKind c requests) {r : StakeChangeRequest} (hr : r ∈ requests)
    (hw : IsWithdraw r) : requests.length = 1 := by
  have hno : ∀ r, ∀ change, requestOf r = change → (∀ amount, change.2 ≠ .withdraw amount) →
      ¬ IsWithdraw r := by
    rintro r _ rfl hchange hw
    obtain ⟨amount, hamount⟩ := Option.isSome_iff_exists.mp hw
    unfold withdrawnAmount at hamount
    split at hamount
    · next a ha => exact hchange a (by rw [requestOf, ha]; rfl)
    · cases hamount
  cases h with
  | join ha hb _ =>
    rcases List.mem_pair.mp hr with rfl | rfl
    · exact absurd hw (hno _ _ ha (fun _ => by simp))
    · exact absurd hw (hno _ _ hb (fun _ => by simp))
  | deposit _ _ => rfl
  | withdraw _ _ _ => rfl

theorem count_recordStake {s : SubnetState} {c next : SubnetCommittee}
    {requests : List StakeChangeRequest} (h : Dense X db t)
    (hstep : StakeStep X t c next
      (db.getNextStakeChangeConfigurationNumber X (.fromTxid20 t)) requests) :
    Dense X (recordStake X db (.fromTxid20 t) s next requests) t ∧
      count X (recordStake X db (.fromTxid20 t) s next requests) t =
        count X db t + requests.length := by
  obtain ⟨hdense, hlog, -, -⟩ := recordStake_writes laws s next h hstep.numbers_eq
  refine ⟨hdense, ?_⟩
  rw [← length_log hdense, hlog, List.length_append, List.length_map, length_log h]

/-- A stake change appends open requests. -/
theorem Accounted.stake {s : SubnetState} {next : SubnetCommittee}
    {requests : List StakeChangeRequest} (h : Accounted X asked db t)
    (hs : db.getSubnetState X (.fromTxid20 t) = some s)
    (hstep : StakeStep X t s.latestCommittee next
      (db.getNextStakeChangeConfigurationNumber X (.fromTxid20 t)) requests) :
    Accounted X asked (recordStake X db (.fromTxid20 t) s next requests) t := by
  have hlatest := h.latest_le hs
  have hnext := hstep.number_eq
  obtain ⟨hdense, hcount⟩ := count_recordStake laws (s := s) h.dense hstep
  have hstate := getSubnetState_of_put laws (t := t)
    (subnetDb_recordStake (X := X) db (.fromTxid20 t) s next requests)
  have hget : ∀ k r, (recordStake X db (.fromTxid20 t) s next requests).getStakeChange X
      (.fromTxid20 t) k = some r → (r ∈ requests ∧ count X db t < k) ∨
        db.getStakeChange X (.fromTxid20 t) k = some r :=
    fun k r hr => getStakeChange_recordStake laws hstep hr
  rw [if_pos rfl] at hstate
  generalize recordStake X db (.fromTxid20 t) s next requests = db' at *
  have hbound : ∀ k r, db'.getStakeChange X (.fromTxid20 t) k = some r → k ≤ count X db' t :=
    fun k r hr => ((hdense k).mp (entry_isSome.mpr ⟨r, hr⟩)).2
  refine ⟨hdense, ?_, ?_, ?_, ?_, ?_, ?_⟩
  · intro hnone
    rw [hstate] at hnone
    cases hnone
  · intro s' hs'
    rw [hstate] at hs'
    cases hs'
    refine ⟨le_trans (h.configuration_le s hs).1 (by omega), ?_⟩
    intro w hw
    cases hw
    omega
  · intro k r hr
    rcases hget k r hr with ⟨hmem, hlt⟩ | hold
    · rw [hstep.after_eq r hmem]
      refine ⟨by omega, ?_⟩
      intro k' r' hr' hw hle
      rcases hget k' r' hr' with ⟨hmem', -⟩ | hold'
      · have hone := length_of_isWithdraw hstep.kind hmem' hw
        have := hbound k' r' hr'
        omega
      · have := (h.number_bounds hold').2
        omega
    · obtain ⟨hafter, hless⟩ := h.after_le k r hold
      refine ⟨by omega, ?_⟩
      intro k' r' hr' hw hle
      rcases hget k' r' hr' with ⟨-, hlt⟩ | hold'
      · omega
      · exact hless k' r' hold' hw hle
  · intro n hn
    have := h.asked_le n hn
    omega
  · intro k r hr hw
    rcases hget k r hr with ⟨hmem, hlt⟩ | hold
    · refine iff_of_true (hstep.open_ r hmem) ?_
      intro n hn
      exact lt_of_le_of_lt (h.asked_le n hn) hlt
    · exact h.open_iff k r hold hw
  · intro s' k r hs' hr hw hle
    rw [hstate] at hs'
    cases hs'
    rcases hget k r hr with ⟨-, hlt⟩ | hold
    · exact absurd (le_trans hle (h.configuration_le s hs).1) (by omega)
    · exact h.active_confirmed s k r hs hold hw hle

omit laws in
/-- A subnet starts with an empty log. -/
theorem Accounted.start {s : SubnetState} (h : Accounted X asked db t)
    (hnone : db.getSubnetState X (.fromTxid20 t) = none) (hwait : s.waitingCommittee = none)
    (hconf : s.committee.configurationNumber = 0)
    (hr : db'.stakeChangesDb = db.stakeChangesDb)
    (hs : db'.getSubnetState X (.fromTxid20 t) = some s) : Accounted X asked db' t := by
  have hzero := h.before hnone
  have hcount : count X db' t = count X db t := by
    simp only [count, HeedDb.getAllStakeChanges, hr]
  have hget : ∀ k, db'.getStakeChange X (.fromTxid20 t) k = none := by
    intro k
    rw [HeedDb.getStakeChange, hr]
    by_contra hsome
    obtain ⟨c, hc⟩ := Option.ne_none_iff_exists'.mp hsome
    have := h.number_bounds hc
    omega
  refine ⟨?_, ?_, ?_, ?_, ?_, ?_, ?_⟩
  · intro k
    have hdense := h.dense k
    simp only [entry, HeedDb.getStakeChange, hcount, hr] at hdense ⊢
    exact hdense
  · intro hnone'
    rw [hs] at hnone'
    cases hnone'
  · intro s' hs'
    rw [hs] at hs'
    cases hs'
    rw [hwait, hconf]
    exact ⟨Nat.zero_le _, fun w hw => by cases hw⟩
  · intro k c hc
    rw [hget] at hc
    cases hc
  · rw [hcount]
    exact h.asked_le
  · intro k c hc
    rw [hget] at hc
    cases hc
  · intro s' k c _ hc
    rw [hget] at hc
    cases hc

theorem Accounted.subnetStep {e : Event} (h : Accounted X asked db t)
    (hstep : SubnetStep X db e db')
    (he : ∀ ctx tx m, e ≠ .message ctx tx (.checkpointSubnet m)) : Accounted X asked db' t := by
  have hsame : db'.stakeChangesDb = db.stakeChangesDb →
      (db'.getSubnetState X (.fromTxid20 t)).map (fun s => (s.committee, s.waitingCommittee)) =
        (db.getSubnetState X (.fromTxid20 t)).map (fun s => (s.committee, s.waitingCommittee)) →
      Accounted X asked db' t := by
    intro hr hstate
    refine h.congr ?_ ?_ hstate
    · intro k
      rw [HeedDb.getStakeChange, hr]
      rfl
    · simp only [count, HeedDb.getAllStakeChanges, hr]
  cases hstep with
  | frame hframe =>
    refine hsame hframe.2.2.1 ?_
    rw [HeedDb.getSubnetState, hframe.1]
    rfl
  | genesis => exact hsame rfl rfl
  | @start _ u g s hnone hid hreg hsub =>
    obtain ⟨-, -, hwait, -, hconf⟩ := good_toSubnet hid hreg hsub
    have hstate := HeedDb.getSubnetState_save db laws (.fromTxid20 u) (.fromTxid20 t) s
    by_cases htu : t = u
    · subst htu
      rw [if_pos rfl] at hstate
      exact h.start hnone hwait hconf rfl hstate
    · rw [if_neg (fun heq => htu (SubnetId.fromTxid20_injective heq))] at hstate
      exact hsame rfl (congrArg _ hstate)
  | @stake _ u s next requests hs hstake =>
    by_cases htu : t = u
    · subst htu
      exact h.stake laws hs hstake
    · have hstate := getSubnetState_of_put laws (t := t)
        (subnetDb_recordStake (X := X) db (.fromTxid20 u) s next requests)
      rw [if_neg htu] at hstate
      refine h.congr ?_ ?_ (by rw [hstate])
      · intro k
        rw [recordStake, getStakeChange_foldl laws, if_neg htu]
        · rfl
        · have hnodup : (requests.map (·.configurationNumber)).Nodup := by
            rw [hstake.numbers_eq]
            exact List.nodup_range'
          exact fun a ha b hb hab => List.inj_on_of_nodup_map hnodup ha hb hab
      · exact (entry_foldl_other laws _ requests htu).1
  | @kill _ u s killed marked _ hs hdb _ hr _ =>
    refine hsame hr ?_
    rw [getSubnetState_of_put laws hdb]
    split_ifs with htu
    · subst htu
      rw [hs]
      rfl
    · rfl
  | checkpoint => exact absurd rfl (he _ _ _)

omit laws in
theorem rotation_eq_none {m : IpcCheckpointSubnetMsg} {s : SubnetState}
    (h : m.rotation X db s = .ok none) : m.nextCommitteeConfigurationNumber = 0 ∨
      m.nextCommitteeConfigurationNumber = s.committee.configurationNumber := by
  simp only [IpcCheckpointSubnetMsg.rotation] at h
  split_ifs at h with hn
  · exact hn
  · obtain ⟨_, -, h⟩ := bind_eq_ok.mp h
    obtain ⟨c, -, h⟩ := bind_eq_ok.mp h
    cases h

omit laws in
/-- A checkpoint without a rotation asks for no more than is confirmed. -/
theorem Accounted.ask (h : Accounted X asked db t) {m : IpcCheckpointSubnetMsg} {s : SubnetState}
    (hs : db.getSubnetState X (.fromTxid20 t) = some s)
    (hrot : m.rotation X db s = .ok none) :
    Accounted X (asked ++ [m.nextCommitteeConfigurationNumber]) db t := by
  have hle : m.nextCommitteeConfigurationNumber ≤ s.committee.configurationNumber := by
    rcases rotation_eq_none hrot with hn | hn <;> omega
  refine ⟨h.dense, h.before, h.configuration_le, h.after_le, ?_, ?_, h.active_confirmed⟩
  · intro n hn
    rcases List.mem_append.mp hn with hn | hn
    · exact h.asked_le n hn
    · rw [List.mem_singleton.mp hn]
      exact le_trans hle (h.configuration_le s hs).1
  · intro k c hc hw
    rw [h.open_iff k c hc hw]
    constructor
    · intro hall n hn
      rcases List.mem_append.mp hn with hn | hn
      · exact hall n hn
      · rw [List.mem_singleton.mp hn]
        by_contra hk
        exact h.active_confirmed s k c hs hc hw (by omega) ((h.open_iff k c hc hw).mpr hall)
    · intro hall n hn
      exact hall n (List.mem_append_left _ hn)

omit laws in
theorem open_confirms {n : Nat} {c : StakeChangeRequest} {height : Nat} {hash : BlockHash} :
    (if HeedDb.confirms n c = true then HeedDb.confirmed height hash c else c).checkpointBlockHeight
      = none ↔ c.checkpointBlockHeight = none ∧ n < c.configurationNumber := by
  by_cases hopen : c.checkpointBlockHeight = none
  · by_cases hle : c.configurationNumber ≤ n
    · simp [HeedDb.confirms, HeedDb.confirmed, hopen, hle]
    · simp [HeedDb.confirms, hopen, hle, not_le.mp hle]
  · have hsome := Option.isSome_iff_ne_none.mpr hopen
    simp [HeedDb.confirms, hopen, Option.isNone_iff_eq_none]

omit laws in
theorem rotated_committee (s : SubnetState) (c : StakeChangeRequest) :
    (IpcCheckpointSubnetMsg.rotated s (some c)).committee = s.committee ∨
      (IpcCheckpointSubnetMsg.rotated s (some c)).committee = c.committeeAfterChange := by
  simp only [IpcCheckpointSubnetMsg.rotated, SubnetState.rotateToCommittee]
  split_ifs
  · exact Or.inl rfl
  · exact Or.inr rfl
  · exact Or.inr rfl

/-- The requests after a rotation: those before it, confirmed up to the number it asks for. -/
theorem getStakeChange_rotate (hsound : Sound X db) {m : IpcCheckpointSubnetMsg} {s : SubnetState}
    {c : StakeChangeRequest} {height : Nat} {hash : BlockHash} {txid : Txid}
    (hm : m.subnetId = .fromTxid20 t) (hs : db.getSubnetState X (.fromTxid20 t) = some s)
    (hrot : m.rotation X db s = .ok (some c)) {k : Nat} {r' : StakeChangeRequest}
    (hr' : (m.checkpointedDb X db s (some c) height hash txid).getStakeChange X (.fromTxid20 t) k =
      some r') :
    ∃ r, db.getStakeChange X (.fromTxid20 t) k = some r ∧
      r'.committeeAfterChange = r.committeeAfterChange ∧ (IsWithdraw r' ↔ IsWithdraw r) ∧
      (r'.checkpointBlockHeight = none ↔
        r.checkpointBlockHeight = none ∧ m.nextCommitteeConfigurationNumber < k) := by
  obtain ⟨-, hreads⟩ := requests_of_checkpoint laws height hash txid hsound hm hs hrot
  rw [hreads t k] at hr'
  obtain ⟨r, hr, rfl⟩ := Option.map_eq_some_iff.mp hr'
  have hnum := (hsound.request laws hr).1
  simp only [true_and]
  refine ⟨r, hr, ?_, ?_, ?_⟩
  · split_ifs <;> rfl
  · split_ifs <;> rfl
  · rw [open_confirms, hnum]

/-- A rotation confirms the requests up to the number it asks for. -/
theorem Accounted.rotate (h : Accounted X asked db t) (hsound : Sound X db)
    {m : IpcCheckpointSubnetMsg} {s : SubnetState} {c : StakeChangeRequest} {height : Nat}
    {hash : BlockHash} {txid : Txid} (hm : m.subnetId = .fromTxid20 t)
    (hs : db.getSubnetState X (.fromTxid20 t) = some s) (hrot : m.rotation X db s = .ok (some c)) :
    Accounted X (asked ++ [m.nextCommitteeConfigurationNumber])
      (m.checkpointedDb X db s (some c) height hash txid) t := by
  obtain ⟨-, hc⟩ := IpcCheckpointSubnetMsg.rotation_eq_some hrot
  rw [hm] at hc
  obtain ⟨hcount, hentry, hstate, -⟩ := checkpointedDb_reads laws height hash txid hsound hm hs hrot t
  have hget : ∀ k r', (m.checkpointedDb X db s (some c) height hash txid).getStakeChange X
      (.fromTxid20 t) k = some r' → _ :=
    fun k r' hr' => getStakeChange_rotate laws hsound hm hs hrot hr'
  rw [if_pos rfl, IpcCheckpointSubnetMsg.checkpointedState_eq] at hstate
  generalize m.checkpointedDb X db s (some c) height hash txid = db' at *
  obtain ⟨-, hcommittee, hwaiting⟩ := rotated_committees
    (P := fun w => w.configurationNumber ≤ count X db t) (h.configuration_le s hs).1
    (h.configuration_le s hs).2 (fun r (hr : some c = some r) =>
      Option.some.inj hr ▸ (h.after_le _ c hc).1)
  refine ⟨?_, ?_, ?_, ?_, ?_, ?_, ?_⟩
  · intro k
    rw [hentry, hcount]
    exact h.dense k
  · intro hnone
    rw [hstate] at hnone
    cases hnone
  · intro s' hs'
    rw [hstate] at hs'
    cases hs'
    rw [hcount]
    exact ⟨hcommittee, hwaiting⟩
  · intro k r' hr'
    obtain ⟨r, hr, hafter, -, -⟩ := hget k r' hr'
    rw [hafter, hcount]
    refine ⟨(h.after_le k r hr).1, ?_⟩
    intro k' q' hq' hw hle
    obtain ⟨q, hq, -, hwq, -⟩ := hget k' q' hq'
    exact (h.after_le k r hr).2 k' q hq (hwq.mp hw) hle
  · intro n hn
    rw [hcount]
    rcases List.mem_append.mp hn with hn | hn
    · exact h.asked_le n hn
    · rw [List.mem_singleton.mp hn]
      exact (h.number_bounds hc).2
  · intro k r' hr' hw
    obtain ⟨r, hr, -, hwr, hopen⟩ := hget k r' hr'
    rw [hopen, h.open_iff k r hr (hwr.mp hw)]
    simp [or_imp, forall_and]
  · -- the new committee has a request's number, and the withdrawals up to it are confirmed
    intro s' k r' hs' hr' hw hle
    rw [hstate] at hs'
    cases hs'
    obtain ⟨r, hr, -, hwr, hopen⟩ := hget k r' hr'
    intro hnone
    obtain ⟨hopen, hlt⟩ := hopen.mp hnone
    rcases rotated_committee s c with hsame | hnew
    · exact h.active_confirmed s k r hs hr (hwr.mp hw) (hsame ▸ hle) hopen
    · exact absurd ((h.after_le _ c hc).2 k r hr (hwr.mp hw) (hnew ▸ hle)) (not_le.mpr hlt)

/-- Every commit keeps the account of a subnet, with the number it asks for. -/
theorem Accounted.commit {e : Event} (h : Accounted X asked db t) (hsound : Sound X db)
    (hstep : Commit X db e db') :
    Accounted X (asked ++ (requestedNumber t e).toList) db' t := by
  by_cases he : ∃ ctx tx m, e = .message ctx tx (.checkpointSubnet m)
  · obtain ⟨ctx, tx, m, rfl⟩ := he
    cases hstep with
    | checkpointSubnet _ _ hsave =>
      obtain ⟨s, change, hs, hrot, rfl⟩ := IpcCheckpointSubnetMsg.saveToDb_eq_ok hsave
      obtain ⟨u, hu, -⟩ := hsound.state laws hs
      rw [hu] at hs
      have hreads := checkpointedDb_reads laws ctx.blockHeight ctx.blockHash (X.computeTxid tx)
        hsound hu hs hrot t
      by_cases htu : t = u
      · subst htu
        simp only [requestedNumber, hu, if_pos, Option.toList_some]
        cases change with
        | none =>
          refine (h.ask hs hrot).congr (fun _ => rfl) hreads.1 ?_
          rw [hreads.2.2.1, if_pos rfl, hs, IpcCheckpointSubnetMsg.checkpointedState_eq]
          rfl
        | some c => exact h.rotate laws hsound hu hs hrot
      · have hnot : ¬ (SubnetId.fromTxid20 u = SubnetId.fromTxid20 t) :=
          fun heq => htu (SubnetId.fromTxid20_injective heq).symm
        simp only [requestedNumber, hu, hnot, if_false, Option.toList_none, List.append_nil]
        refine h.congr ?_ hreads.1 (by rw [hreads.2.2.1, if_neg htu])
        intro k
        cases change with
        | none => rfl
        | some c =>
          obtain ⟨-, hget⟩ := requests_of_checkpoint laws ctx.blockHeight
            ctx.blockHash (X.computeTxid tx) hsound hu hs hrot
          rw [hget t k]
          simp [htu]
  · have hnone : requestedNumber t e = none := by
      unfold requestedNumber
      split
      · exact absurd ⟨_, _, _, rfl⟩ he
      · rfl
    rw [hnone, Option.toList_none, List.append_nil]
    exact h.subnetStep laws (subnetStep_of_commit laws hsound hstep)
      (fun ctx tx m heq => he ⟨ctx, tx, m, heq⟩)

/-- The account of every subnet along a run. -/
theorem accounted_of_trail {l : List (Event × HeedDb)} (hrun : Trail (Commit X) HeedDb.empty l)
    (t : Txid20) : Accounted X (requestedNumbers t l) (lastStore HeedDb.empty l) t := by
  induction l using List.reverseRec with
  | nil => exact accounted_empty t
  | append_singleton l a ih =>
    obtain ⟨e, db'⟩ := a
    obtain ⟨hl, hstep⟩ := trail_snoc.mp hrun
    have hlast := (ih hl).commit laws (sound_of_trail laws sound_empty hl) hstep
    rw [lastStore_snoc, requestedNumbers_snoc]
    exact hlast

end Steps

end Monitor
