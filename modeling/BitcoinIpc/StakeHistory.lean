import BitcoinIpc.Sound
import BitcoinIpc.IdealCrates
import Mathlib.Data.List.Perm.Subperm

/-!
# The latest committee and the log of stake changes

The log of a subnet holds its stake change requests under consecutive numbers.
As long as a rotation gives up a waiting committee only for a committee of the
same configuration, the latest committee is the genesis committee with every
recorded request applied in order, and its configuration number is the length
of the log.
-/

namespace Monitor

open Faults Bytes Chain Messages Crates Multisig Db Commits OrderedTable Accounts

variable (X : Library)

/-- The requests recorded for a subnet, in the order of their numbers. -/
def recorded (db : HeedDb) (t : Txid20) : List StakeChangeRequest :=
  (db.getAllStakeChanges X (.fromTxid20 t)).insertionSort
    (fun a b => a.configurationNumber ≤ b.configurationNumber)

def recordedRequests (db : HeedDb) (t : Txid20) : List (XOnlyPublicKey × Change) :=
  (recorded X db t).map requestOf

/-- Keys, collaterals and powers of a committee. -/
def stakes (c : SubnetCommittee) : List (XOnlyPublicKey × Amount × Power) :=
  c.validators.map (fun v => (v.pubkey, v.collateral, v.power))

/-- The latest committee is the genesis committee, which is stored as committee
one, with every recorded request applied. -/
def ReplaysLog (db : HeedDb) (t : Txid20) (s : SubnetState) : Prop :=
  ∃ genesis, db.getCommittee X (.fromTxid20 t) 1 = some genesis ∧
    stakes s.latestCommittee =
      (after powerless (book genesis) (recordedRequests X db t)).map
        (fun e => (e.1, e.2, powerOf e.2)) ∧
    s.latestCommittee.configurationNumber = (recordedRequests X db t).length

/-- A checkpoint that rotates to another address than the active one and gives up
the waiting committee rotates to a committee of the same configuration. -/
def RotationKeeps (db : HeedDb) : Event → HeedDb → Prop
  | .message _ _ (.checkpointSubnet m), _ =>
    ∀ s c w, db.getSubnetState X m.subnetId = some s →
      s.committee.configurationNumber < m.nextCommitteeConfigurationNumber →
      db.getStakeChange X m.subnetId m.nextCommitteeConfigurationNumber = some c →
      s.waitingCommittee = some w →
      s.committee.multisigAddress ≠ c.committeeAfterChange.multisigAddress →
      w.multisigAddress = c.committeeAfterChange.multisigAddress →
      w.configurationNumber = c.committeeAfterChange.configurationNumber
  | _, _ => True

/-- What the history reads of a request: its change and the committee it led to. -/
def entry (db : HeedDb) (t : Txid20) (k : Nat) :
    Option ((XOnlyPublicKey × Change) × SubnetCommittee) :=
  (db.getStakeChange X (.fromTxid20 t) k).map (fun c => (requestOf c, c.committeeAfterChange))

def count (db : HeedDb) (t : Txid20) : Nat := (db.getAllStakeChanges X (.fromTxid20 t)).length

def log (db : HeedDb) (t : Txid20) : List (XOnlyPublicKey × Change) :=
  (List.range (count X db t)).filterMap (fun i => (entry X db t (i + 1)).map Prod.fst)

/-- The numbers of the log are the ones from one on. -/
def Dense (db : HeedDb) (t : Txid20) : Prop :=
  ∀ k, (entry X db t k).isSome ↔ 1 ≤ k ∧ k ≤ count X db t

variable {X} {db db' : HeedDb} {t u : Txid20}

theorem entry_isSome {k : Nat} :
    (entry X db t k).isSome ↔ ∃ c, db.getStakeChange X (.fromTxid20 t) k = some c := by
  rw [entry, Option.isSome_map, Option.isSome_iff_exists]

theorem length_log (h : Dense X db t) : (log X db t).length = count X db t := by
  rw [log, List.length_filterMap_eq_countP, List.countP_eq_length.mpr, List.length_range]
  intro i hi
  have hlt := List.mem_range.mp hi
  have := (h (i + 1)).mpr ⟨by omega, by omega⟩
  simpa using this

section Laws

variable (laws : DisplayLaws X)
include laws

/-- Sorted by number, the records are the lookups of the numbers in turn. -/
theorem recorded_eq (hs : Sound X db) (h : Dense X db t) :
    recorded X db t = (List.range (count X db t)).filterMap
      (fun i => db.getStakeChange X (.fromTxid20 t) (i + 1)) := by
  set byNumber := (List.range (count X db t)).filterMap
    (fun i => db.getStakeChange X (.fromTxid20 t) (i + 1)) with hby
  have hmem : ∀ c, c ∈ byNumber ↔ c ∈ db.getAllStakeChanges X (.fromTxid20 t) := by
    intro c
    rw [hs.mem_getAllStakeChanges laws, hby, List.mem_filterMap]
    constructor
    · rintro ⟨i, -, hi⟩
      rw [(hs.request laws hi).1]
      exact hi
    · intro hc
      obtain ⟨hlo, hhi⟩ := (h _).mp (entry_isSome.mpr ⟨c, hc⟩)
      refine ⟨c.configurationNumber - 1, List.mem_range.mpr (by omega), ?_⟩
      rw [Nat.sub_add_cancel hlo]
      exact hc
  have hstrict : byNumber.Pairwise
      (fun a b => a.configurationNumber < b.configurationNumber) := by
    rw [hby, List.pairwise_filterMap]
    refine List.pairwise_lt_range.imp ?_
    intro i j hij a ha b hb
    rw [(hs.request laws ha).1, (hs.request laws hb).1]
    omega
  have hnodup : byNumber.Nodup := by
    refine hstrict.imp ?_
    rintro a b hab rfl
    exact lt_irrefl _ hab
  have hlen : byNumber.length = count X db t := by
    rw [← length_log h, log, hby]
    simp only [entry, List.length_filterMap_eq_countP]
    simp
  have hperm : byNumber.Perm (db.getAllStakeChanges X (.fromTxid20 t)) :=
    (List.Nodup.subperm hnodup (fun c hc => (hmem c).mp hc)).perm_of_length_le
      (le_of_eq hlen.symm)
  refine ((List.perm_insertionSort _ _).trans hperm.symm).eq_of_pairwise ?_
    (List.pairwise_insertionSort _ _) (hstrict.imp fun hab => le_of_lt hab)
  intro a b ha hb hab hba
  have ha' := (hs.mem_getAllStakeChanges laws).mp ((List.mem_insertionSort _).mp ha)
  have hb' := (hs.mem_getAllStakeChanges laws).mp ((hmem b).mp hb)
  rw [le_antisymm hab hba, hb'] at ha'
  exact (Option.some.inj ha').symm

theorem recordedRequests_eq (hs : Sound X db) (h : Dense X db t) :
    recordedRequests X db t = log X db t := by
  rw [recordedRequests, recorded_eq laws hs h, List.map_filterMap, log]
  congr 1
  funext i
  rw [entry, Option.map_map]
  rfl

theorem entry_add (s : Txid20) (c : StakeChangeRequest) (k : Nat) :
    entry X (db.addStakeChange X (.fromTxid20 s) c) t k =
      if t = s ∧ k = c.configurationNumber then some (requestOf c, c.committeeAfterChange)
      else entry X db t k := by
  simp only [entry, HeedDb.getStakeChange_add db laws, SubnetId.fromTxid20_injective.eq_iff]
  split <;> rfl

theorem count_add_next {c : StakeChangeRequest} (h : Dense X db t)
    (hc : c.configurationNumber = count X db t + 1) :
    count X (db.addStakeChange X (.fromTxid20 t) c) t = count X db t + 1 := by
  have hfresh : db.getStakeChange X (.fromTxid20 t) c.configurationNumber = none := by
    rw [← Option.not_isSome_iff_eq_none]
    intro hsome
    have := (h c.configurationNumber).mp (by simpa [entry] using hsome)
    omega
  exact (HeedDb.getAllStakeChanges_add_fresh db laws hfresh).length_eq

/-- A request with the next number is appended to the log. -/
theorem dense_add_next {c : StakeChangeRequest} (h : Dense X db t)
    (hc : c.configurationNumber = count X db t + 1) :
    Dense X (db.addStakeChange X (.fromTxid20 t) c) t := by
  intro k
  rw [entry_add laws, count_add_next laws h hc, hc]
  by_cases hk : k = count X db t + 1
  · simp [hk]
  · rw [if_neg (fun hand => hk hand.2), h k]
    omega

theorem log_add_next {c : StakeChangeRequest} (h : Dense X db t)
    (hc : c.configurationNumber = count X db t + 1) :
    log X (db.addStakeChange X (.fromTxid20 t) c) t = log X db t ++ [requestOf c] := by
  rw [log, count_add_next laws h hc, List.range_succ, List.filterMap_append]
  congr 1
  · apply List.filterMap_congr
    intro i hi
    have := List.mem_range.mp hi
    rw [entry_add laws, if_neg (fun hand => by omega)]
  · simp [entry_add laws, hc]

/-- Requests with the next numbers are appended to the log in order. -/
theorem log_foldl {requests : List StakeChangeRequest} (h : Dense X db t)
    (hn : requests.map (·.configurationNumber) =
      List.range' (count X db t + 1) requests.length) :
    Dense X (requests.foldl (fun d c => d.addStakeChange X (.fromTxid20 t) c) db) t ∧
      log X (requests.foldl (fun d c => d.addStakeChange X (.fromTxid20 t) c) db) t =
        log X db t ++ requests.map requestOf := by
  induction requests generalizing db with
  | nil => exact ⟨h, by simp⟩
  | cons c rest ih =>
    rw [List.map_cons, List.length_cons, List.range'_succ, List.cons.injEq] at hn
    obtain ⟨hdense, hlog⟩ := ih (dense_add_next laws h hn.1)
      (by rw [count_add_next laws h hn.1]; exact hn.2)
    refine ⟨hdense, ?_⟩
    rw [List.foldl_cons, hlog, log_add_next laws h hn.1, List.map_cons, List.append_assoc]
    rfl

theorem entry_foldl_of_new (db : HeedDb) {requests : List StakeChangeRequest} {k : Nat}
    {e : (XOnlyPublicKey × Change) × SubnetCommittee}
    (he : entry X (requests.foldl (fun d c => d.addStakeChange X (.fromTxid20 t) c) db) t k =
      some e) :
    entry X db t k = some e ∨ ∃ c ∈ requests, e.2 = c.committeeAfterChange := by
  induction requests generalizing db with
  | nil => exact Or.inl he
  | cons c rest ih =>
    rcases ih _ he with h | ⟨c', hc', h⟩
    · rw [entry_add laws] at h
      split_ifs at h with hk
      · exact Or.inr ⟨c, List.mem_cons_self, by cases h; rfl⟩
      · exact Or.inl h
    · exact Or.inr ⟨c', List.mem_cons_of_mem c hc', h⟩

/-- Writing to the log of one subnet leaves the others as they are. -/
theorem entry_foldl_other (db : HeedDb) (requests : List StakeChangeRequest) (hut : u ≠ t) :
    count X (requests.foldl (fun d c => d.addStakeChange X (.fromTxid20 t) c) db) u =
        count X db u ∧
      ∀ k, entry X (requests.foldl (fun d c => d.addStakeChange X (.fromTxid20 t) c) db) u k =
        entry X db u k := by
  induction requests generalizing db with
  | nil => exact ⟨rfl, fun _ => rfl⟩
  | cons c rest ih =>
    obtain ⟨hcount, hentry⟩ := ih (db.addStakeChange X (.fromTxid20 t) c)
    refine ⟨?_, ?_⟩
    · rw [List.foldl_cons, hcount, count, HeedDb.getAllStakeChanges_add_other db laws hut]
      rfl
    · intro k
      rw [List.foldl_cons, hentry, entry_add laws, if_neg (fun hand => hut hand.1)]

/-- Rewriting requests without their changes and committees keeps the log. -/
theorem entry_foldl_same {l : List StakeChangeRequest}
    (hl : ∀ c ∈ l, entry X db t c.configurationNumber =
      some (requestOf c, c.committeeAfterChange)) :
    count X (l.foldl (fun d c => d.addStakeChange X (.fromTxid20 t) c) db) t = count X db t ∧
      ∀ k, entry X (l.foldl (fun d c => d.addStakeChange X (.fromTxid20 t) c) db) t k =
        entry X db t k := by
  induction l generalizing db with
  | nil => exact ⟨rfl, fun _ => rfl⟩
  | cons c rest ih =>
    have hsame : ∀ k, entry X (db.addStakeChange X (.fromTxid20 t) c) t k = entry X db t k := by
      intro k
      rw [entry_add laws]
      split_ifs with hk
      · rw [hk.2, hl c List.mem_cons_self]
      · rfl
    obtain ⟨hcount, hentry⟩ := @ih (db.addStakeChange X (.fromTxid20 t) c)
      (fun c' hc' => by rw [hsame]; exact hl c' (List.mem_cons_of_mem c hc'))
    refine ⟨?_, fun k => by rw [List.foldl_cons, hentry, hsame]⟩
    obtain ⟨c', hc'⟩ := entry_isSome.mp (by rw [hl c List.mem_cons_self]; rfl :
      (entry X db t c.configurationNumber).isSome)
    rw [List.foldl_cons, hcount, count,
      HeedDb.length_getAllStakeChanges_add_present db (.fromTxid20 t) hc']
    rfl

/-- Confirming requests keeps every log. -/
theorem entry_confirm (hs : Sound X db) (n height : Nat) (blockHash : BlockHash) (u : Txid20) :
    count X (db.confirmStakeChanges X (.fromTxid20 t) n height blockHash) u = count X db u ∧
      ∀ k, entry X (db.confirmStakeChanges X (.fromTxid20 t) n height blockHash) u k =
        entry X db u k := by
  by_cases hut : u = t
  · subst hut
    apply entry_foldl_same laws
    intro c hc
    obtain ⟨c₀, hc₀, rfl⟩ := List.mem_map.mp hc
    have hget := (hs.mem_getAllStakeChanges laws).mp (List.mem_of_mem_filter hc₀)
    simp only [entry, HeedDb.confirmed, hget]
    rfl
  · exact entry_foldl_other laws _ _ hut

end Laws

/-- The committee is the genesis committee with the first requests applied, as many
as its configuration number says. -/
structure Represents (genesis : SubnetCommittee) (requests : List (XOnlyPublicKey × Change))
    (c : SubnetCommittee) : Prop where
  le : c.configurationNumber ≤ requests.length
  book_eq : book c = after powerless (book genesis) (requests.take c.configurationNumber)

/-- The invariant of a subnet: before it starts its log is empty, and afterwards its
latest committee stands for the whole log and each request for a part of it. -/
structure History (X : Library) (db : HeedDb) (t : Txid20) : Prop where
  dense : Dense X db t
  before : db.getSubnetState X (.fromTxid20 t) = none → count X db t = 0
  started : ∀ s, db.getSubnetState X (.fromTxid20 t) = some s →
    ∃ genesis, db.getCommittee X (.fromTxid20 t) 1 = some genesis ∧ 1 ≤ s.committeeNumber ∧
      Represents genesis (log X db t) s.latestCommittee ∧
      s.latestCommittee.configurationNumber = count X db t ∧
      ∀ k e, entry X db t k = some e →
        k ≤ e.2.configurationNumber ∧ Represents genesis (log X db t) e.2

theorem Represents.append {genesis c : SubnetCommittee}
    {requests more : List (XOnlyPublicKey × Change)} (h : Represents genesis requests c) :
    Represents genesis (requests ++ more) c := by
  have hle := h.le
  refine ⟨by rw [List.length_append]; omega, ?_⟩
  rw [List.take_append_of_le_length hle]
  exact h.book_eq

theorem log_congr (hcount : count X db' t = count X db t)
    (hentry : ∀ k, entry X db' t k = entry X db t k) : log X db' t = log X db t := by
  simp only [log, hcount, hentry]

/-- The history reads the log, the state and the genesis committee. -/
theorem History.congr (h : History X db t) (hcount : count X db' t = count X db t)
    (hentry : ∀ k, entry X db' t k = entry X db t k)
    (hstate : db'.getSubnetState X (.fromTxid20 t) = db.getSubnetState X (.fromTxid20 t))
    (hgenesis : db'.getCommittee X (.fromTxid20 t) 1 = db.getCommittee X (.fromTxid20 t) 1) :
    History X db' t := by
  refine ⟨?_, ?_, ?_⟩
  · intro k
    rw [hentry, hcount]
    exact h.dense k
  · rw [hstate, hcount]
    exact h.before
  · intro s hs
    rw [hstate] at hs
    simp only [hgenesis, hcount, hentry, log_congr hcount hentry]
    exact h.started s hs

theorem History.replaysLog (laws : DisplayLaws X) {s : SubnetState} (hsound : Sound X db)
    (h : History X db t) (hs : db.getSubnetState X (.fromTxid20 t) = some s) :
    ReplaysLog X db t s := by
  obtain ⟨genesis, hg, -, hrep, hnum, -⟩ := h.started s hs
  refine ⟨genesis, hg, ?_, ?_⟩
  · rw [recordedRequests_eq laws hsound h.dense]
    have hall : (log X db t).take s.latestCommittee.configurationNumber = log X db t := by
      rw [hnum, ← length_log h.dense, List.take_length]
    rw [← hall, ← hrep.book_eq, book, List.map_map, stakes]
    apply List.map_congr_left
    intro v hv
    have hp := (hsound.latest laws hs).regular.power_eq v hv
    simp [hp]
  · rw [recordedRequests_eq laws hsound h.dense, length_log h.dense, hnum]

section Preserved

variable (laws : DisplayLaws X)
include laws

/-- What a stake change writes: the waiting committee and the requests. -/
theorem recordStake_writes (s : SubnetState) (next : SubnetCommittee)
    {requests : List StakeChangeRequest} (h : Dense X db t)
    (hn : requests.map (·.configurationNumber) =
      List.range' (db.getNextStakeChangeConfigurationNumber X (.fromTxid20 t)) requests.length) :
    Dense X (recordStake X db (.fromTxid20 t) s next requests) t ∧
      log X (recordStake X db (.fromTxid20 t) s next requests) t =
        log X db t ++ requests.map requestOf ∧
      (recordStake X db (.fromTxid20 t) s next requests).getSubnetState X (.fromTxid20 t) =
        some { s with waitingCommittee := some next } ∧
      (recordStake X db (.fromTxid20 t) s next requests).getCommittee X (.fromTxid20 t) 1 =
        db.getCommittee X (.fromTxid20 t) 1 := by
  rw [HeedDb.getNextStakeChangeConfigurationNumber_eq] at hn
  unfold recordStake
  set saved := db.saveSubnetState X (.fromTxid20 t) { s with waitingCommittee := some next }
    with hsaved
  have hdense : Dense X saved t := h
  obtain ⟨hdense', hlog⟩ := log_foldl laws hdense hn
  obtain ⟨table, hframe⟩ := foldl_addStakeChange_frame (X := X) (.fromTxid20 t) requests saved
  refine ⟨hdense', hlog, ?_, by rw [hframe]; rfl⟩
  rw [hframe]
  have := HeedDb.getSubnetState_save db laws (.fromTxid20 t) (.fromTxid20 t)
    { s with waitingCommittee := some next }
  rw [if_pos rfl] at this
  exact this

/-- A stake change appends its requests and moves the latest committee. -/
theorem History.stake {s : SubnetState} {next : SubnetCommittee}
    {requests : List StakeChangeRequest} (h : History X db t)
    (hs : db.getSubnetState X (.fromTxid20 t) = some s)
    (hstep : StakeStep X t s.latestCommittee next
      (db.getNextStakeChangeConfigurationNumber X (.fromTxid20 t)) requests) :
    History X (recordStake X db (.fromTxid20 t) s next requests) t := by
  obtain ⟨genesis, hg, hpos, hrep, hnum, hreq⟩ := h.started s hs
  obtain ⟨hdense, hlog, hstate, hcommittee⟩ :=
    recordStake_writes laws s next h.dense hstep.numbers_eq
  have hentry : ∀ k e, entry X (recordStake X db (.fromTxid20 t) s next requests) t k = some e →
      entry X db t k = some e ∨ ∃ c ∈ requests, e.2 = c.committeeAfterChange :=
    fun k e he => entry_foldl_of_new laws
      (db.saveSubnetState X (.fromTxid20 t) { s with waitingCommittee := some next }) he
  generalize recordStake X db (.fromTxid20 t) s next requests = db' at *
  have hcount : count X db' t = count X db t + requests.length := by
    rw [← length_log hdense, hlog, List.length_append, List.length_map, length_log h.dense]
  have hnextnum : next.configurationNumber = count X db' t := by
    rw [hstep.number_eq, hnum, hcount]
  have hnext : Represents genesis (log X db' t) next := by
    refine ⟨by rw [length_log hdense, hnextnum], ?_⟩
    rw [hnextnum, ← length_log hdense, List.take_length, hlog, after_append, hstep.book_eq,
      hrep.book_eq, hnum, ← length_log h.dense, List.take_length]
  refine ⟨hdense, ?_, ?_⟩
  · intro hnone
    rw [hstate] at hnone
    cases hnone
  · intro s' hs'
    rw [hstate] at hs'
    cases hs'
    refine ⟨genesis, hcommittee.trans hg, hpos, hnext, hnextnum, ?_⟩
    intro k e he
    have hle : k ≤ count X db' t := ((hdense k).mp (by rw [he]; rfl)).2
    rcases hentry k e he with hold | ⟨c, hc, hnew⟩
    · obtain ⟨hk, hr⟩ := hreq k e hold
      exact ⟨hk, by rw [hlog]; exact hr.append⟩
    · rw [hnew, hstep.after_eq c hc, hnextnum]
      exact ⟨hle, hnext⟩

omit laws in
/-- The committees of the state after the rotation of a checkpoint: the latest one
is kept, or the waiting one is given up for a committee of its configuration. -/
theorem rotated_latest {m : IpcCheckpointSubnetMsg} {s : SubnetState}
    {change : Option StakeChangeRequest} (h : History X db t)
    (hm : m.subnetId = .fromTxid20 t) (hs : db.getSubnetState X (.fromTxid20 t) = some s)
    (hrot : m.rotation X db s = .ok change) {ctx : BlockContext} {tx : Transaction}
    (hk : RotationKeeps X db (.message ctx tx (.checkpointSubnet m)) db') :
    s.committeeNumber ≤ (IpcCheckpointSubnetMsg.rotated s change).committeeNumber ∧
      ((IpcCheckpointSubnetMsg.rotated s change).latestCommittee = s.latestCommittee ∨
      ∃ k e, entry X db t k = some e ∧
        (IpcCheckpointSubnetMsg.rotated s change).latestCommittee = e.2 ∧
        e.2.configurationNumber = s.latestCommittee.configurationNumber) := by
  cases change with
  | none => exact ⟨le_refl _, Or.inl rfl⟩
  | some c =>
    obtain ⟨hlt, hget⟩ := IpcCheckpointSubnetMsg.rotation_eq_some hrot
    have hentry : entry X db t m.nextCommitteeConfigurationNumber =
        some (requestOf c, c.committeeAfterChange) := by
      rw [hm] at hget
      rw [entry, hget]
      rfl
    obtain ⟨genesis, -, -, -, hnum, -⟩ := h.started s hs
    simp only [IpcCheckpointSubnetMsg.rotated]
    unfold SubnetState.rotateToCommittee
    by_cases hsame : s.committee.sameAs c.committeeAfterChange = true
    · rw [if_pos hsame]
      exact ⟨le_refl _, Or.inl rfl⟩
    · rw [if_neg hsame]
      refine ⟨Nat.le_succ _, ?_⟩
      cases hw : s.waitingCommittee with
      | none =>
        -- nothing waits, so the log has no request after the current committee's
        have hle := ((h.dense _).mp (by rw [hentry]; rfl :
          (entry X db t m.nextCommitteeConfigurationNumber).isSome)).2
        rw [← hnum, latestCommittee_eq, hw, Option.getD_none] at hle
        omega
      | some w =>
        have hlatest : s.latestCommittee = w := by rw [latestCommittee_eq, hw, Option.getD_some]
        by_cases hclear : w.sameAs c.committeeAfterChange = true
        · have hconf := hk s c w (hm ▸ hs) hlt hget hw
            (by simpa [SubnetCommittee.sameAs] using hsame)
            (by simpa [SubnetCommittee.sameAs] using hclear)
          refine Or.inr ⟨_, _, hentry, ?_, ?_⟩
          · simp [SubnetState.latestCommittee, hclear]
          · rw [hlatest]
            exact hconf.symm
        · left
          rw [hlatest]
          simp [SubnetState.latestCommittee, hclear]

omit laws in
/-- A checkpoint changes the committees of its subnet and keeps its log. -/
theorem History.checkpoint {m : IpcCheckpointSubnetMsg} {s : SubnetState}
    {change : Option StakeChangeRequest} {ctx : BlockContext} {tx : Transaction}
    (h : History X db t)
    (hm : m.subnetId = .fromTxid20 t) (hs : db.getSubnetState X (.fromTxid20 t) = some s)
    (hrot : m.rotation X db s = .ok change)
    (hk : RotationKeeps X db (.message ctx tx (.checkpointSubnet m)) db')
    (hcount : count X db' t = count X db t) (hentry : ∀ k, entry X db' t k = entry X db t k)
    (hstate : db'.getSubnetState X (.fromTxid20 t) =
      some (m.checkpointedState s change ctx.blockHeight))
    (hgenesis : db'.getCommittee X (.fromTxid20 t) 1 = db.getCommittee X (.fromTxid20 t) 1) :
    History X db' t := by
  obtain ⟨genesis, hg, hpos, hrep, hnum, hreq⟩ := h.started s hs
  obtain ⟨hle, hlatest⟩ := rotated_latest h hm hs hrot hk
  have hstate' : (m.checkpointedState s change ctx.blockHeight).latestCommittee =
      (IpcCheckpointSubnetMsg.rotated s change).latestCommittee := by
    rw [IpcCheckpointSubnetMsg.checkpointedState_eq]
    rfl
  refine ⟨?_, ?_, ?_⟩
  · intro k
    rw [hentry, hcount]
    exact h.dense k
  · intro hnone
    rw [hstate] at hnone
    cases hnone
  · intro s' hs'
    rw [hstate] at hs'
    cases hs'
    rw [hgenesis, hcount, log_congr hcount hentry, hstate']
    refine ⟨genesis, hg, ?_, ?_, ?_, fun k e he => hreq k e (by rw [← hentry]; exact he)⟩
    · rw [IpcCheckpointSubnetMsg.checkpointedState_eq]
      exact le_trans hpos hle
    · rcases hlatest with heq | ⟨k, e, he, heq, -⟩
      · rw [heq]
        exact hrep
      · rw [heq]
        exact (hreq k e he).2
    · rcases hlatest with heq | ⟨k, e, he, heq, hconf⟩
      · rw [heq]
        exact hnum
      · rw [heq, hconf]
        exact hnum

/-- What a checkpoint of the subnet `t` leaves to read for any subnet. -/
theorem checkpointedDb_reads {m : IpcCheckpointSubnetMsg} {s : SubnetState}
    {change : Option StakeChangeRequest} (height : Nat) (blockHash : BlockHash) (txid : Txid)
    (hsound : Sound X db) (hm : m.subnetId = .fromTxid20 t)
    (hs : db.getSubnetState X (.fromTxid20 t) = some s)
    (hrot : m.rotation X db s = .ok change) (u : Txid20) :
    let db' := m.checkpointedDb X db s change height blockHash txid
    count X db' u = count X db u ∧ (∀ k, entry X db' u k = entry X db u k) ∧
      db'.getSubnetState X (.fromTxid20 u) =
        (if u = t then some (m.checkpointedState s change height)
          else db.getSubnetState X (.fromTxid20 u)) ∧
      ∀ n, (u = t → n ≠ s.committeeNumber + 1) →
        db'.getCommittee X (.fromTxid20 u) n = db.getCommittee X (.fromTxid20 u) n := by
  have hstate : (db.saveSubnetState X (.fromTxid20 t)
      (m.checkpointedState s change height)).getSubnetState X (.fromTxid20 u) =
      if u = t then some (m.checkpointedState s change height)
        else db.getSubnetState X (.fromTxid20 u) := by
    simp only [HeedDb.getSubnetState_save db laws, SubnetId.fromTxid20_injective.eq_iff]
  cases change with
  | none =>
    simp only [IpcCheckpointSubnetMsg.checkpointedDb, hm]
    exact ⟨rfl, fun _ => rfl, hstate, fun _ _ => rfl⟩
  | some c =>
    have hsaved : Sound X (((db.saveSubnetState X (.fromTxid20 t)
        (m.checkpointedState s (some c) height)).saveCheckpoint X (.fromTxid20 t)
          (m.checkpointRecord s (some c) height txid)
          (m.checkpointRecord s (some c) height txid).checkpointNumber).saveCommittee X
            (.fromTxid20 t) (s.committeeNumber + 1) c.committeeAfterChange) :=
      (hsound.stateCheckpointed laws height hm hs hrot).of_tables rfl rfl rfl
    obtain ⟨hcount, hentry⟩ := entry_confirm (t := t) laws hsaved
      m.nextCommitteeConfigurationNumber height blockHash u
    obtain ⟨table, hframe⟩ := foldl_addStakeChange_frame (X := X) (.fromTxid20 t) _ _
    simp only [IpcCheckpointSubnetMsg.checkpointedDb, hm]
    refine ⟨hcount, hentry, ?_, ?_⟩
    · rw [HeedDb.confirmStakeChanges, hframe]
      exact hstate
    · intro n hn
      rw [HeedDb.confirmStakeChanges, hframe]
      have hsave := HeedDb.getCommittee_save db laws (.fromTxid20 t) (.fromTxid20 u)
        c.committeeAfterChange (s.committeeNumber + 1) n
      rw [if_neg] at hsave
      · exact hsave
      · rintro ⟨hut, hnum⟩
        exact hn (SubnetId.fromTxid20_injective hut) hnum

/-- A subnet starts with an empty log and its genesis committee. -/
theorem History.start {s : SubnetState} {g : SubnetGenesisInfo} (h : ∀ t, History X db t)
    (hnone : db.getSubnetState X (.fromTxid20 t) = none) (hwait : s.waitingCommittee = none)
    (hnum : s.committeeNumber = 1) (hconf : s.committee.configurationNumber = 0) (u : Txid20) :
    History X (((db.saveSubnetState X (.fromTxid20 t) s).saveSubnetGenesisInfo X
      (.fromTxid20 t) g).saveCommittee X (.fromTxid20 t) s.committeeNumber s.committee) u := by
  have hstate := HeedDb.getSubnetState_save db laws (.fromTxid20 t) (.fromTxid20 u) s
  have hcom := HeedDb.getCommittee_save db laws (.fromTxid20 t) (.fromTxid20 u) s.committee
    s.committeeNumber 1
  by_cases hut : u = t
  · subst hut
    rw [if_pos rfl] at hstate
    rw [if_pos ⟨rfl, hnum.symm⟩] at hcom
    have hzero := (h u).before hnone
    refine ⟨(h u).dense, fun _ => hzero, fun s' hs' => ?_⟩
    cases Option.some.inj (hstate.symm.trans hs')
    have hlatest : s.latestCommittee = s.committee := by
      rw [latestCommittee_eq, hwait, Option.getD_none]
    rw [hlatest]
    refine ⟨s.committee, hcom, le_of_eq hnum.symm, ⟨?_, ?_⟩, hconf.trans hzero.symm, ?_⟩
    · rw [hconf]
      exact Nat.zero_le _
    · rw [hconf, List.take_zero]
      rfl
    · intro k e he
      have he' : (entry X db u k).isSome := Option.isSome_of_mem he
      have := ((h u).dense k).mp he'
      omega
  · have hne : ¬ (SubnetId.fromTxid20 u = SubnetId.fromTxid20 t) :=
      fun heq => hut (SubnetId.fromTxid20_injective heq)
    rw [if_neg hne] at hstate
    rw [if_neg (fun hand => hne hand.1)] at hcom
    exact (h u).congr rfl (fun _ => rfl) hstate hcom

/-- The kill state of a subnet is no part of its history. -/
theorem History.kill {s : SubnetState} {killed : SubnetKillState} {marked : Option Nat}
    (h : ∀ t, History X db t) (hs : db.getSubnetState X (.fromTxid20 t) = some s)
    (hdb : db'.subnetDb = db.subnetDb.put (subnetStateKey X (.fromTxid20 t))
      { s with killed := killed, markedForKillCheckpointNumber := marked })
    (hr : db'.stakeChangesDb = db.stakeChangesDb) (hc : db'.committeeDb = db.committeeDb)
    (u : Txid20) : History X db' u := by
  have hcount : count X db' u = count X db u := by
    simp only [count, HeedDb.getAllStakeChanges, hr]
  have hentry : ∀ k, entry X db' u k = entry X db u k := by
    intro k
    simp only [entry, HeedDb.getStakeChange, hr]
  have hcommittee : db'.getCommittee X (.fromTxid20 u) 1 =
      db.getCommittee X (.fromTxid20 u) 1 := by
    simp only [HeedDb.getCommittee, hc]
  have hstate : db'.getSubnetState X (.fromTxid20 u) =
      (db.saveSubnetState X (.fromTxid20 t) { s with
        killed := killed, markedForKillCheckpointNumber := marked }).getSubnetState X
          (.fromTxid20 u) := by
    rw [HeedDb.getSubnetState, hdb]
    rfl
  rw [HeedDb.getSubnetState_save db laws] at hstate
  by_cases hut : u = t
  · subst hut
    rw [if_pos rfl] at hstate
    refine ⟨?_, fun hn => ?_, fun s' hs' => ?_⟩
    · intro k
      rw [hentry, hcount]
      exact (h u).dense k
    · rw [hstate] at hn
      cases hn
    · cases Option.some.inj (hstate.symm.trans hs')
      simp only [hcommittee, hcount, hentry, log_congr hcount hentry]
      exact (h u).started s hs
  · rw [if_neg (fun heq => hut (SubnetId.fromTxid20_injective heq))] at hstate
    exact (h u).congr hcount hentry hstate hcommittee

theorem History.subnetStep {e : Event} (hsound : Sound X db) (h : ∀ t, History X db t)
    (hstep : SubnetStep X db e db') (hk : RotationKeeps X db e db') (u : Txid20) :
    History X db' u := by
  cases hstep with
  | frame hsame =>
    obtain ⟨hst, -, hreq, hcom⟩ := hsame
    refine (h u).congr ?_ ?_ ?_ ?_
    · simp only [count, HeedDb.getAllStakeChanges, hreq]
    · simp only [entry, HeedDb.getStakeChange, hreq, implies_true]
    · simp only [HeedDb.getSubnetState, hst]
    · simp only [HeedDb.getCommittee, hcom]
  | genesis hid hreg => exact (h u).congr rfl (fun _ => rfl) rfl rfl
  | start hnone hid hreg hsub =>
    obtain ⟨-, -, hwait, hnum, hconf⟩ := good_toSubnet hid hreg hsub
    exact History.start laws h hnone hwait hnum hconf u
  | @stake _ t s next requests hs hstake =>
    by_cases hut : u = t
    · subst hut
      exact (h u).stake laws hs hstake
    · obtain ⟨hcount, hentry⟩ := entry_foldl_other laws
        (db.saveSubnetState X (.fromTxid20 t) { s with waitingCommittee := some next }) requests hut
      obtain ⟨table, hframe⟩ := foldl_addStakeChange_frame (X := X) (.fromTxid20 t) requests
        (db.saveSubnetState X (.fromTxid20 t) { s with waitingCommittee := some next })
      have hstate := HeedDb.getSubnetState_save db laws (.fromTxid20 t) (.fromTxid20 u)
        { s with waitingCommittee := some next }
      rw [if_neg (fun heq => hut (SubnetId.fromTxid20_injective heq))] at hstate
      refine (h u).congr hcount hentry ?_ ?_
      · rw [recordStake, hframe]
        exact hstate
      · rw [recordStake, hframe]
        rfl
  | kill hs hdb _ hr hcom => exact History.kill laws h hs hdb hr hcom u
  | @checkpoint ctx tx t m s change blockHash txid hm hs hrot =>
    obtain ⟨hcount, hentry, hstate, hcom⟩ := checkpointedDb_reads laws ctx.blockHeight
      blockHash txid hsound hm hs hrot u
    have hpos : 1 ≤ s.committeeNumber := by
      obtain ⟨_, -, hpos, -⟩ := (h t).started s hs
      exact hpos
    have hgenesis := hcom 1 (fun _ => by omega)
    by_cases hut : u = t
    · subst hut
      rw [if_pos rfl] at hstate
      exact (h u).checkpoint hm hs hrot hk hcount hentry hstate hgenesis
    · rw [if_neg hut] at hstate
      exact (h u).congr hcount hentry hstate hgenesis

omit laws in
theorem history_empty (t : Txid20) : History X HeedDb.empty t := by
  refine ⟨?_, fun _ => rfl, ?_⟩
  · intro k
    constructor
    · intro h
      cases h
    · rintro ⟨hlo, hhi⟩
      have : count X HeedDb.empty t = 0 := rfl
      omega
  · intro s hs
    cases hs

/-- In every run whose rotations keep the configuration of the committee they give
up, the latest committee of every started subnet replays its whole log. -/
theorem latest_committee_replays_log {l : List (Event × HeedDb)}
    (hrun : Trail (Commit X) HeedDb.empty l)
    (hkeeps : AllSteps (RotationKeeps X) HeedDb.empty l) {s : SubnetState}
    (hs : (lastStore HeedDb.empty l).getSubnetState X (.fromTxid20 t) = some s) :
    ReplaysLog X (lastStore HeedDb.empty l) t s := by
  have hinv : Sound X (lastStore HeedDb.empty l) ∧ ∀ u, History X (lastStore HeedDb.empty l) u := by
    refine invariant_last (I := fun db => Sound X db ∧ ∀ u, History X db u) ?_
      ⟨sound_empty, history_empty⟩ hrun hkeeps
    rintro db e db' ⟨hsound, hhist⟩ hstep hk
    exact ⟨hsound.commit laws hstep, History.subnetStep laws hsound hhist
      (subnetStep_of_commit laws hsound hstep) hk⟩
  exact (hinv.2 t).replaysLog laws hinv.1 hs

end Preserved

/-- Requests that lead to the address of a waiting committee lead to its configuration. -/
def WaitingUnique (db : HeedDb) : Prop :=
  ∀ x ∈ db.subnetDb.entries, ∀ w ∈ x.2.waitingCommittee, ∀ y ∈ db.stakeChangesDb.entries,
    w.multisigAddress = y.2.committeeAfterChange.multisigAddress →
      w.configurationNumber = y.2.committeeAfterChange.configurationNumber

instance (db : HeedDb) : Decidable (WaitingUnique db) := by
  unfold WaitingUnique
  infer_instance

theorem rotationKeeps_of_waitingUnique {e : Event} (h : WaitingUnique db) :
    RotationKeeps X db e db' := by
  unfold RotationKeeps
  split
  · intro s c w hs _ hc hw _ haddr
    exact h _ ((Table.get_eq_some_iff db.subnetDb).mp hs) w hw _
      ((Table.get_eq_some_iff db.stakeChangesDb).mp hc) haddr
  · trivial

open Solo

/-- A stake of 25000 on top of 100000. -/
def stakeTx : Transaction := payingTx 12 ipcStakeTag key.bytes 25000 10

/-- An unstake of 1000, which leaves the power of 12 as it is. -/
def unstakeTx : Transaction :=
  payingTx 13 ipcUnstakeTag (signature.bytes ++ toBe amountSize 1000) 330 10

/-- The library that knows the signature of the unstake. -/
def stakeLibrary : Library :=
  library 10000
    [((bytes32 13).bytes ++ key.bytes ++ toBe amountSize 1000 ++ subnet.bytes, signature)]

/-- Stake and rotation: the log has one request and the new committee stands for it. -/
theorem latest_committee_replays_log_after_rotation :
    ∃ l s, Trail (Commit stakeLibrary) HeedDb.empty l ∧
      (lastStore HeedDb.empty l).getSubnetState stakeLibrary (.fromTxid20 subnet) = some s ∧
      s.latestCommittee.configurationNumber = 1 ∧ s.waitingCommittee = none ∧
      ReplaysLog stakeLibrary (lastStore HeedDb.empty l) subnet s := by
  obtain ⟨l, hl, hc, hlast⟩ := exists_trail (X := stakeLibrary) ⟨none⟩ context
    [createTx, joinTx 100000, stakeTx, checkpointTx 14 1] HeedDb.empty
  have hkeeps : AllSteps (RotationKeeps stakeLibrary) HeedDb.empty l := by
    apply allSteps_of_stores (P := WaitingUnique)
    · exact fun _ _ _ h => rotationKeeps_of_waitingUnique h
    · rw [hc]
      decide +kernel
  have hstate : ((lastStore HeedDb.empty l).getSubnetState stakeLibrary
      (.fromTxid20 subnet)).map (fun s => (s.latestCommittee.configurationNumber,
        s.waitingCommittee)) = some (1, none) := by
    rw [hlast]
    decide +kernel
  obtain ⟨s, hs, hval⟩ := Option.map_eq_some_iff.mp hstate
  obtain ⟨hnum, hwait⟩ := Prod.mk.inj hval
  exact ⟨l, s, hl, hs, hnum, hwait,
    latest_committee_replays_log (displayLaws_ideal _) hl hkeeps hs⟩

/-- The rotation to the first of two requests of the same address gives up the second:
the latest committee has configuration one while two requests are recorded. -/
theorem rotation_drops_unstake :
    ¬ ∀ X : Library, DisplayLaws X → ∀ l t s, Trail (Commit X) HeedDb.empty l →
      (lastStore HeedDb.empty l).getSubnetState X (.fromTxid20 t) = some s →
      ReplaysLog X (lastStore HeedDb.empty l) t s := by
  intro hall
  obtain ⟨l, hl, -, hlast⟩ := exists_trail (X := stakeLibrary) ⟨none⟩ context
    [createTx, joinTx 100000, stakeTx, unstakeTx, checkpointTx 14 1] HeedDb.empty
  have hstate : ((lastStore HeedDb.empty l).getSubnetState stakeLibrary
      (.fromTxid20 subnet)).map (fun s => s.latestCommittee.configurationNumber) = some 1 := by
    rw [hlast]
    decide +kernel
  have hlen : (recordedRequests stakeLibrary (lastStore HeedDb.empty l) subnet).length = 2 := by
    rw [hlast]
    decide +kernel
  obtain ⟨s, hs, hconf⟩ := Option.map_eq_some_iff.mp hstate
  obtain ⟨genesis, -, -, hnum⟩ := hall stakeLibrary (displayLaws_ideal _) l subnet s hl hs
  rw [hconf, hlen] at hnum
  omega

end Monitor
