import BitcoinIpc.Queues
import BitcoinIpc.IdealCrates
import BitcoinIpc.Lib.Journal

/-!
# The logs of subnets

The messages to a subnet and its stake change requests are journals in two
tables that all subnets share. A funding, a batch transfer, a join, a stake and
an unstake append with the next number, and a checkpoint rewrites requests to
confirm them. The numbers of every log are dense in every reachable state, and
no commit touches an entry but to confirm it.
-/

namespace Monitor

open Faults Bytes Chain Messages Crates Multisig Db Grouping Commits OrderedTable
open IpcBatchTransferMsg

variable {X : Library} (laws : DisplayLaws X)

/-- The messages to subnets, numbered by their nonces. -/
def messageJournal : Journal Txid20 Key RootnetMessage where
  key t := rootnetMsgsKey X (.fromTxid20 t)
  belongs t k := (rootnetMsgsPrefix X (.fromTxid20 t)).isPrefixOf k
  number := RootnetMessage.nonce
  first := 0
  key_injective _ _ _ h := (numberedKey_inj laws h).2
  belongs_key t u n := by
    rw [rootnetMsgsPrefix, rootnetMsgsKey, isPrefixOf_numberedKey laws, decide_eq_true_iff]

/-- The stake change requests of subnets, by their configuration numbers. -/
def requestJournal : Journal Txid20 Key StakeChangeRequest where
  key t := stakeChangeKey X (.fromTxid20 t)
  belongs t k := (stakeChangesPrefix X (.fromTxid20 t)).isPrefixOf k
  number := StakeChangeRequest.configurationNumber
  first := 1
  key_injective _ _ _ h := (numberedKey_inj laws h).2
  belongs_key t u n := by
    rw [stakeChangesPrefix, stakeChangeKey, isPrefixOf_numberedKey laws, decide_eq_true_iff]

/-- Writes that only append. -/
abbrev Appends {V : Type} (J : Journal Txid20 Key V) : Table Key V → Table Key V → Prop :=
  J.Writes (fun _ _ => False)

/-- Messages are appended to the queues of subnets. -/
def Queued (db db' : HeedDb) : Prop :=
  Appends (messageJournal laws) db.rootnetMsgsDb db'.rootnetMsgsDb

section Messages

variable {laws}

theorem Queued.trans {a b c : HeedDb} (h₁ : Queued laws a b) (h₂ : Queued laws b c) :
    Queued laws a c := Relation.ReflTransGen.trans h₁ h₂

theorem queued_of_same {db db' : HeedDb} (h : db'.rootnetMsgsDb = db.rootnetMsgsDb) :
    Queued laws db db' := by
  unfold Queued
  rw [h]
  exact .refl

/-- A message made with the next nonce is appended to its queue. -/
theorem queued_enqueue (db : HeedDb) (t : Txid20) {f : Nat → RootnetMessage}
    (hnonce : ∀ n, (f n).nonce = n) : Queued laws db (enqueue X db (.fromTxid20 t) f) := by
  refine .single (.append (i := t) ?_)
  rw [HeedDb.getNextRootnetMsgNonce_eq]
  exact (hnonce _).trans (Nat.zero_add _).symm

theorem queued_applyRegistration (o : Origin) (source : SubnetId) {subnets : List SubnetState}
    (hsub : ∀ s ∈ subnets, ∃ t, s.id = .fromTxid20 t) (db : HeedDb)
    (r : IpcErcTokenRegistration) :
    Queued laws db (applyRegistration X o source subnets db r) := by
  have hset : Queued laws db
      (db.setTokenBalance X source r.homeTokenAddress source r.initialSupply) :=
    queued_of_same rfl
  refine hset.trans (foldl_rel_of_mem (R := Queued laws) (fun _ => .refl)
    (fun _ _ _ => Queued.trans) ?_ _)
  intro s hs d
  obtain ⟨t, ht⟩ := hsub s (List.mem_of_mem_filter hs)
  rw [ht]
  exact queued_enqueue d t (fun _ => rfl)

theorem queued_applyTransfer {o : Origin} {source : SubnetId} {e : IpcCrossSubnetErcTransfer}
    {t : Txid20} {db db' : HeedDb} (ht : e.destinationSubnetId = .fromTxid20 t)
    (h : applyTransfer X o source db e = .ok db') : Queued laws db db' := by
  unfold applyTransfer at h
  split_ifs at h
  · obtain rfl := Except.ok.inj h
    exact .refl
  · obtain ⟨left, -, h⟩ := bind_eq_ok.mp h
    obtain rfl := Except.ok.inj h
    have hset : ∀ d, d.rootnetMsgsDb = db.rootnetMsgsDb → Queued laws db d :=
      fun _ => queued_of_same
    have hqueue : ∀ d : HeedDb, Queued laws d (enqueue X d e.destinationSubnetId fun nonce =>
        .ercTransfer e o.blockHeight o.blockHash nonce o.txid) := by
      intro d
      rw [ht]
      exact queued_enqueue d t (fun _ => rfl)
    exact (hset _ rfl).trans (hqueue _)

theorem queued_applyRecords {m : IpcBatchTransferMsg} {o : Origin} {committed db db' : HeedDb}
    (hcommitted : ∀ s ∈ committed.getAllSubnets, ∃ t, s.id = .fromTxid20 t)
    (hnative : ∀ t ∈ m.transfers, ∃ d, t.destinationSubnetId = .fromTxid20 d)
    (herc : ∀ e ∈ m.tokenTransfers, ∃ d, e.destinationSubnetId = .fromTxid20 d)
    (h : m.applyRecords X o committed db = .ok db') : Queued laws db db' := by
  have hrefl : ∀ db, Queued laws db db := fun _ => .refl
  have htrans : ∀ a b c, Queued laws a b → Queued laws b c → Queued laws a c :=
    fun _ _ _ => Queued.trans
  obtain ⟨d, hburn, htransfer⟩ := bind_eq_ok.mp h
  have htransfers := foldl_rel_of_mem hrefl htrans (f := applyNative X o) (l := m.transfers)
    (fun t ht db => by
      obtain ⟨u, hu⟩ := hnative t ht
      rw [applyNative, hu]
      exact queued_enqueue db u (fun _ => rfl)) db
  have hregistered := foldl_rel hrefl htrans
    (queued_applyRegistration o m.subnetId hcommitted) m.tokenRegistrations
    (m.transfers.foldl (applyNative X o) db)
  have hminted := foldl_rel hrefl htrans (f := applyMint X m.subnetId)
    (fun _ _ => queued_of_same rfl)
    (m.tokenSupplyAdjustments.filter (fun a => !a.delta.isNegative))
    (m.tokenRegistrations.foldl (applyRegistration X o m.subnetId committed.getAllSubnets)
      (m.transfers.foldl (applyNative X o) db))
  have hburned := foldlM_rel hrefl htrans (fun d a d' hd => by
    obtain ⟨left, -, hd⟩ := bind_eq_ok.mp hd
    exact (Except.ok.inj hd) ▸ queued_of_same rfl) hburn
  have hmoved := foldlM_rel_of_mem hrefl htrans (fun e he d d' hd => by
    obtain ⟨t, ht⟩ := herc e he
    exact queued_applyTransfer ht hd) htransfer
  exact (((htransfers.trans hregistered).trans hminted).trans hburned).trans hmoved

/-- Every commit only appends to the queues. -/
theorem queued_commit {db db' : HeedDb} {e : Event} (hs : Sound X db) (h : Commit X db e db') :
    Queued laws db db' := by
  cases hq : addsToQueue e with
  | false => exact queued_of_same ((tables_of_commit h).2.2 hq)
  | true =>
    cases h with
    | @fundSubnet ctx tx m _ _ _ hsave =>
      obtain ⟨s, hst, rfl⟩ := IpcFundSubnetMsg.saveToDb_eq_ok hsave
      obtain ⟨t, ht, -⟩ := hs.state laws hst
      rw [ht]
      exact queued_enqueue db t (f := fun nonce => m.toRootnetMessage nonce ctx.blockHeight
        ctx.blockHash (X.computeTxid tx)) (fun _ => rfl)
    | batchTransfer hparsed hcheck hsave =>
      obtain ⟨hnative, herc⟩ := fromTx_homes hparsed
      have hm := checkBatch_eq hcheck
      obtain ⟨s, -, h⟩ := bind_eq_ok.mp hsave
      obtain ⟨n, -, h⟩ := bind_eq_ok.mp h
      obtain ⟨c, -, h⟩ := bind_eq_ok.mp h
      obtain ⟨_, -, h⟩ := bind_eq_ok.mp h
      obtain ⟨db', happly, h⟩ := bind_eq_ok.mp h
      cases h
      have hset : ∀ d, d.rootnetMsgsDb = db.rootnetMsgsDb → Queued laws db d :=
        fun _ => queued_of_same
      have hrecords : Queued laws _ db' := queued_applyRecords hs.allSubnets
        (by rw [hm]; exact hnative) (by rw [hm]; exact herc) happly
      exact (hset _ rfl).trans hrecords
    | _ => cases hq

end Messages

section Requests

include laws

variable {db db' : HeedDb} {t : Txid20}

/-- Requests with the next numbers are appended. -/
theorem appends_foldl_addStakeChange (db : HeedDb) {l : List StakeChangeRequest}
    (h : (requestJournal laws).Kept db.stakeChangesDb)
    (hn : l.map (·.configurationNumber) =
      List.range' (1 + (requestJournal laws).count db.stakeChangesDb t) l.length) :
    Appends (requestJournal laws) db.stakeChangesDb
      (l.foldl (fun d c => d.addStakeChange X (.fromTxid20 t) c) db).stakeChangesDb := by
  induction l generalizing db with
  | nil => exact .refl
  | cons c rest ih =>
    rw [List.map_cons, List.length_cons, List.range'_succ, List.cons.injEq] at hn
    have hc : (requestJournal laws).number c =
        (requestJournal laws).first + (requestJournal laws).count db.stakeChangesDb t := hn.1
    have hcount := Journal.count_append h hc t
    rw [if_pos rfl] at hcount
    refine .head (.append hc) (@ih (db.addStakeChange X (.fromTxid20 t) c) (h.append hc) ?_)
    rw [hn.2]
    congr 1
    exact (Nat.add_assoc _ _ _).trans (congrArg (1 + ·) hcount.symm)

/-- What a confirmation does to a request. -/
def Confirmation (old new : StakeChangeRequest) : Prop :=
  ∃ height hash, new = HeedDb.confirmed height hash old

/-- Confirming rewrites requests in their places. -/
theorem writes_foldl_confirmed {l : List StakeChangeRequest} (height : Nat) (hash : BlockHash)
    (hl : ∀ c ∈ l, ∃ old, db.getStakeChange X (.fromTxid20 t) c.configurationNumber = some old ∧
      c = HeedDb.confirmed height hash old) :
    (requestJournal laws).Writes Confirmation db.stakeChangesDb
      (l.foldl (fun d c => d.addStakeChange X (.fromTxid20 t) c) db).stakeChangesDb := by
  induction l generalizing db with
  | nil => exact .refl
  | cons c rest ih =>
    obtain ⟨old, hold, hc⟩ := hl c List.mem_cons_self
    refine .head (.rewrite (i := t) hold ⟨height, hash, hc⟩)
      (@ih (db.addStakeChange X (.fromTxid20 t) c) ?_)
    intro c' hc'
    obtain ⟨old', hold', hc''⟩ := hl c' (List.mem_cons_of_mem c hc')
    rw [HeedDb.getStakeChange_add db laws]
    split_ifs with hk
    · -- the same request, which is confirmed already
      rw [hk.2, hold] at hold'
      cases hold'
      exact ⟨c, rfl, by rw [hc'', hc]; rfl⟩
    · exact ⟨old', hold', hc''⟩

theorem writes_confirm (hs : Sound X db) (n height : Nat) (hash : BlockHash) :
    (requestJournal laws).Writes Confirmation db.stakeChangesDb
      (db.confirmStakeChanges X (.fromTxid20 t) n height hash).stakeChangesDb := by
  apply writes_foldl_confirmed laws height hash
  intro c hc
  obtain ⟨a, ha, rfl⟩ := List.mem_map.mp hc
  exact ⟨a, (hs.mem_getAllStakeChanges laws).mp (List.mem_of_mem_filter ha), rfl⟩

/-- The requests after some of them were written. -/
theorem getStakeChange_foldl {l : List StakeChangeRequest}
    (hl : ∀ c ∈ l, ∀ c' ∈ l, c.configurationNumber = c'.configurationNumber → c = c')
    (u : Txid20) (k : Nat) :
    (l.foldl (fun d c => d.addStakeChange X (.fromTxid20 t) c) db).getStakeChange X
        (.fromTxid20 u) k =
      if u = t then (l.find? (fun c => c.configurationNumber = k)).or
        (db.getStakeChange X (.fromTxid20 u) k)
      else db.getStakeChange X (.fromTxid20 u) k := by
  induction l generalizing db with
  | nil => simp
  | cons c rest ih =>
    rw [List.foldl_cons, ih (fun a ha b hb => hl a (List.mem_cons_of_mem c ha) b
      (List.mem_cons_of_mem c hb)), HeedDb.getStakeChange_add db laws]
    simp only [SubnetId.fromTxid20_injective.eq_iff]
    by_cases hut : u = t
    · simp only [hut, true_and, if_true, List.find?_cons]
      by_cases hk : c.configurationNumber = k
      · simp only [hk, if_true, decide_true, Option.some_or]
        cases hfind : rest.find? (fun c => c.configurationNumber = k) with
        | none => rfl
        | some c' =>
          have hc' : c'.configurationNumber = k := by simpa using List.find?_some hfind
          rw [hl c List.mem_cons_self c' (List.mem_cons_of_mem c (List.mem_of_find?_eq_some hfind))
            (hk.trans hc'.symm)]
          rfl
      · simp only [hk, decide_false, Ne.symm hk, if_false]
    · simp [hut]

/-- The requests after a confirmation: the open ones up to the number are confirmed. -/
theorem getStakeChange_confirm (hs : Sound X db) (n height : Nat) (hash : BlockHash)
    (u : Txid20) (k : Nat) :
    (db.confirmStakeChanges X (.fromTxid20 t) n height hash).getStakeChange X (.fromTxid20 u) k =
      (db.getStakeChange X (.fromTxid20 u) k).map (fun c =>
        if u = t ∧ HeedDb.confirms n c = true then HeedDb.confirmed height hash c else c) := by
  set chosen := (db.getAllStakeChanges X (.fromTxid20 t)).filter (HeedDb.confirms n) with hchosen
  have hstored : ∀ c ∈ chosen,
      db.getStakeChange X (.fromTxid20 t) c.configurationNumber = some c := by
    intro c hc
    exact (hs.mem_getAllStakeChanges laws).mp (List.mem_of_mem_filter hc)
  have hunique : ∀ c ∈ chosen.map (HeedDb.confirmed height hash),
      ∀ c' ∈ chosen.map (HeedDb.confirmed height hash),
      c.configurationNumber = c'.configurationNumber → c = c' := by
    intro c hc c' hc' hnum
    obtain ⟨a, ha, rfl⟩ := List.mem_map.mp hc
    obtain ⟨b, hb, rfl⟩ := List.mem_map.mp hc'
    have hab : a.configurationNumber = b.configurationNumber := hnum
    have hsame := hstored a ha
    rw [hab, hstored b hb] at hsame
    rw [Option.some.inj hsame]
  rw [HeedDb.confirmStakeChanges, getStakeChange_foldl laws hunique]
  by_cases hut : u = t
  · subst hut
    simp only [if_true, true_and]
    cases hfind : (chosen.map (HeedDb.confirmed height hash)).find?
        (fun c => c.configurationNumber = k) with
    | none =>
      rw [Option.none_or]
      cases hget : db.getStakeChange X (.fromTxid20 u) k with
      | none => rfl
      | some c =>
        have hnum := (hs.request laws hget).1
        have hopen : ¬ HeedDb.confirms n c = true := by
          intro hconf
          have hmem := List.mem_filter.mpr
            ⟨(hs.mem_getAllStakeChanges laws).mpr (hnum.symm ▸ hget), hconf⟩
          exact List.find?_eq_none.mp hfind _
            (List.mem_map_of_mem (f := HeedDb.confirmed height hash) hmem) (decide_eq_true hnum)
        rw [Option.map_some, if_neg hopen]
    | some c =>
      obtain ⟨a, ha, rfl⟩ := List.mem_map.mp (List.mem_of_find?_eq_some hfind)
      have htest := List.find?_some hfind
      have hnum : a.configurationNumber = k := of_decide_eq_true htest
      rw [Option.some_or, ← hnum, hstored a ha, Option.map_some, if_pos (List.mem_filter.mp ha).2]
  · simp [hut]

/-- A step of another message than a checkpoint only appends requests. -/
theorem appends_of_subnetStep {e : Event}
    (hkept : (requestJournal laws).Kept db.stakeChangesDb) (h : SubnetStep X db e db')
    (he : ∀ ctx tx m, e ≠ .message ctx tx (.checkpointSubnet m)) :
    Appends (requestJournal laws) db.stakeChangesDb db'.stakeChangesDb := by
  cases h with
  | frame hsame =>
    rw [hsame.2.2.1]
    exact .refl
  | genesis => exact .refl
  | start => exact .refl
  | @stake _ t s next requests _ hstake =>
    have hn := hstake.numbers_eq
    rw [HeedDb.getNextStakeChangeConfigurationNumber_eq, Nat.add_comm] at hn
    exact appends_foldl_addStakeChange laws (db.saveSubnetState X (.fromTxid20 t)
      { s with waitingCommittee := some next }) hkept hn
  | kill _ _ _ hr _ =>
    rw [hr]
    exact .refl
  | checkpoint => exact absurd rfl (he _ _ _)

/-- A checkpoint that rotates confirms the open requests up to its number. -/
theorem requests_of_checkpoint {m : IpcCheckpointSubnetMsg} {s : SubnetState}
    {c : StakeChangeRequest} (height : Nat) (hash : BlockHash) (txid : Txid) (hs : Sound X db)
    (hm : m.subnetId = .fromTxid20 t) (hst : db.getSubnetState X (.fromTxid20 t) = some s)
    (hrot : m.rotation X db s = .ok (some c)) :
    (requestJournal laws).Writes Confirmation db.stakeChangesDb
        (m.checkpointedDb X db s (some c) height hash txid).stakeChangesDb ∧
      ∀ u k, (m.checkpointedDb X db s (some c) height hash txid).getStakeChange X
          (.fromTxid20 u) k =
        (db.getStakeChange X (.fromTxid20 u) k).map (fun c =>
          if u = t ∧ HeedDb.confirms m.nextCommitteeConfigurationNumber c = true then
            HeedDb.confirmed height hash c else c) := by
  have hsaved : Sound X (((db.saveSubnetState X (.fromTxid20 t) (m.checkpointedState s (some c)
      height)).saveCheckpoint X (.fromTxid20 t) (m.checkpointRecord s (some c) height txid)
      (m.checkpointRecord s (some c) height txid).checkpointNumber).saveCommittee X
        (.fromTxid20 t) (s.committeeNumber + 1) c.committeeAfterChange) :=
    (hs.stateCheckpointed laws height hm hst hrot).of_tables rfl rfl rfl
  simp only [IpcCheckpointSubnetMsg.checkpointedDb, hm]
  exact ⟨writes_confirm laws hsaved _ height hash,
    fun u k => getStakeChange_confirm laws hsaved _ height hash u k⟩

/-- Every commit appends requests, or confirms some in their places. -/
theorem requests_of_commit {e : Event} (hs : Sound X db)
    (hkept : (requestJournal laws).Kept db.stakeChangesDb) (h : Commit X db e db') :
    Appends (requestJournal laws) db.stakeChangesDb db'.stakeChangesDb ∨
      (requestJournal laws).Writes Confirmation db.stakeChangesDb db'.stakeChangesDb ∧
      ∃ ctx tx m t, e = .message ctx tx (.checkpointSubnet m) ∧ m.subnetId = .fromTxid20 t ∧
        ∀ u k, db'.getStakeChange X (.fromTxid20 u) k =
          (db.getStakeChange X (.fromTxid20 u) k).map (fun c =>
            if u = t ∧ HeedDb.confirms m.nextCommitteeConfigurationNumber c = true then
              HeedDb.confirmed ctx.blockHeight ctx.blockHash c else c) := by
  by_cases he : ∀ ctx tx m, e ≠ .message ctx tx (.checkpointSubnet m)
  · exact Or.inl (appends_of_subnetStep laws hkept (subnetStep_of_commit laws hs h) he)
  · push Not at he
    obtain ⟨ctx, tx, m, rfl⟩ := he
    cases h with
    | checkpointSubnet _ _ hsave =>
      obtain ⟨s, change, hst, hrot, rfl⟩ := IpcCheckpointSubnetMsg.saveToDb_eq_ok hsave
      obtain ⟨t, ht, -⟩ := hs.state laws hst
      cases change with
      | none => exact Or.inl .refl
      | some c =>
        obtain ⟨hwrites, hget⟩ := requests_of_checkpoint laws ctx.blockHeight
          ctx.blockHash (X.computeTxid tx) hs ht (ht ▸ hst) hrot
        exact Or.inr ⟨hwrites, ctx, tx, m, t, rfl, ht, hget⟩

end Requests

section Reached

include laws

variable {db db' : HeedDb}

theorem logs_kept (h : Reachable X db) : (messageJournal laws).Kept db.rootnetMsgsDb ∧
    (requestJournal laws).Kept db.stakeChangesDb := by
  obtain ⟨l, hl, rfl⟩ := h
  refine (invariant_last (C := fun _ _ _ => True)
    (I := fun db => Sound X db ∧ (messageJournal laws).Kept db.rootnetMsgsDb ∧
      (requestJournal laws).Kept db.stakeChangesDb) ?_ ?_ hl
    (allSteps_of_events (P := fun _ => True) (fun _ _ => trivial))).2
  · rintro d e d' ⟨hs, hmsgs, hreqs⟩ hstep -
    refine ⟨hs.commit laws hstep, hmsgs.writes (queued_commit hs hstep), ?_⟩
    rcases requests_of_commit laws hs hreqs hstep with hw | ⟨hw, -⟩
    · exact hreqs.writes hw
    · exact hreqs.writes hw
  · exact ⟨sound_empty, Journal.kept_empty (fun _ => rfl), Journal.kept_empty (fun _ => rfl)⟩

/-- The logs of a subnet: the nonces of its messages are the numbers from zero on, the
numbers of its requests those from one on, and its scans select, of the entries
of all subnets, exactly its own. -/
structure DenseLogs (X : Library) (db : HeedDb) (t : Txid20) : Prop where
  messages : ∀ n, (∃ m, db.getRootnetMsg X (.fromTxid20 t) n = some m) ↔
    n < (db.getAllRootnetMsgs X (.fromTxid20 t)).length
  nonces : ((db.getAllRootnetMsgs X (.fromTxid20 t)).map (·.nonce)).Perm
    (List.range (db.getAllRootnetMsgs X (.fromTxid20 t)).length)
  own_messages : ∀ e ∈ db.rootnetMsgsDb.entries, ∃ u,
    e.1 = rootnetMsgsKey X (.fromTxid20 u) e.2.nonce ∧
    (rootnetMsgsPrefix X (.fromTxid20 t)).isPrefixOf e.1 = decide (t = u)
  requests : ∀ n, (∃ c, db.getStakeChange X (.fromTxid20 t) n = some c) ↔
    1 ≤ n ∧ n ≤ (db.getAllStakeChanges X (.fromTxid20 t)).length
  numbers : ((db.getAllStakeChanges X (.fromTxid20 t)).map (·.configurationNumber)).Perm
    (List.range' 1 (db.getAllStakeChanges X (.fromTxid20 t)).length)
  own_requests : ∀ e ∈ db.stakeChangesDb.entries, ∃ u,
    e.1 = stakeChangeKey X (.fromTxid20 u) e.2.configurationNumber ∧
    (stakeChangesPrefix X (.fromTxid20 t)).isPrefixOf e.1 = decide (t = u)

/-- The request `c` of the subnet is confirmed by the checkpoint of the event. -/
def ConfirmedBy (t : Txid20) (e : Event) (c c' : StakeChangeRequest) : Prop :=
  ∃ ctx tx m, e = .message ctx tx (.checkpointSubnet m) ∧ m.subnetId = .fromTxid20 t ∧
    HeedDb.confirms m.nextCommitteeConfigurationNumber c = true ∧
    c' = HeedDb.confirmed ctx.blockHeight ctx.blockHash c

/-- What one write transaction does to the logs of a subnet: the messages it had are
kept and more are appended with the next nonces, and the requests it had are
kept or confirmed. -/
structure AppendOnly (X : Library) (db : HeedDb) (e : Event) (db' : HeedDb) (t : Txid20) :
    Prop where
  messages : ∀ n m, db.getRootnetMsg X (.fromTxid20 t) n = some m →
    db'.getRootnetMsg X (.fromTxid20 t) n = some m
  appended : ∃ new, queue X db' t = queue X db t ++ new ∧
    new.map (·.nonce) = List.range' (db.getAllRootnetMsgs X (.fromTxid20 t)).length new.length
  requests : ∀ n c, db.getStakeChange X (.fromTxid20 t) n = some c →
    ∃ c', db'.getStakeChange X (.fromTxid20 t) n = some c' ∧ (c' = c ∨ ConfirmedBy t e c c')

theorem denseLogs_of_kept (hm : (messageJournal laws).Kept db.rootnetMsgsDb)
    (hr : (requestJournal laws).Kept db.stakeChangesDb) (t : Txid20) : DenseLogs X db t where
  messages n := by
    have h := hm.dense t n
    simp only [messageJournal, Journal.count, Nat.zero_le, true_and, Nat.zero_add] at h
    exact h
  nonces := by
    rw [List.range_eq_range']
    exact Journal.map_number_scan_perm hm t
  own_messages e he := by
    obtain ⟨u, hu⟩ := hm.keyed e he
    refine ⟨u, hu, ?_⟩
    rw [hu]
    exact isPrefixOf_numberedKey laws _ t u _
  requests n := by
    have h := hr.dense t n
    simp only [requestJournal, Journal.count] at h
    refine h.trans ?_
    rw [Nat.add_comm, Nat.lt_succ_iff]
    rfl
  numbers := Journal.map_number_scan_perm hr t
  own_requests e he := by
    obtain ⟨u, hu⟩ := hr.keyed e he
    refine ⟨u, hu, ?_⟩
    rw [hu]
    exact isPrefixOf_numberedKey laws _ t u _

theorem queue_eq_records (db : HeedDb) (t : Txid20) :
    queue X db t = (messageJournal laws).records db.rootnetMsgsDb t := by
  simp only [queue, Table.listed, Journal.records, messageJournal, Journal.count, Nat.zero_add]

theorem appendOnly_of_commit {e : Event} (h : Reachable X db) (hstep : Commit X db e db')
    (t : Txid20) : AppendOnly X db e db' t := by
  have hs := sound_of_reachable laws h
  obtain ⟨hm, hr⟩ := logs_kept laws h
  have hqueued : Queued laws db db' := queued_commit hs hstep
  refine ⟨?_, ?_, ?_⟩
  · intro n m hget
    exact Journal.get_of_appends (i := t) hm hqueued hget
  · obtain ⟨f, hf⟩ := delivers_commit laws hs hstep
    obtain ⟨-, new, hnew, -⟩ := hf t (denseQueue_of_reachable laws h t)
    rw [queue_eq_records laws, queue_eq_records laws] at hnew
    refine ⟨new, by rw [queue_eq_records laws, queue_eq_records laws, hnew], ?_⟩
    have hnonces := Journal.map_number_new hm (hm.writes hqueued) hnew
    rw [show (messageJournal laws).first = 0 from rfl, Nat.zero_add] at hnonces
    exact hnonces
  · intro n c hget
    rcases requests_of_commit laws hs hr hstep with hw | ⟨-, ctx, tx, m, u, he, hu, hreads⟩
    · exact ⟨c, Journal.get_of_appends (i := t) hr hw hget, Or.inl rfl⟩
    · have hget' := hreads t n
      rw [hget, Option.map_some] at hget'
      refine ⟨_, hget', ?_⟩
      split_ifs with hconf
      · obtain ⟨rfl, hconf⟩ := hconf
        exact Or.inr ⟨ctx, tx, m, he, hu, hconf, rfl⟩
      · exact Or.inl rfl

/-- In every reachable state the logs of every subnet are dense, and every write
transaction on it is append-only. -/
theorem logs_dense_append_only (h : Reachable X db) :
    (∀ t, DenseLogs X db t) ∧
      ∀ e db', Commit X db e db' → ∀ t, AppendOnly X db e db' t := by
  obtain ⟨hm, hr⟩ := logs_kept laws h
  exact ⟨denseLogs_of_kept laws hm hr, fun _ _ => appendOnly_of_commit laws h⟩

end Reached

open Solo

/-- Two subnets with several messages and requests. -/
theorem logs_dense_append_only_after_fund_and_stake :
    ∃ db, Reachable twinLibrary db ∧
      [subnet, otherSubnet 20].map (fun t =>
        (db.getAllRootnetMsgs twinLibrary (.fromTxid20 t)).map (·.nonce)) = [[0, 1], [0]] ∧
      [subnet, otherSubnet 20].map (fun t =>
        (db.getAllStakeChanges twinLibrary (.fromTxid20 t)).map (·.configurationNumber)) =
          [[1, 2], [1]] ∧
      (∀ t, DenseLogs twinLibrary db t) ∧
      ∀ e db', Commit twinLibrary db e db' → ∀ t, AppendOnly twinLibrary db e db' t := by
  obtain ⟨l, hl, -, hlast⟩ := exists_trail (X := twinLibrary) ⟨none⟩ context
    (twinTxs ++ twinFunds ++ twinStakes) HeedDb.empty
  have hreach : Reachable twinLibrary (lastStore HeedDb.empty l) := ⟨l, hl, rfl⟩
  refine ⟨lastStore HeedDb.empty l, hreach, ?_, ?_,
    logs_dense_append_only (displayLaws_ideal _) hreach⟩
  · rw [hlast]
    decide +kernel
  · rw [hlast]
    decide +kernel

end Monitor
