import BitcoinIpc.CommitteeHistory
import BitcoinIpc.KillLifecycle
import BitcoinIpc.Logs

/-!
# Who can write a checkpoint

The chain as a set of unspent outputs, and the monitor beside it. A checkpoint is
read from the outputs of its transaction alone, so its record names a committee
that need not have signed anything, and a batch transfer writes its record under
the next number. A run is authentic exactly when every transaction that is saved
as a checkpoint, or as a batch transfer with a new record, spends an output of
the committee.
-/

namespace Monitor

open Faults Bytes Chain Messages Crates Multisig Db Commits OrderedTable

/-- The unspent outputs of the chain. -/
abbrev Unspent := OutPoint → Option TxOut

/-- A coinbase transaction spends no output. -/
def IsCoinbase (tx : Transaction) : Prop :=
  tx.input.map (·.previousOutput) = [⟨FixedBytes.zeros 32, 0xffffffff⟩]

/-- Every input of the transaction spends an unspent output. -/
def Spendable (U : Unspent) (tx : Transaction) : Prop :=
  IsCoinbase tx ∨ ∀ i ∈ tx.input, (U i.previousOutput).isSome

/-- A transaction removes what it spends and adds its outputs. -/
def Unspent.after (X : Library) (U : Unspent) (tx : Transaction) : Unspent := fun o =>
  if o.txid = X.computeTxid tx then tx.output[o.vout]?
  else if o ∈ tx.input.map (·.previousOutput) then none
  else U o

/-- An input of the transaction spends an output that is locked to the address. -/
def SpendsFrom (U : Unspent) (tx : Transaction) (a : Address) : Prop :=
  ∃ i ∈ tx.input, ∃ out, U i.previousOutput = some out ∧ out.scriptPubkey = a.scriptPubkey

/-- A chain of transactions, each of which can be spent when it is processed, with
what the monitor commits and the outputs that are unspent before each commit. -/
inductive UtxoTrail (X : Library) (cfg : Config) :
    Unspent → HeedDb → List (BlockContext × Transaction) →
      List ((Unspent × Event) × HeedDb) → Prop
  | nil {U db} : UtxoTrail X cfg U db [] []
  | quiet {U db e db' txs l} : Quiet X db e db' → UtxoTrail X cfg U db' txs l →
      UtxoTrail X cfg U db txs (((U, e), db') :: l)
  | transaction {U : Unspent} {db ctx tx l₁ txs l₂} : Spendable U tx →
      TransactionTrail X cfg ctx tx db l₁ →
      UtxoTrail X cfg (U.after X tx) (lastStore db l₁) txs l₂ →
      UtxoTrail X cfg U db ((ctx, tx) :: txs) (l₁.map (fun a => ((U, a.1), a.2)) ++ l₂)

/-- Every transaction of the chain can be spent when it comes. -/
def SpendableChain (X : Library) : Unspent → List (BlockContext × Transaction) → Prop
  | _, [] => True
  | U, a :: rest => Spendable U a.2 ∧ SpendableChain X (U.after X a.2) rest

variable {X : Library} {cfg : Config} {U : Unspent} {db db' : HeedDb} {e : Event} {t : Txid20}

/-- Every run of the monitor over such a chain is a trail of this kind. -/
theorem exists_utxoTrail {txs : List (BlockContext × Transaction)} {l : List (Event × HeedDb)}
    (h : ChainTrail X cfg db txs l) (hU : SpendableChain X U txs) :
    ∃ l', UtxoTrail X cfg U db txs l' ∧ l'.map (fun a => (a.1.2, a.2)) = l := by
  induction h generalizing U with
  | nil => exact ⟨[], .nil, rfl⟩
  | quiet hq _ ih =>
    obtain ⟨l', hl', rfl⟩ := ih hU
    exact ⟨_, .quiet hq hl', rfl⟩
  | @transaction db ctx tx l₁ txs l₂ htx _ ih =>
    obtain ⟨l', hl', rfl⟩ := ih hU.2
    refine ⟨_, .transaction hU.1 htx hl', ?_⟩
    rw [List.map_append, List.map_map]
    congr 1
    exact List.map_id l₁

theorem lastStore_map {S E E' : Type} (f : E → E') (s : S) (l : List (E × S)) :
    lastStore s (l.map (fun a => (f a.1, a.2))) = lastStore s l := by
  unfold lastStore
  rw [List.map_map]
  rfl

theorem trail_labelled {l : List (Event × HeedDb)} (h : Trail (Commit X) db l) :
    Trail (fun db (a : Unspent × Event) db' => Commit X db a.2 db') db
      (l.map (fun a => ((U, a.1), a.2))) := by
  induction l generalizing db with
  | nil => trivial
  | cons a rest ih => exact ⟨h.1, ih h.2⟩

theorem UtxoTrail.trail {txs : List (BlockContext × Transaction)}
    {l : List ((Unspent × Event) × HeedDb)} (h : UtxoTrail X cfg U db txs l) :
    Trail (fun db (a : Unspent × Event) db' => Commit X db a.2 db') db l := by
  induction h with
  | nil => trivial
  | quiet hq _ ih => exact ⟨hq.1, ih⟩
  | transaction _ htx _ ih =>
    refine trail_append.mpr ⟨trail_labelled htx.trail, ?_⟩
    rw [lastStore_map]
    exact ih

/-- The unspent outputs after the transactions of a chain. -/
def Unspent.afterAll (X : Library) (U : Unspent) (txs : List (BlockContext × Transaction)) :
    Unspent := txs.foldl (fun V a => V.after X a.2) U

/-- The outputs that stand beside the commits of a message are those left by the
transactions before its own. -/
theorem UtxoTrail.label {txs : List (BlockContext × Transaction)}
    {l : List ((Unspent × Event) × HeedDb)} (h : UtxoTrail X cfg U db txs l)
    {a : (Unspent × Event) × HeedDb} (ha : a ∈ l) {b : BlockContext × Transaction × IpcMessage}
    (hb : messageOf a.1.2 = some b) :
    ∃ done rest, txs = done ++ (b.1, b.2.1) :: rest ∧ a.1.1 = U.afterAll X done := by
  induction h with
  | nil => cases ha
  | quiet hq _ ih =>
    rcases List.mem_cons.mp ha with rfl | ha
    · rw [hq.2.1] at hb
      cases hb
    · exact ih ha
  | @transaction U db ctx tx l₁ txs l₂ _ htx _ ih =>
    rcases List.mem_append.mp ha with ha | ha
    · obtain ⟨a', ha', rfl⟩ := List.mem_map.mp ha
      obtain ⟨ms, -, hms, -, -⟩ := htx.once
      have hmem : b ∈ messages l₁ := List.mem_filterMap.mpr ⟨a', ha', hb⟩
      rw [hms] at hmem
      obtain ⟨m, -, rfl⟩ := List.mem_map.mp hmem
      exact ⟨[], txs, rfl, rfl⟩
    · obtain ⟨done, rest, rfl, hlabel⟩ := ih ha
      exact ⟨(ctx, tx) :: done, rest, rfl, hlabel⟩

theorem UtxoTrail.snoc {txs : List (BlockContext × Transaction)} {ctx : BlockContext}
    {tx : Transaction} {l : List ((Unspent × Event) × HeedDb)} {l₁ : List (Event × HeedDb)}
    (h : UtxoTrail X cfg U db txs l) (hU : Spendable (U.afterAll X txs) tx)
    (htx : TransactionTrail X cfg ctx tx (lastStore db l) l₁) :
    UtxoTrail X cfg U db (txs ++ [(ctx, tx)])
      (l ++ l₁.map (fun a => ((U.afterAll X txs, a.1), a.2))) := by
  induction h with
  | nil =>
    have hone := UtxoTrail.transaction hU htx .nil
    rw [List.append_nil] at hone
    exact hone
  | quiet hq _ ih =>
    rw [lastStore_cons] at htx
    exact .quiet hq (ih hU htx)
  | transaction hspend ht _ ih =>
    rw [lastStore_append, lastStore_map] at htx
    rw [List.append_assoc]
    exact .transaction hspend ht (ih hU htx)

/-- The message of the commit stands in a transaction that spends an output locked to
the address of the committee with the number. -/
def SignedBy (X : Library) (db : HeedDb) (t : Txid20) (k : Nat) : Unspent × Event → Prop
  | (U, .message _ tx _) => ∃ c, db.getCommittee X (.fromTxid20 t) k = some c ∧
      SpendsFrom U tx c.multisigAddress
  | _ => False

/-- The record of a checkpoint with the transaction of its batch transfer. -/
def completed (old : SubnetCheckpoint) (o : IpcBatchTransferMsg.Origin) : SubnetCheckpoint :=
  { old with batchTransferTxid := some o.txid, batchTransferBlockHeight := some o.blockHeight }

/-- The record is one that is stored already, with its batch transfer filled in by the commit. -/
def Completes (X : Library) (db : HeedDb) (t : Txid20) (e : Event) (n : Nat)
    (r : SubnetCheckpoint) : Prop :=
  ∃ ctx tx m s number old, e = .message ctx tx (.batchTransfer m) ∧ m.subnetId = .fromTxid20 t ∧
    db.getSubnetState X (.fromTxid20 t) = some s ∧ s.lastCheckpointNumber = some number ∧
    db.getCheckpoint X (.fromTxid20 t) number = some old ∧ n = number + 1 ∧
    r = completed old (originOf X ctx tx)

/-- What a commit may do without an input of the committee: it writes no record of a
checkpoint, rotates no committee, confirms no request and kills no subnet. -/
structure Authentic (X : Library) (db : HeedDb) (a : Unspent × Event) (db' : HeedDb) : Prop where
  stored : ∀ t n r, db'.getCheckpoint X (.fromTxid20 t) n = some r →
    db.getCheckpoint X (.fromTxid20 t) n ≠ some r →
    SignedBy X db' t r.signedCommitteeNumber a
  rotated : ∀ t s s', db.getSubnetState X (.fromTxid20 t) = some s →
    db'.getSubnetState X (.fromTxid20 t) = some s' →
    (s'.committeeNumber, s'.committee) ≠ (s.committeeNumber, s.committee) →
    SignedBy X db' t s.committeeNumber a
  confirmed : ∀ t n c c', db.getStakeChange X (.fromTxid20 t) n = some c →
    db'.getStakeChange X (.fromTxid20 t) n = some c' → c' ≠ c →
    ∃ s, db.getSubnetState X (.fromTxid20 t) = some s ∧ SignedBy X db' t s.committeeNumber a
  killed : ∀ t s s', db.getSubnetState X (.fromTxid20 t) = some s →
    db'.getSubnetState X (.fromTxid20 t) = some s' → s.isKilled = false → s'.isKilled = true →
    SignedBy X db' t s.committeeNumber a

/-- A transaction that is saved as a checkpoint spends an output of the committee that is active
before it, and one that is saved as a batch transfer an output of the committee that signed the
last checkpoint, unless the record it writes is there. -/
def FromCommittee (X : Library) (db : HeedDb) : Unspent × Event → HeedDb → Prop
  | (U, .message _ tx (.checkpointSubnet m)), _ =>
    ∀ s, db.getSubnetState X m.subnetId = some s → SpendsFrom U tx s.committee.multisigAddress
  | (U, .message ctx tx (.batchTransfer m)), _ =>
    ∀ s number old, db.getSubnetState X m.subnetId = some s →
      s.lastCheckpointNumber = some number → db.getCheckpoint X m.subnetId number = some old →
      db.getCheckpoint X m.subnetId (number + 1) ≠ some (completed old (originOf X ctx tx)) →
      ∃ c, db.getCommittee X m.subnetId old.signedCommitteeNumber = some c ∧
        SpendsFrom U tx c.multisigAddress
  | _, _ => True

/-- The tables of checkpoints and committees after a batch transfer. -/
theorem batch_record {m : IpcBatchTransferMsg} {o : IpcBatchTransferMsg.Origin}
    {saved : HeedDb × SubnetCheckpoint} (h : m.saveToDb X db o = .ok saved) :
    ∃ s number old, db.getSubnetState X m.subnetId = some s ∧
      s.lastCheckpointNumber = some number ∧ db.getCheckpoint X m.subnetId number = some old ∧
      saved.1.checkpointsDb =
        (db.saveCheckpoint X m.subnetId (completed old o) (number + 1)).checkpointsDb ∧
      saved.1.committeeDb = db.committeeDb := by
  obtain ⟨s, hs, h⟩ := bind_eq_ok.mp h
  obtain ⟨n, hn, h⟩ := bind_eq_ok.mp h
  obtain ⟨old, hold, h⟩ := bind_eq_ok.mp h
  obtain ⟨_, -, h⟩ := bind_eq_ok.mp h
  obtain ⟨after, happly, h⟩ := bind_eq_ok.mp h
  obtain ⟨_, _, hsame⟩ := IpcBatchTransferMsg.sameButRecords_applyRecords happly
  cases h
  refine ⟨s, n, old, okOr_eq_ok.mp hs, okOr_eq_ok.mp hn, okOr_eq_ok.mp hold, ?_, ?_⟩
  · rw [hsame]
    rfl
  · rw [hsame]
    rfl

section Laws

variable (laws : DisplayLaws X)
include laws

/-- A record that is stored after a commit was stored before, or completes a stored one,
or is that of the checkpoint which is committed. -/
theorem stored_cases (hs : Sound X db) (h : Commit X db e db') {n : Nat} {r : SubnetCheckpoint}
    (hget : db'.getCheckpoint X (.fromTxid20 t) n = some r) :
    db.getCheckpoint X (.fromTxid20 t) n = some r ∨ Completes X db t e n r ∨
      ∃ ctx tx m s change, e = .message ctx tx (.checkpointSubnet m) ∧
        m.subnetId = .fromTxid20 t ∧ db.getSubnetState X (.fromTxid20 t) = some s ∧
        db' = m.checkpointedDb X db s change ctx.blockHeight ctx.blockHash (X.computeTxid tx) ∧
        r = m.checkpointRecord s change ctx.blockHeight (X.computeTxid tx) := by
  by_cases he : ∃ ctx tx m, e = .message ctx tx (.checkpointSubnet m)
  · obtain ⟨ctx, tx, m, rfl⟩ := he
    cases h with
    | checkpointSubnet _ _ hsave =>
      obtain ⟨s, change, hst, -, rfl⟩ := IpcCheckpointSubnetMsg.saveToDb_eq_ok hsave
      obtain ⟨u, hu, -⟩ := hs.state laws hst
      rw [getCheckpoint_checkpointedDb laws _ _ _ _ _ _ hu] at hget
      split_ifs at hget with htu
      · obtain ⟨rfl, -⟩ := htu
        exact Or.inr (Or.inr ⟨ctx, tx, m, s, change, rfl, hu, hu ▸ hst, rfl,
          (Option.some.inj hget).symm⟩)
      · exact Or.inl hget
  · cases hb : batchOf e with
    | none =>
      rw [HeedDb.getCheckpoint, checkpointsDb_of_commit h hb
        (fun ctx tx m heq => he ⟨ctx, tx, m, heq⟩)] at hget
      exact Or.inl hget
    | some m =>
      cases h with
      | @batchTransfer ctx tx _ m _ _ _ hsave =>
        obtain ⟨s, number, old, hst, hnumber, hold, htable, -⟩ := batch_record hsave
        obtain ⟨u, hu, -⟩ := hs.state laws hst
        have hread := HeedDb.getCheckpoint_save db laws (.fromTxid20 u) (.fromTxid20 t)
          (completed old (originOf X ctx tx)) (number + 1) n
        rw [HeedDb.getCheckpoint, htable, hu] at hget
        rw [HeedDb.getCheckpoint, hget] at hread
        split_ifs at hread with htu
        · obtain ⟨htu, hn⟩ := htu
          obtain rfl := Option.some.inj hread
          rw [hu, ← htu] at hold hst
          exact Or.inr (Or.inl ⟨ctx, tx, m, s, number, old, rfl, hu.trans htu.symm, hst, hnumber,
            hold, hn, rfl⟩)
        · exact Or.inl hread.symm
      | _ => cases hb

/-- What the proof needs of the states of a run: the records of a subnet are numbered
below the next checkpoint, and the active committees are stored. -/
structure Numbered (X : Library) (db : HeedDb) : Prop where
  reachable : Reachable X db
  committee : ∀ t, CommitteeStored X db t
  numbered : ∀ t n r, db.getCheckpoint X (.fromTxid20 t) n = some r →
    r.checkpointNumber < numberOfCheckpoints X db t

omit laws in
theorem numbered_empty : Numbered X HeedDb.empty where
  reachable := ⟨[], trivial, rfl⟩
  committee t s hs := by cases hs
  numbered t n r hr := by cases hr

theorem numberOfCheckpoints_le (hs : Sound X db) (h : Commit X db e db') (t : Txid20) :
    numberOfCheckpoints X db t ≤ numberOfCheckpoints X db' t := by
  cases committeeStep_of_commit laws hs h t with
  | other _ hkeeps _ => exact hkeeps.numberOfCheckpoints_eq.ge
  | @checkpoint ctx tx m s change hm hst _ =>
    rw [numberOfCheckpoints, numberOfCheckpoints, getSubnetState_checkpointedDb laws _ _ _ _ _ _ hm,
      if_pos rfl, hst, Option.bind_some, Option.bind_some,
      lastCheckpointNumber_checkpointedState s change ctx.blockHeight (X.computeTxid tx)]
    exact Nat.le_succ _

theorem Numbered.commit (h : Numbered X db) (hstep : Commit X db e db') : Numbered X db' := by
  have hs := sound_of_reachable laws h.reachable
  obtain ⟨l, hl, hlast⟩ := h.reachable
  refine ⟨⟨l ++ [(e, db')], trail_snoc.mpr ⟨hl, hlast ▸ hstep⟩, lastStore_snoc _ _ _ _⟩, ?_, ?_⟩
  · intro t
    exact (h.committee t).step laws (committeeStep_of_commit laws hs hstep t)
  · intro t n r hget
    have hle := numberOfCheckpoints_le laws hs hstep t
    rcases stored_cases laws hs hstep hget with hold | ⟨_, _, _, _, k, old, -, -, -, -, hold, -, rfl⟩ | hnew
    · exact lt_of_lt_of_le (h.numbered t n r hold) hle
    · exact lt_of_lt_of_le (h.numbered t k old hold) hle
    · obtain ⟨ctx, tx, m, s, change, -, hm, hst, rfl, rfl⟩ := hnew
      rw [checkpointNumber_eq _ _ _ _ _ hst,
        numberOfCheckpoints_checkpointedDb laws _ _ _ _ _ _ hm hst]
      exact Nat.lt_succ_self _

/-- What a checkpoint does is signed by the committee that its transaction spends from. -/
theorem signedBy_checkpoint (hstored : CommitteeStored X db t) {ctx : BlockContext}
    {tx : Transaction} {m : IpcCheckpointSubnetMsg} {s : SubnetState}
    {change : Option StakeChangeRequest} (hm : m.subnetId = .fromTxid20 t)
    (hst : db.getSubnetState X (.fromTxid20 t) = some s) :
    SignedBy X (m.checkpointedDb X db s change ctx.blockHeight ctx.blockHash (X.computeTxid tx)) t
        s.committeeNumber (U, .message ctx tx (.checkpointSubnet m)) ↔
      SpendsFrom U tx s.committee.multisigAddress := by
  have hcommittee : (m.checkpointedDb X db s change ctx.blockHeight ctx.blockHash
      (X.computeTxid tx)).getCommittee X (.fromTxid20 t) s.committeeNumber =
        some s.committee := by
    rw [getCommittee_checkpointedDb laws _ _ _ _ _ _ hm]
    cases change with
    | none => exact hstored s hst
    | some c =>
      dsimp only
      rw [if_neg (fun hand => by omega)]
      exact hstored s hst
  simp only [SignedBy, hcommittee, Option.some.injEq, exists_eq_left']

/-- The commit is a checkpoint of the subnet. -/
def IsCheckpointOf (t : Txid20) (e : Event) : Prop :=
  ∃ ctx tx m, e = .message ctx tx (.checkpointSubnet m) ∧ m.subnetId = .fromTxid20 t

/-- Another commit leaves the committee and the requests as they are and kills nothing. -/
theorem unchanged_of_other (h : Numbered X db) (hstep : Commit X db e db')
    (hne : ¬ IsCheckpointOf t e) :
    (∀ s s', db.getSubnetState X (.fromTxid20 t) = some s →
      db'.getSubnetState X (.fromTxid20 t) = some s' →
      (s'.committeeNumber, s'.committee) = (s.committeeNumber, s.committee) ∧
        (s'.isKilled = true → s.isKilled = true)) ∧
    ∀ n c, db.getStakeChange X (.fromTxid20 t) n = some c →
      db'.getStakeChange X (.fromTxid20 t) n = some c := by
  have hs := sound_of_reachable laws h.reachable
  refine ⟨?_, ?_⟩
  · intro s s' hst hst'
    constructor
    · cases committeeStep_of_commit laws hs hstep t with
      | other _ hkeeps _ =>
        cases hkeeps with
        | same hsame _ =>
          rw [hst, hst', Option.map_some, Option.map_some] at hsame
          obtain ⟨hnumber, hrest⟩ := Prod.mk.inj (Option.some.inj hsame)
          rw [hnumber, (Prod.mk.inj hrest).1]
        | starts hnone => rw [hnone] at hst; cases hst
      | checkpoint hm => exact absurd ⟨_, _, _, rfl, hm⟩ hne
    · have hmove := stateStep_of_commit laws hs hstep t
      rw [hst'] at hmove
      intro hkilled
      generalize hnew : some s' = new at hmove
      cases hmove with
      | same =>
        rw [hst] at hnew
        cases hnew
        exact hkilled
      | start hnone => rw [hnone] at hst; cases hst
      | stake hold hk =>
        cases hnew
        simp [SubnetState.isKilled, hk] at hkilled
      | mark hold hk =>
        cases hnew
        simp [SubnetState.isKilled] at hkilled
      | checkpoint hm => exact absurd ⟨_, _, _, rfl, hm⟩ hne
  · intro n c hc
    obtain ⟨c', hc', rfl | ⟨ctx, tx, m, he, hm, -⟩⟩ :=
      (appendOnly_of_commit laws h.reachable hstep t).requests n c hc
    · exact hc'
    · exact absurd ⟨ctx, tx, m, he, hm⟩ hne

omit laws in
/-- What a commit is that is a checkpoint of the subnet. -/
theorem checkpointedDb_of_commit (hstep : Commit X db e db') (hof : IsCheckpointOf t e) :
    ∃ s ctx tx m change, e = .message ctx tx (.checkpointSubnet m) ∧ m.subnetId = .fromTxid20 t ∧
      db.getSubnetState X (.fromTxid20 t) = some s ∧
      db' = m.checkpointedDb X db s change ctx.blockHeight ctx.blockHash (X.computeTxid tx) := by
  obtain ⟨ctx, tx, m, rfl, hm⟩ := hof
  cases hstep with
  | checkpointSubnet _ _ hsave =>
    obtain ⟨s, change, hst, -, rfl⟩ := IpcCheckpointSubnetMsg.saveToDb_eq_ok hsave
    exact ⟨s, ctx, tx, m, change, rfl, hm, hm ▸ hst, rfl⟩

/-- The record that a batch transfer writes, beside committees that stay as they are. -/
theorem completed_of_batch {m : IpcBatchTransferMsg} {o : IpcBatchTransferMsg.Origin}
    {saved : HeedDb × SubnetCheckpoint} {s : SubnetState} {number : Nat} {old : SubnetCheckpoint}
    (hm : m.subnetId = .fromTxid20 t) (hst : db.getSubnetState X m.subnetId = some s)
    (hnumber : s.lastCheckpointNumber = some number)
    (hold : db.getCheckpoint X m.subnetId number = some old) (h : m.saveToDb X db o = .ok saved) :
    saved.1.getCheckpoint X (.fromTxid20 t) (number + 1) = some (completed old o) ∧
      ∀ k, saved.1.getCommittee X (.fromTxid20 t) k = db.getCommittee X (.fromTxid20 t) k := by
  obtain ⟨s', n, old', hst', hn, hold', htable, hcommittees⟩ := batch_record h
  obtain rfl := Option.some.inj (hst.symm.trans hst')
  obtain rfl := Option.some.inj (hnumber.symm.trans hn)
  obtain rfl := Option.some.inj (hold.symm.trans hold')
  constructor
  · have hread := HeedDb.getCheckpoint_save db laws (.fromTxid20 t) (.fromTxid20 t)
      (completed old o) (number + 1) (number + 1)
    rw [if_pos ⟨rfl, rfl⟩] at hread
    rw [HeedDb.getCheckpoint, htable, hm]
    exact hread
  · intro k
    rw [HeedDb.getCommittee, hcommittees]
    rfl

/-- The record that an authentic checkpoint stores is new, so the checkpoint is signed, and so is
a batch transfer whose record is new. -/
theorem fromCommittee_of_authentic (h : Numbered X db) (hstep : Commit X db e db')
    (hauth : Authentic X db (U, e) db') : FromCommittee X db (U, e) db' := by
  have hs := sound_of_reachable laws h.reachable
  cases hstep with
  | @checkpointSubnet ctx tx m saved hp hv hsave =>
    intro s hst
    obtain ⟨t, hm, -⟩ := hs.state laws hst
    obtain ⟨s', _, _, _, change, heq, -, hst', hdb⟩ :=
      checkpointedDb_of_commit (.checkpointSubnet hp hv hsave) ⟨ctx, tx, m, rfl, hm⟩
    cases heq
    rw [hm, hst'] at hst
    obtain rfl := Option.some.inj hst
    have hnumber := checkpointNumber_eq (m := m) db s' change ctx.blockHeight
      (X.computeTxid tx) hst'
    set record := m.checkpointRecord s' change ctx.blockHeight (X.computeTxid tx) with hrecord
    have hget : saved.1.getCheckpoint X (.fromTxid20 t) record.checkpointNumber = some record := by
      rw [hdb, getCheckpoint_checkpointedDb laws _ _ _ _ _ _ hm, if_pos ⟨rfl, rfl⟩]
    have hnew : db.getCheckpoint X (.fromTxid20 t) record.checkpointNumber ≠ some record := by
      intro hold
      exact absurd (h.numbered t _ _ hold) (by rw [hnumber]; exact lt_irrefl _)
    have hsigned := hauth.stored t _ _ hget hnew
    rw [hdb] at hsigned
    exact (signedBy_checkpoint laws (h.committee t) hm hst').mp hsigned
  | @batchTransfer ctx tx _ m saved _ _ hsave =>
    intro s number old hst hnumber hold hnew
    obtain ⟨t, hm, -⟩ := hs.state laws hst
    obtain ⟨hget, hcommittees⟩ := completed_of_batch laws hm hst hnumber hold hsave
    rw [hm] at hnew ⊢
    obtain ⟨c, hc, hspends⟩ := hauth.stored t _ _ hget hnew
    rw [hcommittees] at hc
    exact ⟨c, hc, hspends⟩
  | _ => trivial

/-- Another commit writes no record and changes nothing that has to be signed. -/
theorem authentic_of_fromCommittee (h : Numbered X db) (hstep : Commit X db e db')
    (hfrom : FromCommittee X db (U, e) db') : Authentic X db (U, e) db' := by
  have hs := sound_of_reachable laws h.reachable
  have hsigned : ∀ t, IsCheckpointOf t e → ∀ s, db.getSubnetState X (.fromTxid20 t) = some s →
      SignedBy X db' t s.committeeNumber (U, e) := by
    intro t hof s hst
    obtain ⟨s', ctx, tx, m, change, rfl, hm, hst', rfl⟩ := checkpointedDb_of_commit hstep hof
    rw [hst'] at hst
    obtain rfl := Option.some.inj hst
    exact (signedBy_checkpoint laws (h.committee t) hm hst').mpr (hfrom s' (hm ▸ hst'))
  refine ⟨?_, ?_, ?_, ?_⟩
  · intro t n r hget hnew
    obtain hold | ⟨ctx, tx, m, s, number, old, rfl, hm, hst, hnumber, hold, rfl, rfl⟩ |
        ⟨ctx, tx, m, s, change, he, hm, hst, -, rfl⟩ := stored_cases laws hs hstep hget
    · exact absurd hold hnew
    · cases hstep with
      | batchTransfer _ _ hsave =>
        rw [← hm] at hst hold hnew
        obtain ⟨c, hc, hspends⟩ := hfrom s number old hst hnumber hold hnew
        obtain ⟨-, hcommittees⟩ := completed_of_batch laws hm hst hnumber hold hsave
        rw [hm] at hc
        exact ⟨c, (hcommittees _).trans hc, hspends⟩
    · exact hsigned t ⟨ctx, tx, m, he, hm⟩ s hst
  · intro t s s' hst hst' hne
    by_cases hof : IsCheckpointOf t e
    · exact hsigned t hof s hst
    · exact absurd ((unchanged_of_other laws h hstep hof).1 s s' hst hst').1 hne
  · intro t n c c' hc hc' hne
    by_cases hof : IsCheckpointOf t e
    · obtain ⟨s, _, _, _, _, -, -, hst, -⟩ := checkpointedDb_of_commit hstep hof
      exact ⟨s, hst, hsigned t hof s hst⟩
    · rw [(unchanged_of_other laws h hstep hof).2 n c hc] at hc'
      exact absurd (Option.some.inj hc').symm hne
  · intro t s s' hst hst' halive hkilled
    by_cases hof : IsCheckpointOf t e
    · exact hsigned t hof s hst
    · have hold := ((unchanged_of_other laws h hstep hof).1 s s' hst hst').2 hkilled
      rw [halive] at hold
      cases hold

/-- A commit is authentic exactly when its transaction spends an output of the committee, if it is
a checkpoint or writes the record of one again. -/
theorem authentic_iff (h : Numbered X db) (hstep : Commit X db e db') :
    Authentic X db (U, e) db' ↔ FromCommittee X db (U, e) db' :=
  ⟨fromCommittee_of_authentic laws h hstep, authentic_of_fromCommittee laws h hstep⟩

/-- Along every chain, the checkpoints are authentic exactly when each transaction that is saved as
a checkpoint spends an output of the committee that is active then, and each one that is saved as a
batch transfer, with a record that is new, one of the committee that the record names. -/
theorem checkpoints_authentic_iff {txs : List (BlockContext × Transaction)}
    {l : List ((Unspent × Event) × HeedDb)} (hrun : UtxoTrail X cfg U HeedDb.empty txs l) :
    AllSteps (Authentic X) HeedDb.empty l ↔ AllSteps (FromCommittee X) HeedDb.empty l := by
  refine allSteps_iff (I := Numbered X) ?_ ?_ numbered_empty hrun.trail
  · intro db a db' hr hstep
    exact hr.commit laws hstep
  · intro db a db' hr hstep
    exact authentic_iff laws hr hstep

end Laws

open Solo

/-- The outputs of other people, and one of the committee. -/
def wallet : Unspent := fun o =>
  if o = ⟨bytes32 12, 0⟩ then some ⟨1000000, (address 10).scriptPubkey⟩
  else if o.vout = 0 ∧ o.txid ∈ [bytes32 10, bytes32 11, bytes32 19] then
    some ⟨1000000, backup.scriptPubkey⟩
  else none

def signedTxs : List Transaction := [createTx, joinTx 100000, checkpointTx 12 0]

/-- Only the last of the transactions is a checkpoint, and its committee has the address. None is a
batch transfer. -/
def OnlyLast (db : HeedDb) : Prop :=
  ∀ tx ∈ signedTxs,
    (IpcCheckpointSubnetMsg.fromCheckpointTx (library 10000 []) db tx).toOption.all
      (fun m => decide (tx = checkpointTx 12 0) &&
        (db.getSubnetState (library 10000 []) m.subnetId).all
          (fun s => decide (s.committee.multisigAddress = address 10))) ∧
    (IpcBatchTransferMsg.fromTx (library 10000 []) context.native context.erc db
      tx).toOption.isNone

instance (db : HeedDb) : Decidable (OnlyLast db) := by
  unfold OnlyLast
  infer_instance

instance (U : Unspent) (tx : Transaction) : Decidable (Spendable U tx) := by
  unfold Spendable IsCoinbase
  infer_instance

instance decidableSpendableChain (X : Library) :
    (U : Unspent) → (txs : List (BlockContext × Transaction)) → Decidable (SpendableChain X U txs)
  | _, [] => .isTrue trivial
  | U, a :: rest =>
    have := decidableSpendableChain X (U.after X a.2) rest
    inferInstanceAs (Decidable (_ ∧ _))

/-- The checkpoint that spends the output of the committee is authentic. -/
theorem checkpoints_authentic_of_signed_checkpoint : ∃ l,
    UtxoTrail (library 10000 []) ⟨none⟩ wallet HeedDb.empty
      (signedTxs.map (fun tx => (context, tx))) l ∧
    AllSteps (Authentic (library 10000 [])) HeedDb.empty l := by
  have hlaws : DisplayLaws (library 10000 []) := displayLaws_ideal _
  have hok : (run (library 10000 []) signedTxs).outcome.toOption = some () :=
    of_decide_eq_true (by decide +kernel)
  obtain ⟨l, hl, hc, -⟩ := exists_chainTrail ⟨none⟩ context signedTxs HeedDb.empty hok
  have hspendable : SpendableChain (library 10000 []) wallet
      (signedTxs.map (fun tx => (context, tx))) := of_decide_eq_true (by decide +kernel)
  obtain ⟨l', hl', rfl⟩ := exists_utxoTrail hl hspendable
  refine ⟨l', hl', (checkpoints_authentic_iff hlaws hl').mpr ?_⟩
  have hstores : ∀ db ∈ HeedDb.empty :: l'.map Prod.snd, OnlyLast db := by
    have hmap : l'.map Prod.snd = (run (library 10000 []) signedTxs).commits := by
      rw [← show _ = (run (library 10000 []) signedTxs).commits from hc, List.map_map]
      rfl
    rw [hmap]
    exact of_decide_eq_true (by decide +kernel)
  refine allSteps_of_trail (D := fun db _ _ => OnlyLast db) ?_ hl'.trail
    (allSteps_of_stores (fun _ _ _ h => h) hstores)
  rintro ⟨⟨V, e⟩, db'⟩ ha db hstep honly
  have hlisted : ∀ {ctx : BlockContext} {tx : Transaction} {m : IpcMessage},
      messageOf e = some (ctx, tx, m) → ctx = context ∧ tx ∈ signedTxs := by
    intro ctx tx m he
    obtain ⟨done, rest, htxs, -⟩ := hl'.label ha he
    have hpair : (ctx, tx) ∈ signedTxs.map (fun tx => (context, tx)) := by
      rw [htxs]
      simp
    obtain ⟨tx', htx', heq⟩ := List.mem_map.mp hpair
    obtain ⟨hctx, rfl⟩ := Prod.mk.inj heq
    exact ⟨hctx.symm, htx'⟩
  cases hstep with
  | @checkpointSubnet ctx tx m saved hparsed _ _ =>
    intro s hs
    obtain ⟨done, rest, htxs, rfl⟩ := hl'.label ha rfl
    have hlast := (honly tx (hlisted rfl).2).1
    rw [toOption_eq_some.mpr hparsed, Option.all_some, Bool.and_eq_true, hs, Option.all_some,
      decide_eq_true_iff, decide_eq_true_iff] at hlast
    obtain ⟨rfl, haddress⟩ := hlast
    have hdone : done = [(context, createTx), (context, joinTx 100000)] := by
      have hcreate : createTx ≠ checkpointTx 12 0 := by decide +kernel
      have hjoin : joinTx 100000 ≠ checkpointTx 12 0 := by decide +kernel
      match done with
      | [] => exact absurd (Prod.mk.inj (List.cons.inj htxs).1).2 hcreate
      | [_] => exact absurd (Prod.mk.inj (List.cons.inj (List.cons.inj htxs).2).1).2 hjoin
      | [_, _] =>
        obtain ⟨h₁, hrest⟩ := List.cons.inj htxs
        rw [← h₁, ← (List.cons.inj hrest).1]
      | _ :: _ :: _ :: more =>
        have hlength := congrArg List.length htxs
        simp [signedTxs] at hlength
    rw [haddress, hdone]
    exact ⟨_, List.mem_cons_self, ⟨1000000, (address 10).scriptPubkey⟩,
      of_decide_eq_true (by decide +kernel), rfl⟩
  | @batchTransfer ctx tx _ m saved hparsed _ _ =>
    obtain ⟨rfl, hmem⟩ := hlisted rfl
    have hnone := (honly tx hmem).2
    rw [toOption_eq_some.mpr hparsed] at hnone
    cases hnone
  | _ => trivial

/-- The trail of a transaction whose only message is a checkpoint. -/
theorem TransactionTrail.checkpoint {ctx : BlockContext} {tx : Transaction}
    {m : IpcCheckpointSubnetMsg} (hw : witnessMessages X tx = [])
    (hc : Commit X db (.message ctx tx (.checkpointSubnet m)) db')
    (hcommits : (processTransaction X cfg ctx tx db).commits = [db', db'.saveTransaction X tx]) :
    TransactionTrail X cfg ctx tx db [(.message ctx tx (.checkpointSubnet m), db'),
      (.transaction tx, db'.saveTransaction X tx)] where
  trail := ⟨hc, .transaction, trivial⟩
  commits := hcommits.symm
  once := by
    refine ⟨[.checkpointSubnet m], some (.checkpointSubnet m), rfl, ?_, ?_⟩
    · rintro a ⟨⟩
      rfl
    · rw [hw]
      exact .cons rfl .nil
  saved := by
    intro a ha t ht
    rcases List.mem_cons.mp ha with rfl | ha
    · cases ht
    · cases List.mem_singleton.mp ha
      exact (Option.some.inj ht).symm

/-- The kill checkpoint is processed on the database, and kills the subnet whose
committee has the address. -/
def KilledByOutsider (db : HeedDb) : Prop :=
  IpcCheckpointSubnetMsg.fromCheckpointTx killLibrary db killCheckpointTx = .ok killCheckpoint ∧
  killCheckpoint.validate = .ok () ∧
  (killCheckpoint.saveToDb killLibrary db context.blockHeight context.blockHash
    (killLibrary.computeTxid killCheckpointTx)).toOption.any (fun saved =>
      decide ((processTransaction killLibrary ⟨none⟩ context killCheckpointTx db).commits =
        [saved.1, saved.1.saveTransaction killLibrary killCheckpointTx]) &&
      (db.getSubnetState killLibrary (.fromTxid20 subnet)).any (fun s => !s.isKilled &&
        (saved.1.getSubnetState killLibrary (.fromTxid20 subnet)).any (·.isKilled) &&
        (saved.1.getCommittee killLibrary (.fromTxid20 subnet) s.committeeNumber).all
          (fun c => decide (c.multisigAddress = address 10)))) = true

instance (db : HeedDb) : Decidable (KilledByOutsider db) := by
  unfold KilledByOutsider
  infer_instance

/-- A transaction whose only input is of another person kills the subnet. -/
theorem outsider_kills_subnet :
    ¬ ∀ X : Library, DisplayLaws X → ∀ cfg U txs l, UtxoTrail X cfg U HeedDb.empty txs l →
      AllSteps (Authentic X) HeedDb.empty l := by
  intro hall
  have hlaws : DisplayLaws killLibrary := displayLaws_ideal _
  have hok : (run killLibrary [createTx, joinTx 100000]).outcome.toOption = some () :=
    of_decide_eq_true (by decide +kernel)
  obtain ⟨l, hl, hc, hlast⟩ := exists_chainTrail ⟨none⟩ context [createTx, joinTx 100000]
    HeedDb.empty hok
  have hspendable : SpendableChain killLibrary wallet
      ([createTx, joinTx 100000].map (fun tx => (context, tx))) :=
    of_decide_eq_true (by decide +kernel)
  obtain ⟨l', hl', rfl⟩ := exists_utxoTrail hl hspendable
  rw [lastStore_map (fun a : Unspent × Event => a.2)] at hlast
  have hkilled : KilledByOutsider (lastStore HeedDb.empty l') := by
    rw [hlast]
    exact of_decide_eq_true (by decide +kernel)
  obtain ⟨hparsed, hvalid, hsave⟩ := hkilled
  obtain ⟨saved, hsaved, hafter⟩ := (Option.any_eq_true _ _).mp hsave
  obtain ⟨hcommits, hstate⟩ := (Bool.and_eq_true _ _).mp hafter
  obtain ⟨s, hs, hchange⟩ := (Option.any_eq_true _ _).mp hstate
  simp only [Bool.and_eq_true, Bool.not_eq_true', Option.any_eq_true] at hchange
  obtain ⟨⟨halive, s', hs', hdead⟩, hcommittee⟩ := hchange
  have hcommit : Commit killLibrary (lastStore HeedDb.empty l')
      (.message context killCheckpointTx (.checkpointSubnet killCheckpoint)) saved.1 :=
    .checkpointSubnet hparsed hvalid (toOption_eq_some.mp hsaved)
  have htrail := hl'.snoc (of_decide_eq_true (by decide +kernel))
    (TransactionTrail.checkpoint rfl hcommit (of_decide_eq_true hcommits))
  have hauth := (allSteps_append.mp (hall _ hlaws _ _ _ _ htrail)).2.1
  -- the only input spends an output of another person
  obtain ⟨c, hc, i, hi, out, hout, hscript⟩ := hauth.killed subnet s s' hs hs' halive hdead
  rw [hc, Option.all_some, decide_eq_true_iff] at hcommittee
  obtain rfl := List.mem_singleton.mp hi
  have hother : (wallet.afterAll killLibrary
      ([createTx, joinTx 100000].map (fun tx => (context, tx)))) ⟨bytes32 19, 0⟩ =
        some ⟨1000000, backup.scriptPubkey⟩ := of_decide_eq_true (by decide +kernel)
  rw [hother] at hout
  obtain rfl := Option.some.inj hout
  rw [hcommittee] at hscript
  exact absurd hscript (by decide +kernel)

end Monitor
