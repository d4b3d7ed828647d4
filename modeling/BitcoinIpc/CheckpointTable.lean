import BitcoinIpc.Authenticity
import BitcoinIpc.Reveals

/-!
# The table of checkpoints

Checkpoints and batch transfers write the same table under numbers that each
computes for itself. A checkpoint appends its record. A batch transfer writes the
last record again, under the number after the last, so that the table of a subnet
is intact along a run exactly when no batch transfer of the subnet is accepted.
-/

namespace Monitor

open Faults Bytes Chain Messages Crates Multisig Db Commits OrderedTable

variable (X : Library)

/-- The table of a subnet holds the numbers up to the last checkpoint, and each record
stands under its own number. -/
structure TableIntact (t : Txid20) (db : HeedDb) : Prop where
  dense : ∀ n, (∃ r, db.getCheckpoint X (.fromTxid20 t) n = some r) ↔ n < numberOfCheckpoints X db t
  numbered : ∀ n r, db.getCheckpoint X (.fromTxid20 t) n = some r → r.checkpointNumber = n

/-- What a commit has to leave: an intact table, the transaction ids of the checkpoints,
the batch transfers that were recorded, and the record of the checkpoint that a batch
transfer spends, as the only one that is changed by it. -/
structure KeepsTable (t : Txid20) (db : HeedDb) (e : Event) (db' : HeedDb) : Prop where
  intact : TableIntact X t db'
  txids : ∀ n r, db.getCheckpoint X (.fromTxid20 t) n = some r →
    ∃ r', db'.getCheckpoint X (.fromTxid20 t) n = some r' ∧ r'.txid = r.txid
  kept : ∀ n r, db.getCheckpoint X (.fromTxid20 t) n = some r → r.batchTransferTxid ≠ none →
    ∃ r', db'.getCheckpoint X (.fromTxid20 t) n = some r' ∧
      r'.batchTransferTxid = r.batchTransferTxid ∧
      r'.batchTransferBlockHeight = r.batchTransferBlockHeight
  revealed : ∀ ctx tx m, e = .message ctx tx (.batchTransfer m) → m.subnetId = .fromTxid20 t →
    ∃ n r, db'.getCheckpoint X (.fromTxid20 t) n = some r ∧ r.txid = m.checkpointTxid ∧
      r.batchTransferTxid = some (X.computeTxid tx) ∧
      r.batchTransferBlockHeight = some ctx.blockHeight ∧
      ∀ k, k ≠ n → db'.getCheckpoint X (.fromTxid20 t) k = db.getCheckpoint X (.fromTxid20 t) k

/-- The commit is not a batch transfer of the subnet. -/
def NoBatchOf (t : Txid20) (_ : HeedDb) (e : Event) (_ : HeedDb) : Prop :=
  ∀ ctx tx m, e = .message ctx tx (.batchTransfer m) → m.subnetId ≠ .fromTxid20 t

variable {X} {db db' : HeedDb} {e : Event} {t : Txid20}

section Laws

variable (laws : DisplayLaws X)
include laws

/-- Other commits leave the table of the subnet as it is. -/
theorem getCheckpoint_of_other (hs : Sound X db) (h : Commit X db e db')
    (hne : ¬ IsCheckpointOf t e) (hb : NoBatchOf t db e db') (n : Nat) :
    db'.getCheckpoint X (.fromTxid20 t) n = db.getCheckpoint X (.fromTxid20 t) n := by
  by_cases he : ∃ ctx tx m, e = .message ctx tx (.checkpointSubnet m)
  · obtain ⟨ctx, tx, m, rfl⟩ := he
    cases h with
    | checkpointSubnet _ _ hsave =>
      obtain ⟨s, change, hst, -, rfl⟩ := IpcCheckpointSubnetMsg.saveToDb_eq_ok hsave
      obtain ⟨u, hu, -⟩ := hs.state laws hst
      rw [getCheckpoint_checkpointedDb laws _ _ _ _ _ _ hu, if_neg]
      rintro ⟨rfl, -⟩
      exact hne ⟨ctx, tx, m, rfl, hu⟩
  · cases hbatch : batchOf e with
    | none =>
      rw [HeedDb.getCheckpoint, checkpointsDb_of_commit h hbatch
        (fun ctx tx m heq => he ⟨ctx, tx, m, heq⟩)]
      rfl
    | some m =>
      cases h with
      | @batchTransfer ctx tx _ _ _ _ _ hsave =>
        obtain ⟨s, number, old, hst, -, -, htable, -⟩ := batch_record hsave
        obtain ⟨u, hu, -⟩ := hs.state laws hst
        have hread := HeedDb.getCheckpoint_save db laws (.fromTxid20 u) (.fromTxid20 t)
          (completed old (originOf X ctx tx)) (number + 1) n
        rw [if_neg] at hread
        · rw [HeedDb.getCheckpoint, htable, hu]
          exact hread
        · rintro ⟨htu, -⟩
          exact hb _ _ _ rfl (hu.trans htu.symm)
      | _ => cases hbatch

/-- A checkpoint appends its record, and other commits keep the table. -/
theorem keepsTable_of_noBatch (hs : Sound X db) (h : Commit X db e db')
    (hintact : TableIntact X t db) (hb : NoBatchOf t db e db') : KeepsTable X t db e db' := by
  cases committeeStep_of_commit laws hs h t with
  | other hne hkeeps _ =>
    have hsame := getCheckpoint_of_other laws hs h
      (fun ⟨ctx, tx, m, he, hm⟩ => hne ctx tx m he hm) hb
    refine ⟨⟨?_, ?_⟩, ?_, ?_, ?_⟩
    · intro n
      rw [hsame, hkeeps.numberOfCheckpoints_eq]
      exact hintact.dense n
    · intro n r hr
      rw [hsame] at hr
      exact hintact.numbered n r hr
    · intro n r hr
      exact ⟨r, (hsame n).trans hr, rfl⟩
    · intro n r hr _
      exact ⟨r, (hsame n).trans hr, rfl, rfl⟩
    · intro ctx tx m he hm
      exact absurd hm (hb ctx tx m he)
  | @checkpoint ctx tx m s change hm hst _ =>
    have hread := getCheckpoint_checkpointedDb laws db s change ctx.blockHeight ctx.blockHash
      (X.computeTxid tx) hm t
    have hnumber := checkpointNumber_eq (m := m) db s change ctx.blockHeight (X.computeTxid tx) hst
    have hcount := numberOfCheckpoints_checkpointedDb laws db s change ctx.blockHeight
      ctx.blockHash (X.computeTxid tx) hm hst
    -- the records there were stand below the new number
    have hold : ∀ n r, db.getCheckpoint X (.fromTxid20 t) n = some r →
        (m.checkpointedDb X db s change ctx.blockHeight ctx.blockHash
          (X.computeTxid tx)).getCheckpoint X (.fromTxid20 t) n = some r := by
      intro n r hr
      rw [hread, if_neg]
      · exact hr
      · rintro ⟨-, rfl⟩
        have hlt := (hintact.dense _).mp ⟨r, hr⟩
        omega
    refine ⟨⟨?_, ?_⟩, ?_, ?_, ?_⟩
    · intro n
      rw [hread, hcount, hnumber]
      split_ifs with hn
      · exact iff_of_true ⟨_, rfl⟩ (by omega)
      · rw [hintact.dense n]
        simp only [true_and] at hn
        omega
    · intro n r hr
      rw [hread] at hr
      split_ifs at hr with hn
      · obtain rfl := Option.some.inj hr
        exact hn.2.symm
      · exact hintact.numbered n r hr
    · intro n r hr
      exact ⟨r, hold n r hr, rfl⟩
    · intro n r hr _
      exact ⟨r, hold n r hr, rfl, rfl⟩
    · intro ctx' tx' m' he
      cases he

/-- A batch transfer writes a record under a number that the subnet does not have. -/
theorem noBatch_of_keepsTable (hs : Sound X db) (h : Commit X db e db')
    (hkeeps : KeepsTable X t db e db') : NoBatchOf t db e db' := by
  rintro ctx tx m rfl hm
  have hcommit := h
  cases h with
  | batchTransfer _ _ hsave =>
    obtain ⟨s, number, record, hst, hlast, _, _, heq⟩ := IpcBatchTransferMsg.saveToDb_eq_ok hsave
    rw [hm] at hst
    have hread := HeedDb.getCheckpoint_save db laws (.fromTxid20 t) (.fromTxid20 t) record
      (number + 1) (number + 1)
    rw [if_pos ⟨rfl, rfl⟩] at hread
    have hstored := (hkeeps.intact.dense (number + 1)).mp ⟨record, by rw [heq, hm]; exact hread⟩
    cases committeeStep_of_commit laws hs hcommit t with
    | other _ hsame _ =>
      rw [hsame.numberOfCheckpoints_eq, numberOfCheckpoints, hst, Option.bind_some, hlast,
        Option.map_some, Option.getD_some] at hstored
      omega

omit laws in
theorem tableIntact_empty : TableIntact X t HeedDb.empty := by
  constructor
  · intro n
    refine iff_of_false ?_ (Nat.not_lt_zero n)
    rintro ⟨r, hr⟩
    cases hr
  · intro n r hr
    cases hr

/-- Along every run, the table of a subnet keeps its integrity exactly when no batch
transfer of the subnet is accepted. -/
theorem checkpoint_table_intact_iff {l : List (Event × HeedDb)}
    (hrun : Trail (Commit X) HeedDb.empty l) :
    AllSteps (KeepsTable X t) HeedDb.empty l ↔ AllSteps (NoBatchOf t) HeedDb.empty l := by
  have hsound : AllSteps (fun db _ _ => Sound X db) HeedDb.empty l :=
    invariant_before (C := fun _ _ _ => True) (fun _ _ _ hs hstep _ => hs.commit laws hstep)
      sound_empty hrun (allSteps_of_events (fun _ _ => trivial))
  constructor
  · intro h
    refine allSteps_of_trail ?_ hrun (allSteps_and hsound h)
    rintro a - db hstep ⟨hs, hkeeps⟩
    exact noBatch_of_keepsTable laws hs hstep hkeeps
  · intro h
    have hintact : AllSteps (fun db _ _ => Sound X db ∧ TableIntact X t db) HeedDb.empty l := by
      refine invariant_before (C := NoBatchOf t) ?_ ⟨sound_empty, tableIntact_empty⟩ hrun h
      rintro db e db' ⟨hs, hi⟩ hstep hb
      exact ⟨hs.commit laws hstep, (keepsTable_of_noBatch laws hs hstep hi hb).intact⟩
    refine allSteps_of_trail ?_ hrun (allSteps_and hintact h)
    rintro a - db hstep ⟨⟨hs, hi⟩, hb⟩
    exact keepsTable_of_noBatch laws hs hstep hi hb

end Laws

open Solo

def twoCheckpoints : List Transaction :=
  [createTx, joinTx 100000, checkpointTx 12 0, checkpointTx 13 0]

/-- No transaction of the list is read as a batch transfer. -/
def NoReveal (txs : List Transaction) (db : HeedDb) : Prop :=
  ∀ tx ∈ txs, (IpcBatchTransferMsg.fromTx (library 10000 []) context.native context.erc db
    tx).toOption = none

instance (txs : List Transaction) (db : HeedDb) : Decidable (NoReveal txs db) := by
  unfold NoReveal
  infer_instance

theorem checkpoint_table_intact_after_two : ∃ l, Trail (Commit (library 10000 [])) HeedDb.empty l ∧
    numberOfCheckpoints (library 10000 []) (lastStore HeedDb.empty l) subnet = 2 ∧
    AllSteps (KeepsTable (library 10000 []) subnet) HeedDb.empty l := by
  have hlaws : DisplayLaws (library 10000 []) := displayLaws_ideal _
  have hok : (run (library 10000 []) twoCheckpoints).outcome.toOption = some () :=
    of_decide_eq_true (by decide +kernel)
  obtain ⟨l, hl, hc, hlast⟩ := exists_chainTrail ⟨none⟩ context twoCheckpoints HeedDb.empty hok
  refine ⟨l, hl.trail, ?_, (checkpoint_table_intact_iff hlaws hl.trail).mpr ?_⟩
  · rw [hlast]
    decide +kernel
  · refine hl.allSteps (P := NoReveal twoCheckpoints) ?_ ?_
    · rintro db e db' hstep hno hmem ctx tx m rfl
      cases hstep with
      | @batchTransfer _ _ m₀ _ _ hparsed _ _ =>
        obtain ⟨tx', htx', heq⟩ := List.mem_map.mp (hmem _ rfl)
        obtain ⟨rfl, rfl⟩ := Prod.mk.inj heq
        have hsome : (IpcBatchTransferMsg.fromTx (library 10000 []) context.native context.erc db
          tx').toOption = some m₀ := toOption_eq_some.mpr hparsed
        rw [hno tx' htx'] at hsome
        cases hsome
    · rw [hc]
      exact of_decide_eq_true (by decide +kernel)

/-- A batch transfer is accepted, and its record stands under the next number. -/
theorem reveal_breaks_checkpoint_table :
    ¬ ∀ X : Library, DisplayLaws X → ∀ t l, Trail (Commit X) HeedDb.empty l →
      AllSteps (KeepsTable X t) HeedDb.empty l := by
  intro hall
  have hlaws : DisplayLaws revealLibrary := displayLaws_ideal _
  have haccepted : RevealAccepted [] := of_decide_eq_true (by decide +kernel)
  obtain ⟨l, db', hl, -, -⟩ := revealChain_trail haccepted
  have hkeeps := (allSteps_snoc.mp (hall revealLibrary hlaws subnet _ hl.trail)).2
  obtain ⟨htrail, hcommit⟩ := trail_snoc.mp hl.trail
  exact noBatch_of_keepsTable hlaws (sound_of_trail hlaws sound_empty htrail) hcommit hkeeps
    _ _ _ rfl rfl

end Monitor
