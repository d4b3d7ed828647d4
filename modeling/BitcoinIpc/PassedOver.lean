import BitcoinIpc.RevealAcceptance

/-!
# Transactions that the monitor passes over

A message in the outputs is announced by the data that the first output pushes,
and by the number of the outputs. A transaction whose first output pays an
address carries too little data for all of them but the stake, which needs a
second output and a witness program as long as its data.
-/

namespace Monitor

open Faults Bytes Chain Messages Crates Multisig Db Grouping Commits OrderedTable Provider

theorem length_takeDirect {minimal : Bool} {n : Nat} {rest tail : Script} {data : List UInt8}
    (h : takeDirect minimal n rest = .ok (data, tail)) :
    data.length + tail.length ≤ rest.length := by
  unfold takeDirect at h
  split_ifs at h with hmin hshort
  cases h
  rw [List.length_take, List.length_drop]
  omega

theorem length_takePush {minimal : Bool} {width least : Nat} {rest tail : Script}
    {data : List UInt8} (h : takePush minimal width least rest = .ok (data, tail)) :
    data.length + tail.length ≤ rest.length := by
  unfold takePush at h
  dsimp only at h
  split_ifs at h with hwidth hmin hshort
  cases h
  simp only [List.length_take, List.length_drop]
  omega

/-- What is pushed stands first, or behind the first push. -/
theorem length_of_mem_pushed {n : Nat} {data d : List UInt8} {tail : Script}
    {l : List (Except ScriptError Instruction)} (hle : d.length + tail.length ≤ n)
    (ih : .ok (.pushBytes data) ∈ l → data.length ≤ tail.length)
    (h : .ok (.pushBytes data) ∈ (.ok (.pushBytes d) :: l : List (Except ScriptError Instruction))) :
    data.length ≤ n + 1 := by
  rcases List.mem_cons.mp h with heq | htail
  · cases heq
    omega
  · have hrest := ih htail
    omega

/-- What a script pushes is no longer than the script. -/
theorem length_of_mem_readInstructions {minimal : Bool} {fuel : Nat} {s : Script}
    {data : List UInt8} (h : .ok (.pushBytes data) ∈ readInstructions minimal fuel s) :
    data.length ≤ s.length := by
  induction fuel generalizing s with
  | zero => cases h
  | succ fuel ih =>
    cases s with
    | nil => cases h
    | cons b rest =>
      rw [readInstructions] at h
      dsimp only at h
      rw [List.length_cons]
      split_ifs at h with h1 h2 h3 h4
      · rcases hx : takeDirect minimal b.toNat rest with e | ⟨d, tail⟩ <;> rw [hx] at h
        · cases List.mem_singleton.mp h
        · exact length_of_mem_pushed (length_takeDirect hx) ih h
      · rcases hx : takePush minimal 1 76 rest with e | ⟨d, tail⟩ <;> rw [hx] at h
        · cases List.mem_singleton.mp h
        · exact length_of_mem_pushed (length_takePush hx) ih h
      · rcases hx : takePush minimal 2 0x100 rest with e | ⟨d, tail⟩ <;> rw [hx] at h
        · cases List.mem_singleton.mp h
        · exact length_of_mem_pushed (length_takePush hx) ih h
      · rcases hx : takePush minimal 4 0x10000 rest with e | ⟨d, tail⟩ <;> rw [hx] at h
        · cases List.mem_singleton.mp h
        · exact length_of_mem_pushed (length_takePush hx) ih h
      · rcases List.mem_cons.mp h with heq | htail
        · cases heq
        · have hrest := ih htail
          omega

theorem length_firstPush {s : Script} {data : List UInt8} (h : firstPush s = some data) :
    data.length ≤ s.length := by
  obtain ⟨i, hi, hdata⟩ := List.exists_of_findSome?_eq_some h
  rcases i with e | (pushed | code)
  · cases hdata
  · cases hdata
    exact length_of_mem_readInstructions hi
  · cases hdata

theorem length_of_isWitnessProgram {s : Script} (h : isWitnessProgram s = true) :
    s.length ≤ 42 := by
  match s, h with
  | _ :: _ :: program, h =>
    simp only [isWitnessProgram, Bool.and_eq_true, decide_eq_true_eq] at h
    have hle : program.length ≤ 40 := h.1.2
    simp only [List.length_cons]
    omega

theorem length_scriptPubkey (a : Address) : a.scriptPubkey.length ≤ 42 := by
  have hstandard := a.standard
  simp only [isStandardScript, Bool.or_eq_true] at hstandard
  rcases hstandard with (hp2pkh | hp2sh) | hwitness
  · simp only [isP2pkh, Bool.and_eq_true, beq_iff_eq] at hp2pkh
    omega
  · simp only [isP2sh, Bool.and_eq_true, beq_iff_eq] at hp2sh
    omega
  · exact length_of_isWitnessProgram hwitness

/-- The data of a witness program is empty for version zero, and the program otherwise. -/
theorem length_data_of_witness {s : Script} {data : List UInt8} (hs : isWitnessProgram s = true)
    (h : firstPush s = some data) : data.length = 0 ∨ data.length + 2 = s.length := by
  match s, hs with
  | version :: n :: program, hs =>
    simp only [isWitnessProgram, Bool.and_eq_true, Bool.or_eq_true, decide_eq_true_eq,
      beq_iff_eq] at hs
    obtain ⟨⟨⟨hn, htwo⟩, hle⟩, ⟨rfl, -⟩ | ⟨hlo, -⟩⟩ := hs
    · left
      simp [firstPush, instructionsMinimal, readInstructions, takeDirect] at h
      simp [← h]
    · right
      have hversion : 0x51 ≤ version.toNat := UInt8.le_iff_toNat_le.mp hlo
      have hop : ¬ version.toNat ≤ 0x4b := by omega
      have hlarge : version ≠ 0x4c ∧ version ≠ 0x4d ∧ version ≠ 0x4e := by
        refine ⟨?_, ?_, ?_⟩ <;> rintro rfl <;> exact absurd hversion (by decide)
      have hpush : n.toNat ≤ 0x4b := by omega
      have hone : n.toNat ≠ 1 := by omega
      have hlong : ¬ program.length < n.toNat := by omega
      simp [firstPush, instructionsMinimal, readInstructions, takeDirect, hop, hlarge, hpush,
        hone, hlong] at h
      simp [← h, hn]

/-- Of the data of an address only a witness program of that length is as long as 38 bytes. -/
theorem length_data_of_address {a : Address} {data : List UInt8}
    (h : firstPush a.scriptPubkey = some data) (hlen : data.length = ipcTagLength + 32) :
    a.scriptPubkey.length = 40 := by
  have hstandard := a.standard
  have hle := length_firstPush h
  simp only [ipcTagLength] at hlen
  simp only [isStandardScript, Bool.or_eq_true] at hstandard
  rcases hstandard with (hp2pkh | hp2sh) | hwitness
  · simp only [isP2pkh, Bool.and_eq_true, beq_iff_eq] at hp2pkh
    omega
  · simp only [isP2sh, Bool.and_eq_true, beq_iff_eq] at hp2sh
    omega
  · generalize a.scriptPubkey = s at h hwitness ⊢
    have hprogram := length_data_of_witness hwitness h
    omega

section Outputs

variable {X : Library} {tx : Transaction}

/-- The first output carries too little data for a message, and not the data of a stake unless it
is the only output. -/
def NoData (tx : Transaction) : Prop :=
  ∀ out data, tx.output[0]? = some out → firstPush out.scriptPubkey = some data →
    data.length ≤ 42 ∧ (tx.output.length < 2 ∨ data.length ≠ ipcTagLength + 32)

theorem noData_of_nil (h : tx.output = []) : NoData tx := by
  intro out data hout
  rw [h] at hout
  cases hout

/-- An address is paid first, and it is no witness program as long as the data of a stake. -/
theorem noData_of_pays {value : Amount} {a : Address} {rest : List TxOut}
    (h : tx.output = ⟨value, a.scriptPubkey⟩ :: rest) (ha : a.scriptPubkey.length ≠ 40) :
    NoData tx := by
  intro out data hout hdata
  rw [h] at hout
  cases hout
  exact ⟨(length_firstPush hdata).trans (length_scriptPubkey a),
    Or.inr (fun hlen => ha (length_data_of_address hdata hlen))⟩

theorem noData_of_p2tr {value : Amount} {k : FixedBytes 32} {rest : List TxOut}
    (h : tx.output = ⟨value, Address.p2trScript k⟩ :: rest) : NoData tx := by
  refine noData_of_pays (a := Address.p2tr k) h ?_
  have hlength : (Address.p2tr k).scriptPubkey.length = 34 := by
    simp [Address.p2tr, Address.p2trScript, k.length_eq]
  omega

theorem noData_of_address {value : Amount} {a : Address}
    (h : tx.output = [⟨value, a.scriptPubkey⟩]) : NoData tx := by
  intro out data hout hdata
  rw [h] at hout
  cases hout
  have hpush := length_firstPush hdata
  have hscript := length_scriptPubkey a
  refine ⟨hpush.trans hscript, Or.inl ?_⟩
  rw [h, List.length_singleton]
  omega

/-- The data of an announced message is longer than an address, or it is that of a stake. -/
theorem opReturnData_raise (h : NoData tx) (hne : tx.output ≠ []) {n : Nat}
    (hn : 42 < n ∨ (2 ≤ tx.output.length ∧ n = ipcTagLength + 32))
    (tag noData badLength : String) :
    ∃ e, opReturnData tag noData badLength n tx = raise e := by
  obtain ⟨out, rest, hout⟩ := List.exists_cons_of_ne_nil hne
  have hfirst : tx.output[0]? = some out := by rw [hout, List.getElem?_cons_zero]
  unfold opReturnData
  rw [index_eq_ok.mpr hfirst, ok_bind]
  cases hpush : firstPush out.scriptPubkey with
  | none => exact ⟨_, rfl⟩
  | some data =>
    obtain ⟨hshort, hkey⟩ := h out data hfirst hpush
    have hlen : data.length ≠ n := by omega
    have hdata : okOr (some data) (IpcLibError.msgParseError tag noData) = .ok data := rfl
    simp only [hdata, ok_bind, ensure_neg hlen]
    exact ⟨_, rfl⟩

theorem fundingFromTx_raise (h : NoData tx) (tag : String) :
    ∃ e, fundingFromTx tag tx = raise e := by
  by_cases htwo : 2 ≤ tx.output.length
  · have hne : tx.output ≠ [] := List.ne_nil_of_length_pos (by omega)
    unfold fundingFromTx
    rw [ensure_pos htwo, ok_bind]
    exact bind_raise _ (opReturnData_raise h hne (Or.inl (by decide)) _ _ _)
  · unfold fundingFromTx
    rw [ensure_neg htwo]
    exact ⟨_, rfl⟩

theorem taggedData_raise (h : NoData tx) {n : Nat} (hn : 42 < n ∨ n = ipcTagLength + 32)
    (tag tooFew : String) :
    ∃ e, taggedData tag tooFew n tx = raise e := by
  by_cases htwo : 2 ≤ tx.output.length
  · have hne : tx.output ≠ [] := List.ne_nil_of_length_pos (by omega)
    unfold taggedData
    rw [ensure_pos htwo, ok_bind]
    exact bind_raise _ (opReturnData_raise h hne (hn.imp_right (fun heq => ⟨htwo, heq⟩)) _ _ _)
  · unfold taggedData
    rw [ensure_neg htwo]
    exact ⟨_, rfl⟩

theorem fromCheckpointTx_raise (h : NoData tx) (db : HeedDb) :
    ∃ e, IpcCheckpointSubnetMsg.fromCheckpointTx X db tx = raise e := by
  unfold IpcCheckpointSubnetMsg.fromCheckpointTx
  by_cases hne : tx.output ≠ []
  · rw [ensure_pos hne, ok_bind]
    exact bind_raise _ (opReturnData_raise h hne (Or.inl (by decide)) _ _ _)
  · rw [ensure_neg hne]
    exact ⟨_, rfl⟩

/-- Without the data of a message only a batch in the witness is found. -/
theorem firstParsed_batch_of_noData {ε : Type} (ctx : BlockContext) (db : HeedDb) (h : NoData tx) :
    (firstParsed (outputParsers X ctx db tx) : Outcome ε _) =
      firstParsed [.batchTransfer <$> IpcBatchTransferMsg.fromTx X ctx.native ctx.erc db tx] := by
  have hprefund : ∃ e, IpcPrefundSubnetMsg.fromTx tx = raise e :=
    bind_raise _ (fundingFromTx_raise h _)
  have hfund : ∃ e, IpcFundSubnetMsg.fromTx tx = raise e :=
    bind_raise _ (fundingFromTx_raise h _)
  have hstake : ∃ e, IpcStakeCollateralMsg.fromTx X db tx = raise e :=
    bind_raise _ (taggedData_raise h (by decide) _ _)
  have hunstake : ∃ e, IpcUnstakeCollateralMsg.fromTx X db tx = raise e :=
    bind_raise _ (taggedData_raise h (by decide) _ _)
  have hkill : ∃ e, IpcKillSubnetMsg.fromTx X db tx = raise e :=
    bind_raise _ (taggedData_raise h (by decide) _ _)
  unfold outputParsers
  rw [firstParsed_raise (map_raise _ hprefund), firstParsed_raise (map_raise _ hfund),
    firstParsed_raise (map_raise _ (fromCheckpointTx_raise h db))]
  -- the parsers behind the batch decide only when it is passed over, and they fail too
  cases IpcBatchTransferMsg.fromTx X ctx.native ctx.erc db tx with
  | ok m => rfl
  | error e =>
    cases e with
    | panic => rfl
    | error e =>
      have hbatch : ∃ e', (raise e : Outcome IpcLibError IpcBatchTransferMsg) = raise e' := ⟨e, rfl⟩
      refine (firstParsed_raise (map_raise _ hbatch)).trans ?_
      rw [firstParsed_raise (map_raise _ hstake), firstParsed_raise (map_raise _ hunstake),
        firstParsed_raise (map_raise _ hkill)]
      rfl

/-- Without the data of a message, and without a batch in the witness, no parser finds one. -/
theorem firstParsed_of_noData {ε : Type} (ctx : BlockContext) (db : HeedDb) (h : NoData tx)
    (hbatch : ∃ e, IpcBatchTransferMsg.fromTx X ctx.native ctx.erc db tx = raise e) :
    (firstParsed (outputParsers X ctx db tx) : Outcome ε _) = .ok none := by
  rw [firstParsed_batch_of_noData ctx db h, firstParsed_raise (map_raise _ hbatch)]
  rfl

/-- A transaction with no message in its witnesses and no data in its outputs is passed over. -/
theorem processTransaction_of_noData (cfg : Config) (ctx : BlockContext) (hplain : Plain tx)
    (h : NoData tx) (db : HeedDb) :
    processTransaction X cfg ctx tx db = (pure () : MonitorProc Unit) db := by
  have hfound : (firstParsed (outputParsers X ctx db tx) : Outcome MonitorError _) = .ok none :=
    firstParsed_of_noData ctx db h (hplain.batchFromTx ctx.native ctx.erc db)
  rw [processTransaction_of_no_witness cfg ctx hplain.witnessMessages_eq]
  simp only [processOutputs, Proc.read_bind, hfound, Proc.lift_ok_bind]

end Outputs

end Monitor
