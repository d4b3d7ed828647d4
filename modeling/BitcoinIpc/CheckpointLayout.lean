import BitcoinIpc.Checkpoint
import Mathlib.Algebra.Order.BigOperators.Group.List

/-!
# The layout of a checkpoint transaction

What the builder of a checkpoint writes and what the parser reads. The builder
lays out metadata, withdrawals, batch, unstakes and change; the parser reads its
counters back and finds the withdrawals where they were put. The unstakes it
reads are the outputs right after the withdrawals.
-/

namespace Messages

open Faults Bytes Chain Crates Multisig Db Grouping

namespace IpcCheckpointSubnetMsg

variable {X : Library} {m : IpcCheckpointSubnetMsg}

theorem length_metadata (m : IpcCheckpointSubnetMsg) (id : Txid20) :
    (m.metadata id).length = dataLen := by
  simp only [metadata, List.length_append, id.length_eq, m.checkpointHash.length_eq,
    length_toLe, List.length_cons, List.length_nil]
  decide

theorem toNat_marker {n : Nat} (h : n ≤ 255) : (marker n).toNat = n := by
  simp only [marker, UInt8.toNat_ofNat']
  omega

theorem toNat_marker_min (n : Nat) : (marker n).toNat = min n 255 := by
  simp only [marker, UInt8.toNat_ofNat']
  omega

/-- The parts of the metadata, before and after each place that is read. -/
theorem slice_append_middle {ε α : Type} (a b c : List α) {lo hi : Nat} (hlo : a.length = lo)
    (hhi : lo + b.length = hi) : (slice (a ++ b ++ c) lo hi : Outcome ε (List α)) = .ok b := by
  subst hlo
  subst hhi
  rw [slice_of_le (by omega) (by simp)]
  simp

theorem index_append_middle {ε α : Type} (a c : List α) (b : α) {i : Nat} (hi : a.length = i) :
    (index (a ++ b :: c) i : Outcome ε α) = .ok b := by
  subst hi
  simp

/-- The fields the metadata of a message announces. -/
def announced (m : IpcCheckpointSubnetMsg) (id : Txid20) : Metadata :=
  ⟨.fromTxid20 id, m.checkpointHash, m.checkpointHeight, min m.withdrawals.length 255,
    min m.transfers.length 255, min m.unstakes.length 255, m.nextCommitteeConfigurationNumber,
    m.isKillCheckpoint⟩

/-- The bytes of the metadata before the counters. -/
def beforeMarkers (m : IpcCheckpointSubnetMsg) (id : Txid20) : List UInt8 :=
  tagBytes ipcCheckpointTag ++ id.bytes ++ m.checkpointHash.bytes ++
    toLe heightLen m.checkpointHeight

theorem length_beforeMarkers (m : IpcCheckpointSubnetMsg) (id : Txid20) :
    (m.beforeMarkers id).length = markersOffset := by
  have ltag : (tagBytes ipcCheckpointTag).length = 6 := by decide
  simp only [beforeMarkers, List.length_append, ltag, id.length_eq, m.checkpointHash.length_eq,
    length_toLe]
  rfl

def killedByte (m : IpcCheckpointSubnetMsg) : UInt8 := if m.isKillCheckpoint then 1 else 0

theorem killedByte_ne_zero (m : IpcCheckpointSubnetMsg) :
    (decide (m.killedByte ≠ 0) : Bool) = m.isKillCheckpoint := by
  rw [killedByte]
  cases m.isKillCheckpoint <;> decide

theorem metadata_eq (m : IpcCheckpointSubnetMsg) (id : Txid20) : m.metadata id =
    m.beforeMarkers id ++ marker m.withdrawals.length :: marker m.transfers.length ::
      marker m.unstakes.length ::
        (toLe committeeConfLen m.nextCommitteeConfigurationNumber ++ [m.killedByte]) := by
  simp [metadata, beforeMarkers, killedByte]

/-- The counters and the flag stand at the places they are read from. -/
theorem index_metadata {ε : Type} (m : IpcCheckpointSubnetMsg) (id : Txid20) :
    (index (m.metadata id) markersOffset : Outcome ε _) = .ok (marker m.withdrawals.length) ∧
    (index (m.metadata id) (markersOffset + 1) : Outcome ε _) =
      .ok (marker m.transfers.length) ∧
    (index (m.metadata id) (markersOffset + 2) : Outcome ε _) =
      .ok (marker m.unstakes.length) ∧
    (index (m.metadata id) killedOffset : Outcome ε _) = .ok m.killedByte := by
  have lhead := length_beforeMarkers m id
  have lconf : (toLe committeeConfLen m.nextCommitteeConfigurationNumber).length = 8 :=
    length_toLe _ _
  rw [metadata_eq]
  refine ⟨index_append_middle _ _ _ lhead, ?_, ?_, ?_⟩
  · rw [List.append_cons]
    exact index_append_middle _ _ _ (by rw [List.length_append, lhead]; rfl)
  · rw [List.append_cons, List.append_cons]
    exact index_append_middle _ _ _
      (by rw [List.length_append, List.length_append, lhead]; rfl)
  · rw [List.append_cons, List.append_cons, List.append_cons, ← List.append_assoc]
    refine index_append_middle _ [] _ ?_
    simp only [List.length_append, lhead, lconf]
    rfl

/-- The parser reads back the fields the builder wrote; the counters are saturated. -/
theorem parseMetadata_metadata (id : Txid20) (hh : m.checkpointHeight < 2 ^ 64)
    (hn : m.nextCommitteeConfigurationNumber < 2 ^ 64) :
    parseMetadata (m.metadata id) = .ok (m.announced id) := by
  set tag := tagBytes ipcCheckpointTag with htag
  set height := toLe heightLen m.checkpointHeight with hheight
  set conf := toLe committeeConfLen m.nextCommitteeConfigurationNumber with hconf
  set back : List UInt8 := [marker m.withdrawals.length, marker m.transfers.length,
    marker m.unstakes.length] with hback
  have hdata : m.metadata id =
      tag ++ (id.bytes ++ (m.checkpointHash.bytes ++ (height ++ (back ++ conf ++ [m.killedByte])))) := by
    simp [metadata, htag, hheight, hconf, hback, killedByte]
  have ltag : tag.length = 6 := by decide
  have lid := id.length_eq
  have lhash := m.checkpointHash.length_eq
  have lheight : height.length = 8 := length_toLe _ _
  have lconf : conf.length = 8 := length_toLe _ _
  have rtag : (slice (m.metadata id) 0 txidOffset : Outcome IpcLibError _) = .ok tag := by
    rw [hdata, ← List.nil_append tag]
    exact slice_append_middle [] tag _ rfl (by rw [ltag]; rfl)
  have rid : (slice (m.metadata id) txidOffset hashOffset : Outcome IpcLibError _) =
      .ok id.bytes := by
    rw [hdata, ← List.append_assoc]
    exact slice_append_middle tag id.bytes _ ltag (by rw [lid]; rfl)
  have rhash : (slice (m.metadata id) hashOffset heightOffset : Outcome IpcLibError _) =
      .ok m.checkpointHash.bytes := by
    rw [hdata, ← List.append_assoc, ← List.append_assoc]
    exact slice_append_middle (tag ++ id.bytes) m.checkpointHash.bytes _
      (by rw [List.length_append, ltag, lid]; rfl) (by rw [lhash]; rfl)
  have rheight : (slice (m.metadata id) heightOffset markersOffset : Outcome IpcLibError _) =
      .ok height := by
    rw [hdata, ← List.append_assoc, ← List.append_assoc, ← List.append_assoc]
    exact slice_append_middle (tag ++ id.bytes ++ m.checkpointHash.bytes) height _
      (by rw [List.length_append, List.length_append, ltag, lid, lhash]; rfl)
      (by rw [lheight]; rfl)
  have rconf : (slice (m.metadata id) committeeConfOffset killedOffset :
      Outcome IpcLibError _) = .ok conf := by
    have hparts : m.metadata id = (m.beforeMarkers id ++ back) ++ conf ++ [m.killedByte] := by
      rw [metadata_eq]
      simp [hback, hconf]
    rw [hparts]
    exact slice_append_middle (m.beforeMarkers id ++ back) conf [m.killedByte]
      (by rw [List.length_append, length_beforeMarkers]; rfl) (by rw [lconf]; rfl)
  obtain ⟨rw₁, rt, ru, rk⟩ := index_metadata (ε := IpcLibError) m id
  have vheight : fromLe height = m.checkpointHeight := fromLe_toLe_of_lt (by
    have : (256 : Nat) ^ heightLen = 2 ^ 64 := by decide
    omega)
  have vconf : fromLe conf = m.nextCommitteeConfigurationNumber := fromLe_toLe_of_lt (by
    have : (256 : Nat) ^ committeeConfLen = 2 ^ 64 := by decide
    omega)
  have hid : FixedBytes.ofList? 20 id.bytes = some id := FixedBytes.ofList?_bytes id
  have hhash : FixedBytes.ofList? 32 m.checkpointHash.bytes = some m.checkpointHash :=
    FixedBytes.ofList?_bytes _
  simp only [parseMetadata, rtag, rid, rhash, rheight, rw₁, rt, ru, rconf, rk, ok_bind,
    ensure_pos htag, hid, hhash, okOr, vheight, vconf, killedByte_ne_zero, announced, pure_eq,
    toNat_marker_min]

/-- The counters of the metadata, as a batch transfer reads them. -/
theorem extractMarkers_metadata (value : Amount) (id : Txid20) :
    extractMarkersFromMetadataTxOut ⟨value, makeOpReturnScript (m.metadata id)⟩ =
      .ok (marker m.withdrawals.length, marker m.transfers.length, marker m.unstakes.length,
        m.isKillCheckpoint) := by
  have hlen := length_metadata m id
  have hpush := firstPush_makeOpReturnScript (m.metadata id)
    (by rw [hlen]; decide) (by rw [hlen]; decide)
  obtain ⟨hw, ht, hu, hk⟩ := index_metadata (ε := IpcLibError) m id
  simp only [extractMarkersFromMetadataTxOut, hpush, okOr, ok_bind, ensure_pos hlen, hw, ht, hu,
    hk, killedByte_ne_zero, pure_eq]

/-- The outputs of a list of payments. -/
def withdrawalOut (w : IpcWithdrawal) : TxOut := ⟨w.amount, w.address.scriptPubkey⟩

def unstakeOut (u : IpcUnstake) : TxOut := ⟨u.amount, u.address.scriptPubkey⟩

/-- The output pays an address. -/
def PaysAddress (o : TxOut) : Prop := ∃ a, Address.fromScript o.scriptPubkey = some a

/-- The unstake an output is read as, if it pays the backup address of a validator. -/
def readUnstake (s : SubnetState) (o : TxOut) : Option IpcUnstake :=
  (Address.fromScript o.scriptPubkey).bind fun a =>
    (s.committee.validators.find? (fun v => v.backupAddress = a)).map
      (fun v => ⟨o.value, a, v.pubkey⟩)

/-- The outputs announced for the transfers, the commit output among them. -/
def transferOutputs (m : IpcCheckpointSubnetMsg) : Nat :=
  (if 0 < min m.transfers.length 255 then 1 else 0) + min m.transfers.length 255

/-- The message read from a transaction with the outputs `rest` after the withdrawals. -/
def readBack (m : IpcCheckpointSubnetMsg) (id : Txid20) (s : SubnetState) (rest : List TxOut) :
    IpcCheckpointSubnetMsg :=
  ⟨.fromTxid20 id, m.checkpointHash, m.checkpointHeight, m.nextCommitteeConfigurationNumber,
    m.withdrawals, [], [], [], [], (rest.take m.unstakes.length).filterMap (readUnstake s),
    if m.unstakes.length + m.transferOutputs < rest.length then
      rest.getLast?.bind (fun o => Address.fromScript o.scriptPubkey)
    else none,
    m.isKillCheckpoint⟩

theorem traverse_parseWithdrawal {l : List IpcWithdrawal}
    (h : ∀ w ∈ l, w.address.isValidForNetwork = true) :
    traverseList parseWithdrawal (l.map withdrawalOut) = .ok l := by
  induction l with
  | nil => rfl
  | cons w rest ih =>
    have hw : parseWithdrawal (withdrawalOut w) = .ok w := by
      simp [parseWithdrawal, withdrawalOut, okOr,
        Address.fromScript_scriptPubkey (h w List.mem_cons_self)]
    simp [traverseList, hw, ih (fun a ha => h a (List.mem_cons_of_mem w ha))]

theorem traverse_parseUnstake {s : SubnetState} {l : List TxOut} (h : ∀ o ∈ l, PaysAddress o) :
    traverseList (parseUnstake s) l = .ok (l.map (readUnstake s)) := by
  apply traverse_of_forall
  intro o ho
  obtain ⟨a, ha⟩ := h o ho
  simp [parseUnstake, readUnstake, ha, okOr]

theorem reduceOption_map {α β : Type} (f : α → Option β) (l : List α) :
    (l.map f).reduceOption = l.filterMap f := by
  change (l.map f).filterMap id = l.filterMap f
  rw [List.filterMap_map]
  rfl

theorem forEach_parseTransferOutput {l : List TxOut} (h : ∀ o ∈ l, PaysAddress o) :
    forEach l parseTransferOutput = .ok () := by
  rw [forEach_eq_ok]
  intro o ho
  obtain ⟨a, ha⟩ := h o ho
  simp [parseTransferOutput, ha, okOr]

section Parsing

variable {db : HeedDb} {s : SubnetState} {id : Txid20} {tx : Transaction} {value : Amount}
  {rest : List TxOut}

theorem opReturnData_metadata {noData badLength : String}
    (hout : tx.output = ⟨value, makeOpReturnScript (m.metadata id)⟩ :: rest) :
    opReturnData ipcCheckpointTag noData badLength dataLen tx = .ok (m.metadata id) := by
  have hlen := length_metadata m id
  have hpush := firstPush_makeOpReturnScript (m.metadata id)
    (by rw [hlen]; decide) (by rw [hlen]; decide)
  have hfirst : tx.output[0]? = some ⟨value, makeOpReturnScript (m.metadata id)⟩ := by
    rw [hout]
    rfl
  unfold opReturnData
  rw [index_eq_ok.mpr hfirst, ok_bind, okOr_eq_ok.mpr hpush, ok_bind, ensure_pos hlen]
  rfl

theorem parseChange_laidOut (outs : List TxOut) (expected : Nat)
    (hpays : ∀ o ∈ outs.tail, PaysAddress o) (hpos : 0 < expected) :
    parseChange outs expected = .ok (if expected < outs.length then
      outs.tail.getLast?.bind (fun o => Address.fromScript o.scriptPubkey) else none) := by
  unfold parseChange
  split_ifs with hlt
  · cases outs with
    | nil => simp at hlt
    | cons o tail =>
      have hne : tail ≠ [] := by
        rintro rfl
        simp at hlt
        omega
      obtain ⟨a, ha⟩ := hpays (tail.getLast hne) (by simp)
      have hidx : (o :: tail)[(o :: tail).length - 1]? = some (tail.getLast hne) := by
        rw [← List.getLast?_eq_getElem?, List.getLast?_cons, List.getLast?_eq_getLast_of_ne_nil hne]
        rfl
      simp only [List.tail_cons, List.getLast?_eq_getLast_of_ne_nil hne, Option.bind_some, ha]
      rw [index_eq_ok.mpr hidx]
      simp [okOr, ha]
  · rfl

theorem parseTransferOutput_slice {outs : List TxOut} {start n : Nat}
    (hpays : ∀ o ∈ outs.tail, PaysAddress o) (hpos : 0 < start) (hle : start + n ≤ outs.length) :
    ∃ l, (slice outs start (start + n) : Outcome IpcLibError (List TxOut)) = .ok l ∧
      forEach l parseTransferOutput = .ok () := by
  refine ⟨_, slice_of_le (by omega) hle, forEach_parseTransferOutput ?_⟩
  intro o ho
  have hdrop := List.mem_of_mem_take ho
  rw [← Nat.sub_add_cancel hpos, Nat.add_comm, ← List.drop_drop, List.drop_one] at hdrop
  exact hpays o (List.mem_of_mem_drop hdrop)

section LaidOut

variable (hout : tx.output = ⟨value, makeOpReturnScript (m.metadata id)⟩ ::
  (m.withdrawals.map withdrawalOut ++ rest))
include hout

theorem length_laidOut : tx.output.length = 1 + m.withdrawals.length + rest.length := by
  rw [hout, List.length_cons, List.length_append, List.length_map]
  omega

theorem pays_laidOut (hvalid : ∀ w ∈ m.withdrawals, w.address.isValidForNetwork = true)
    (hrest : ∀ o ∈ rest, PaysAddress o) : ∀ o ∈ tx.output.tail, PaysAddress o := by
  rw [hout, List.tail_cons]
  intro o ho
  rcases List.mem_append.mp ho with ho | ho
  · obtain ⟨w, hw, rfl⟩ := List.mem_map.mp ho
    exact ⟨w.address, Address.fromScript_scriptPubkey (hvalid w hw)⟩
  · exact hrest o ho

theorem slice_withdrawals :
    (slice tx.output 1 (1 + m.withdrawals.length) : Outcome IpcLibError (List TxOut)) =
      .ok (m.withdrawals.map withdrawalOut) := by
  rw [hout]
  exact slice_append_middle [_] _ rest rfl (by rw [List.length_map])

theorem slice_unstakes {u : Nat} (hle : u ≤ rest.length) :
    (slice tx.output (1 + m.withdrawals.length) (1 + m.withdrawals.length + u) :
      Outcome IpcLibError (List TxOut)) = .ok (rest.take u) := by
  rw [hout, ← List.take_append_drop u rest, ← List.append_assoc, ← List.cons_append,
    List.take_append_drop]
  refine slice_append_middle (_ :: m.withdrawals.map withdrawalOut) _ _ ?_ ?_
  · rw [List.length_cons, List.length_map]
    omega
  · rw [List.length_take]
    omega

/-- The last output is read as the change when there is one after those expected. -/
theorem parseChange_rest {n : Nat} (hpays : ∀ o ∈ tx.output.tail, PaysAddress o) :
    parseChange tx.output (1 + m.withdrawals.length + n) = .ok (if n < rest.length then
      rest.getLast?.bind (fun o => Address.fromScript o.scriptPubkey) else none) := by
  have hlen := length_laidOut hout
  rw [parseChange_laidOut tx.output _ hpays (by omega)]
  by_cases hlt : n < rest.length
  · have hnil : rest ≠ [] := by
      rintro rfl
      simp at hlt
    rw [if_pos (by omega), if_pos hlt, hout, List.tail_cons, List.getLast?_append,
      List.getLast?_eq_getLast_of_ne_nil hnil]
    rfl
  · rw [if_neg (by omega), if_neg hlt]

end LaidOut

/-- The parser reads the withdrawals as they were written, the outputs after them as
unstakes, and fails when the outputs do not suffice for its counters. -/
theorem fromCheckpointTx_laidOut
    (hout : tx.output = ⟨value, makeOpReturnScript (m.metadata id)⟩ ::
      (m.withdrawals.map withdrawalOut ++ rest))
    (hw : m.withdrawals.length ≤ 255) (hu : m.unstakes.length ≤ 255)
    (hh : m.checkpointHeight < 2 ^ 64) (hn : m.nextCommitteeConfigurationNumber < 2 ^ 64)
    (hvalid : ∀ w ∈ m.withdrawals, w.address.isValidForNetwork = true)
    (hrest : ∀ o ∈ rest, PaysAddress o)
    (hs : db.getSubnetState X (.fromTxid20 id) = some s) :
    fromCheckpointTx X db tx =
      if m.unstakes.length + m.transferOutputs ≤ rest.length then .ok (m.readBack id s rest)
      else raise (parseErr "Not enough outputs: got \x7b\x7d, expected at least \x7b\x7d") := by
  have hne : tx.output ≠ [] := by
    rw [hout]
    exact List.cons_ne_nil _ _
  have hN := length_laidOut hout
  have hpays := pays_laidOut hout hvalid hrest
  have hw' : min m.withdrawals.length 255 = m.withdrawals.length := by omega
  have hu' : min m.unstakes.length 255 = m.unstakes.length := by omega
  set t := min m.transfers.length 255 with ht
  have hexp : expectedOutputs m.withdrawals.length t m.unstakes.length =
      1 + m.withdrawals.length + (m.unstakes.length + m.transferOutputs) := by
    simp only [expectedOutputs, transferOutputs, ← ht]
    omega
  unfold fromCheckpointTx
  rw [ensure_pos hne, ok_bind, opReturnData_metadata hout, ok_bind,
    parseMetadata_metadata id hh hn, ok_bind]
  simp only [announced, hw', hu', ← ht, hexp]
  by_cases hle : m.unstakes.length + m.transferOutputs ≤ rest.length
  · rw [ensure_pos (by omega), ok_bind, okOr_eq_ok.mpr hs, ok_bind, if_pos hle,
      slice_withdrawals hout, ok_bind, traverse_parseWithdrawal hvalid, ok_bind,
      slice_unstakes hout (by omega), ok_bind,
      traverse_parseUnstake (fun o ho => hrest o (List.mem_of_mem_take ho)), ok_bind]
    have hchange := parseChange_rest (n := m.unstakes.length + m.transferOutputs) hout hpays
    by_cases htpos : 0 < t
    · have houtputs : m.transferOutputs = 1 + t := by
        simp only [transferOutputs, ← ht, if_pos htpos]
      obtain ⟨l, hslice, htransfers⟩ := parseTransferOutput_slice hpays
        (Nat.succ_pos (1 + m.withdrawals.length + m.unstakes.length)) (n := t) (by omega)
      rw [if_pos htpos, hslice, ok_bind, htransfers]
      simp only [pure_eq, ok_bind, hchange, reduceOption_map, readBack]
    · rw [if_neg htpos]
      simp only [pure_eq, ok_bind, hchange, reduceOption_map, readBack]
  · rw [ensure_neg (by omega), raise_bind, if_neg hle]

end Parsing

section Building

variable {keys : List WeightedKey} {threshold : Power} {changeAddress : Address}
  {unspent : List Utxo} {exhaust : Bool} {outs : List TxOut} {feeRate : FeeRate} {limit : Nat}

/-- A spending transaction has the outputs it was asked for and at most one more. -/
theorem constructSpendUnsignedTransaction_outputs {tx : Transaction}
    (h : constructSpendUnsignedTransaction X keys threshold changeAddress unspent exhaust outs
      feeRate limit = .ok tx) :
    ∃ change : Option TxOut, tx.output = outs ++ change.toList ∧
      ∀ o ∈ change, o.scriptPubkey = changeAddress.scriptPubkey ∧ o.value ≠ 0 := by
  unfold constructSpendUnsignedTransaction at h
  split_ifs at h
  · obtain ⟨_, -, h⟩ := bind_eq_ok.mp h
    obtain ⟨_, -, h⟩ := bind_eq_ok.mp h
    obtain ⟨_, -, h⟩ := bind_eq_ok.mp h
    obtain ⟨_, -, h⟩ := bind_eq_ok.mp h
    obtain ⟨_, -, h⟩ := bind_eq_ok.mp h
    obtain ⟨_, -, h⟩ := bind_eq_ok.mp h
    dsimp only at h
    split_ifs at h with hdust
    · cases h
      exact ⟨some _, rfl, fun o ho => by cases ho; exact ⟨rfl, Nat.ne_zero_of_lt hdust⟩⟩
    · cases h
      exact ⟨none, by simp [spendTransaction], fun o ho => by cases ho⟩
  · obtain ⟨_, -, h⟩ := bind_eq_ok.mp h
    obtain ⟨⟨selected, change⟩, hsel, h⟩ := bind_eq_ok.mp h
    cases h
    refine ⟨change, rfl, ?_⟩
    obtain ⟨⟨_, _⟩, -, hsel⟩ := bind_eq_ok.mp hsel
    obtain ⟨_, -, hsel⟩ := bind_eq_ok.mp hsel
    obtain ⟨_, -, hsel⟩ := bind_eq_ok.mp hsel
    obtain ⟨_, -, hsel⟩ := bind_eq_ok.mp hsel
    dsimp only at hsel
    split_ifs at hsel with hdust
    · cases hsel
      intro o ho
      cases ho
      exact ⟨rfl, Nat.ne_zero_of_lt hdust⟩
    · cases hsel
      intro o ho
      cases ho

theorem constructSpendPsbt_tx {subnetId : SubnetId} {psbt : Psbt}
    (h : constructSpendPsbt X subnetId keys threshold changeAddress unspent exhaust outs feeRate
      limit = .ok psbt) :
    constructSpendUnsignedTransaction X keys threshold changeAddress unspent exhaust outs feeRate
      limit = .ok psbt.unsignedTx := by
  obtain ⟨tx, htx, h⟩ := bind_eq_ok.mp h
  obtain ⟨_, -, h⟩ := bind_eq_ok.mp h
  obtain ⟨_, -, h⟩ := bind_eq_ok.mp h
  obtain ⟨_, -, h⟩ := bind_eq_ok.mp h
  cases h
  exact htx

end Building

theorem payment_eq_ok {ε : Type} {amount : Amount} {a : Address} {o : TxOut} :
    (payment amount a : Outcome ε TxOut) = .ok o ↔
      a.isValidForNetwork = true ∧ o = ⟨amount, a.scriptPubkey⟩ := by
  constructor
  · intro h
    obtain ⟨b, hb, h⟩ := bind_eq_ok.mp h
    obtain ⟨ha, rfl⟩ := Address.requireNetwork_eq_ok.mp hb
    exact ⟨ha, (Except.ok.inj h).symm⟩
  · rintro ⟨ha, rfl⟩
    rw [payment, Address.requireNetwork_eq_ok.mpr ⟨ha, rfl⟩]
    rfl

/-- A list of payments to valid addresses. -/
theorem traverse_payment {ε α : Type} {amount : α → Amount} {address : α → Address} {l : List α}
    {outs : List TxOut}
    (h : traverseList (fun a => payment (amount a) (address a) : α → Outcome ε TxOut) l = .ok outs) :
    outs = l.map (fun a => ⟨amount a, (address a).scriptPubkey⟩) ∧
      ∀ a ∈ l, (address a).isValidForNetwork = true := by
  induction l generalizing outs with
  | nil =>
    cases h
    exact ⟨rfl, fun a ha => by cases ha⟩
  | cons a rest ih =>
    obtain ⟨o, ho, h⟩ := bind_eq_ok.mp h
    obtain ⟨os, hos, h⟩ := bind_eq_ok.mp h
    cases h
    obtain ⟨rfl, hrest⟩ := ih hos
    obtain ⟨ha, rfl⟩ := payment_eq_ok.mp ho
    refine ⟨rfl, ?_⟩
    intro b hb
    rcases List.mem_cons.mp hb with rfl | hb
    · exact ha
    · exact hrest b hb

/-- The ids of the destinations of the native transfers. -/
def destinationIds (m : IpcCheckpointSubnetMsg) : List Txid20 :=
  (m.transfers.filterMap (fun t =>
    (t.destinationSubnetId.txid20 : Outcome IpcLibError Txid20).toOption)).dedup

/-- The script that commits to the data of the batch. -/
def commitScriptOf (X : Library) (data : List UInt8) : Script :=
  Address.p2trScript (X.taprootOutputKey (.leaf (makePushDataScript data)))

theorem transferEntries_eq_ok {l : List IpcCrossSubnetTransfer}
    {seen entries : List (Txid20 × Amount × Address)} (h : transferEntries seen l = .ok entries) :
    ∃ new, entries = seen ++ new ∧ List.Forall₂ (fun t e =>
      (t.destinationSubnetId.txid20 : Outcome IpcLibError Txid20) = .ok e.1 ∧
        t.amount = e.2.1 ∧ t.subnetMultisigAddress = some e.2.2) l new := by
  induction l generalizing seen with
  | nil =>
    cases h
    exact ⟨[], by simp, List.Forall₂.nil⟩
  | cons t rest ih =>
    obtain ⟨id, hid, h⟩ := bind_eq_ok.mp h
    obtain ⟨a, ha, h⟩ := bind_eq_ok.mp h
    obtain ⟨_, -, h⟩ := bind_eq_ok.mp h
    obtain ⟨new, rfl, hnew⟩ := ih h
    exact ⟨(id, t.amount, a) :: new, by simp,
      List.Forall₂.cons ⟨hid, rfl, okOr_eq_ok.mp ha⟩ hnew⟩

/-- The keys of related entries are the keys of the elements they come from. -/
theorem map_fst_eq_filterMap {ε α β κ : Type} {R : α → κ × β → Prop} {key : α → Outcome ε κ}
    (hkey : ∀ a b, R a b → key a = .ok b.1) {l : List α} {r : List (κ × β)}
    (h : List.Forall₂ R l r) : r.map Prod.fst = l.filterMap (fun a => (key a).toOption) := by
  induction h with
  | nil => rfl
  | cons hab _ ih =>
    rw [List.map_cons, List.filterMap_cons, hkey _ _ hab, ih]
    rfl

/-- The output of a destination pays an address, and something unless no transfer does. -/
theorem destinationOutput_eq_ok {ε : Type} {e : Txid20 × List (Amount × Address)} {o : TxOut}
    (h : (destinationOutput e : Outcome ε TxOut) = .ok o) :
    PaysAddress o ∧ ((∀ x ∈ e.2, x.1 ≠ 0) → o.value ≠ 0) := by
  obtain ⟨first, hfirst, h⟩ := bind_eq_ok.mp h
  obtain ⟨ha, rfl⟩ := payment_eq_ok.mp h
  refine ⟨⟨first.2, Address.fromScript_scriptPubkey ha⟩, ?_⟩
  intro hne hzero
  have hmem : first ∈ e.2 := List.mem_of_getElem? (index_eq_ok.mp hfirst)
  have hle := List.single_le_sum (fun _ _ => Nat.zero_le _) _ (List.mem_map_of_mem (f := Prod.fst) hmem)
  have hsum : (e.2.map Prod.fst).sum = 0 := hzero
  rw [hsum] at hle
  exact hne first hmem (Nat.le_zero.mp hle)

/-- What the batch of a message is laid out as: nothing, or the commit output and
one output for each destination. -/
inductive BatchLayout (X : Library) (m : IpcCheckpointSubnetMsg) (σ : MapOrders) :
    List TxOut → Prop
  | none : m.hasBatch = false → BatchLayout X m σ []
  | some {data commit dests} : m.hasBatch = true →
      m.makeBatchedTransferData X σ = .ok data → commit.scriptPubkey = commitScriptOf X data →
      dests.length = m.destinationIds.length → (∀ o ∈ dests, PaysAddress o) →
      ((∀ t ∈ m.transfers, t.amount ≠ 0) → ∀ o ∈ dests, o.value ≠ 0) →
      BatchLayout X m σ (commit :: dests)

theorem makeBatchedTransfer_eq_ok {σ : MapOrders} {feeRate : FeeRate} {a : Address}
    {made : TxOut × List (List UInt8) × TxOut}
    (h : m.makeBatchedTransfer X σ feeRate a = .ok made) :
    ∃ data, m.makeBatchedTransferData X σ = .ok data ∧
      made.1.scriptPubkey = commitScriptOf X data ∧
      made.2.1 = [makePushDataScript data, X.controlBlock (makePushDataScript data)] ∧
      made.2.2.scriptPubkey = a.scriptPubkey := by
  obtain ⟨data, hdata, h⟩ := bind_eq_ok.mp h
  obtain ⟨_, -, h⟩ := bind_eq_ok.mp h
  obtain ⟨_, -, h⟩ := bind_eq_ok.mp h
  cases h
  exact ⟨data, hdata, rfl, rfl, rfl⟩

theorem batchLayout_of_batchOutputs {σ : MapOrders} {committee : SubnetCommittee}
    {feeRate : FeeRate} {batch : List TxOut}
    (h : m.batchOutputs X σ committee feeRate = .ok batch) : BatchLayout X m σ batch := by
  unfold batchOutputs at h
  by_cases hb : m.hasBatch = true
  · rw [if_pos hb] at h
    obtain ⟨a, -, h⟩ := bind_eq_ok.mp h
    obtain ⟨⟨commit, _, _⟩, hmade, h⟩ := bind_eq_ok.mp h
    obtain ⟨entries, hentries, h⟩ := bind_eq_ok.mp h
    obtain ⟨outs, houts, h⟩ := bind_eq_ok.mp h
    cases h
    obtain ⟨data, hdata, hscript, -⟩ := makeBatchedTransfer_eq_ok hmade
    obtain ⟨new, hnew, hrel⟩ := transferEntries_eq_ok hentries
    rw [List.nil_append] at hnew
    subst hnew
    have hdest := traverse_eq_ok.mp houts
    have hout : ∀ o ∈ outs, ∃ e ∈ grouped σ.outputs entries,
        (destinationOutput e : Outcome IpcLibError TxOut) = .ok o :=
      fun o ho => exists_of_forall₂ hdest ho
    refine .some hb hdata hscript ?_ ?_ ?_
    · rw [← hdest.length_eq, length_grouped, keysOf,
        map_fst_eq_filterMap (fun _ _ hte => hte.1) hrel, destinationIds]
    · intro o ho
      obtain ⟨e, -, he⟩ := hout o ho
      exact (destinationOutput_eq_ok he).1
    · intro hne o ho
      obtain ⟨e, hmem, he⟩ := hout o ho
      refine (destinationOutput_eq_ok he).2 ?_
      intro x hx
      obtain ⟨k, -, rfl⟩ := List.mem_map.mp hmem
      obtain ⟨y, hy, rfl⟩ := List.mem_map.mp hx
      obtain ⟨t, ht, -, hamount, -⟩ := exists_of_forall₂ hrel (List.mem_of_mem_filter hy)
      rw [← hamount]
      exact hne t ht
  · rw [if_neg hb] at h
    cases h
    exact .none (by simpa using hb)

/-- The outputs pay the same scripts, and nothing less. -/
def Raised (l l' : List TxOut) : Prop :=
  List.Forall₂ (fun o o' => o'.scriptPubkey = o.scriptPubkey ∧ o.value ≤ o'.value) l l'

theorem Raised.refl (l : List TxOut) : Raised l l := by
  induction l with
  | nil => exact List.Forall₂.nil
  | cons o rest ih => exact List.Forall₂.cons ⟨rfl, le_refl _⟩ ih

/-- The leftover of a kill checkpoint is added to the unstakes. -/
theorem raised_shareChange {change total distributed : Amount} {us : List IpcUnstake}
    {outs outs' : List TxOut} (hlen : us.length = outs.length)
    (h : shareChange change total distributed us outs = .ok outs') : Raised outs outs' := by
  induction us generalizing distributed outs outs' with
  | nil =>
    cases outs with
    | nil =>
      cases h
      exact List.Forall₂.nil
    | cons o rest => simp at hlen
  | cons u us ih =>
    cases outs with
    | nil => simp at hlen
    | cons o rest =>
      cases us with
      | nil =>
        obtain ⟨a, -, h⟩ := bind_eq_ok.mp h
        obtain ⟨v, hv, h⟩ := bind_eq_ok.mp h
        obtain ⟨-, rfl⟩ := addAmount_eq_ok.mp hv
        cases h
        have hnil : rest = [] := List.length_eq_zero_iff.mp (by simpa using hlen.symm)
        rw [hnil]
        exact List.Forall₂.cons ⟨rfl, Nat.le_add_right _ _⟩ List.Forall₂.nil
      | cons u' us =>
        obtain ⟨v, hv, h⟩ := bind_eq_ok.mp h
        obtain ⟨d, -, h⟩ := bind_eq_ok.mp h
        obtain ⟨os, hos, h⟩ := bind_eq_ok.mp h
        obtain ⟨-, rfl⟩ := addAmount_eq_ok.mp hv
        cases h
        exact List.Forall₂.cons ⟨rfl, Nat.le_add_right _ _⟩ (ih (by simpa using hlen) hos)

theorem redistribute_eq_ok {change : Amount} {front us outs : List TxOut}
    (hlen : us.length = m.unstakes.length)
    (h : m.redistribute change (front ++ us) = .ok outs) :
    ∃ us', outs = front ++ us' ∧ Raised us us' := by
  obtain ⟨total, -, h⟩ := bind_eq_ok.mp h
  have hstart : (front ++ us).length - m.unstakes.length = front.length := by
    rw [List.length_append]
    omega
  dsimp only at h
  split_ifs at h
  · obtain ⟨shared, hshared, h⟩ := bind_eq_ok.mp h
    rw [hstart, List.drop_left] at hshared
    rw [hstart, List.take_left] at h
    cases h
    exact ⟨shared, rfl, raised_shareChange hlen.symm hshared⟩
  · cases h
    exact ⟨us, rfl, Raised.refl us⟩

/-- The metadata output of a message. -/
def metadataOut (X : Library) (m : IpcCheckpointSubnetMsg) (id : Txid20) (feeRate : FeeRate) :
    TxOut :=
  ⟨max (X.minimalNonDustCustom (makeOpReturnScript (m.metadata id)) feeRate)
    (X.minimalNonDust (makeOpReturnScript (m.metadata id))), makeOpReturnScript (m.metadata id)⟩

theorem checkpointOutputs_eq_ok {σ : MapOrders} {committee : SubnetCommittee}
    {feeRate : FeeRate} {outs : List TxOut}
    (h : m.checkpointOutputs X σ committee feeRate = .ok outs) :
    ∃ id batch, (m.subnetId.txid20 : Outcome IpcLibError Txid20) = .ok id ∧
      m.batchOutputs X σ committee feeRate = .ok batch ∧
      (∀ u ∈ m.unstakes, u.address.isValidForNetwork = true) ∧
      outs = metadataOut X m id feeRate :: (m.withdrawals.map withdrawalOut ++ batch) ++
        m.unstakes.map unstakeOut := by
  obtain ⟨first, hfirst, h⟩ := bind_eq_ok.mp h
  obtain ⟨ws, hws, h⟩ := bind_eq_ok.mp h
  obtain ⟨batch, hbatch, h⟩ := bind_eq_ok.mp h
  obtain ⟨us, hus, h⟩ := bind_eq_ok.mp h
  obtain ⟨id, hid, hfirst⟩ := bind_eq_ok.mp hfirst
  obtain ⟨rfl, -⟩ := traverse_payment hws
  obtain ⟨rfl, hvalid⟩ := traverse_payment hus
  cases hfirst
  cases h
  exact ⟨id, batch, hid, hbatch, hvalid, by
    rw [List.cons_append]
    rfl⟩

section Layout

variable (X) (m) (σ : MapOrders) (committee next : SubnetCommittee) (feeRate : FeeRate)
  (unspent : List Utxo)

/-- The transaction that spends the committee's outputs for the given ones. -/
def spendFor (outs : List TxOut) : Outcome IpcLibError Transaction :=
  mapErr .multisigError (constructSpendUnsignedTransaction X committee.validatorWeightedKeys
    committee.threshold next.multisigAddress unspent
    (!committee.sameAs next || m.isKillCheckpoint) outs feeRate checkpointConsolidationLimit)

/-- The outputs the transaction is built for, after the leftover of a kill checkpoint
is given to the unstakes. -/
def finalOutputs : Outcome IpcLibError (List TxOut) := do
  let outs ← m.checkpointOutputs X σ committee feeRate
  let tx ← spendFor X m committee next feeRate unspent outs
  let change := ((tx.output.find? (fun o =>
    o.scriptPubkey = next.multisigAddress.scriptPubkey)).map (·.value)).getD 0
  if m.isKillCheckpoint ∧ 0 < change ∧ m.unstakes ≠ [] then m.redistribute change outs
  else return outs

/-- Whether the coins selected for the outputs leave change above dust. -/
def leavesChange : Bool :=
  match (do
    let outs ← m.finalOutputs X σ committee next feeRate unspent
    let tx ← spendFor X m committee next feeRate unspent outs
    return decide (outs.length < tx.output.length) : Outcome IpcLibError Bool) with
  | .ok b => b
  | .error _ => false

variable {X m σ committee next feeRate unspent} {psbt : Psbt}

/-- A psbt is built for the final outputs. -/
theorem toCheckpointPsbt_eq_ok_iff :
    m.toCheckpointPsbt X σ committee next feeRate unspent = .ok psbt ↔
      next.multisigAddress.isValidForNetwork = true ∧
      ∃ outs, m.finalOutputs X σ committee next feeRate unspent = .ok outs ∧
        constructSpendPsbt X m.subnetId committee.validatorWeightedKeys committee.threshold
          next.multisigAddress unspent (!committee.sameAs next || m.isKillCheckpoint) outs feeRate
          checkpointConsolidationLimit = .ok psbt := by
  constructor
  · intro h
    obtain ⟨a, ha, h⟩ := bind_eq_ok.mp h
    obtain ⟨outs, houts, h⟩ := bind_eq_ok.mp h
    obtain ⟨tx, htx, h⟩ := bind_eq_ok.mp h
    obtain ⟨hvalid, rfl⟩ := Address.requireNetwork_eq_ok.mp ha
    have htx' : spendFor X m committee next feeRate unspent outs = .ok tx := htx
    rw [finalOutputs, houts, ok_bind, htx', ok_bind]
    dsimp only at h ⊢
    split_ifs at h with hkill
    · obtain ⟨shared, hshared, h⟩ := bind_eq_ok.mp h
      obtain ⟨_, -, h⟩ := bind_eq_ok.mp h
      rw [if_pos hkill]
      exact ⟨hvalid, shared, hshared, mapErr_eq_ok.mp h⟩
    · rw [if_neg hkill]
      exact ⟨hvalid, outs, rfl, mapErr_eq_ok.mp h⟩
  · rintro ⟨hvalid, final, hfinal, hpsbt⟩
    obtain ⟨outs, houts, hfinal⟩ := bind_eq_ok.mp hfinal
    obtain ⟨tx, htx, hfinal⟩ := bind_eq_ok.mp hfinal
    refine bind_eq_ok.mpr ⟨_, Address.requireNetwork_eq_ok.mpr ⟨hvalid, rfl⟩,
      bind_eq_ok.mpr ⟨outs, houts, bind_eq_ok.mpr ⟨tx, htx, ?_⟩⟩⟩
    dsimp only at hfinal ⊢
    split_ifs at hfinal with hkill
    · rw [if_pos hkill]
      exact bind_eq_ok.mpr ⟨final, hfinal, bind_eq_ok.mpr
        ⟨_, mapErr_eq_ok.mpr (constructSpendPsbt_tx hpsbt), mapErr_eq_ok.mpr hpsbt⟩⟩
    · rw [if_neg hkill, Except.ok.inj hfinal]
      exact mapErr_eq_ok.mpr hpsbt

theorem toCheckpointPsbt_eq_ok
    (h : m.toCheckpointPsbt X σ committee next feeRate unspent = .ok psbt) :
    ∃ outs, next.multisigAddress.isValidForNetwork = true ∧
      m.finalOutputs X σ committee next feeRate unspent = .ok outs ∧
      spendFor X m committee next feeRate unspent outs = .ok psbt.unsignedTx := by
  obtain ⟨hvalid, outs, houts, hpsbt⟩ := toCheckpointPsbt_eq_ok_iff.mp h
  exact ⟨outs, hvalid, houts, mapErr_eq_ok.mpr (constructSpendPsbt_tx hpsbt)⟩

/-- The outputs of a checkpoint transaction, from the first to the last. -/
theorem layout_of_toCheckpointPsbt
    (h : m.toCheckpointPsbt X σ committee next feeRate unspent = .ok psbt) :
    ∃ id batch us, ∃ change : Option TxOut,
      (m.subnetId.txid20 : Outcome IpcLibError Txid20) = .ok id ∧
      m.batchOutputs X σ committee feeRate = .ok batch ∧ Raised (m.unstakes.map unstakeOut) us ∧
      (m.isKillCheckpoint = false → us = m.unstakes.map unstakeOut) ∧
      (∀ u ∈ m.unstakes, u.address.isValidForNetwork = true) ∧
      (∀ o ∈ change, PaysAddress o ∧ o.scriptPubkey = next.multisigAddress.scriptPubkey ∧
        o.value ≠ 0) ∧
      change.isSome = m.leavesChange X σ committee next feeRate unspent ∧
      psbt.unsignedTx.output = metadataOut X m id feeRate ::
        (m.withdrawals.map withdrawalOut ++ (batch ++ us ++ change.toList)) := by
  obtain ⟨final, hvalid, hfinal, hspend⟩ := toCheckpointPsbt_eq_ok h
  obtain ⟨change, hout, hchange⟩ :=
    constructSpendUnsignedTransaction_outputs (mapErr_eq_ok.mp hspend)
  have hleaves : m.leavesChange X σ committee next feeRate unspent = change.isSome := by
    rw [leavesChange, hfinal, ok_bind, hspend, ok_bind, hout]
    cases change <;> simp
  obtain ⟨outs, houts, hrest⟩ := bind_eq_ok.mp hfinal
  obtain ⟨tx, -, hrest⟩ := bind_eq_ok.mp hrest
  obtain ⟨id, batch, hid, hbatch, hunstakes, rfl⟩ := checkpointOutputs_eq_ok houts
  have hus : ∃ us, final = metadataOut X m id feeRate ::
      (m.withdrawals.map withdrawalOut ++ batch) ++ us ∧
      Raised (m.unstakes.map unstakeOut) us ∧
      (m.isKillCheckpoint = false → us = m.unstakes.map unstakeOut) := by
    dsimp only at hrest
    split_ifs at hrest with hkill
    · obtain ⟨us', rfl, hraised⟩ := redistribute_eq_ok (List.length_map _) hrest
      exact ⟨us', rfl, hraised, fun hk => by simp [hk] at hkill⟩
    · cases hrest
      exact ⟨_, rfl, Raised.refl _, fun _ => rfl⟩
  obtain ⟨us, rfl, hraised, hsame⟩ := hus
  refine ⟨id, batch, us, change, hid, hbatch, hraised, hsame, hunstakes, ?_, hleaves.symm, ?_⟩
  · intro o ho
    obtain ⟨hscript, hvalue⟩ := hchange o ho
    exact ⟨⟨_, by rw [hscript]; exact Address.fromScript_scriptPubkey hvalid⟩, hscript, hvalue⟩
  · rw [hout]
    simp only [List.cons_append, List.append_assoc]

end Layout

end IpcCheckpointSubnetMsg

end Messages
