import BitcoinIpc.CheckpointLayout
import BitcoinIpc.IdealCrates

/-!
# Reading back a checkpoint

When a checkpoint transaction is read back as the message it was built from. The
builder puts one output for each destination subnet before the unstakes, while
the parser counts an output for each transfer and looks for the unstakes right
after the withdrawals. The two agree exactly when the announced outputs are
there and no batch stands before an unstake.
-/

namespace Messages

open Faults Bytes Chain Crates Multisig Db Grouping

namespace IpcCheckpointSubnetMsg

/-- The transaction is read back as a valid checkpoint with the same subnet, hash,
height, configuration, kill flag and withdrawals and, unless it kills the subnet,
the same unstakes. -/
def ReadsBack (X : Library) (db : HeedDb) (m : IpcCheckpointSubnetMsg) (tx : Transaction) : Prop :=
  ∃ m', fromCheckpointTx X db tx = .ok m' ∧ m'.validate = .ok () ∧ m'.subnetId = m.subnetId ∧
    m'.checkpointHash = m.checkpointHash ∧ m'.checkpointHeight = m.checkpointHeight ∧
    m'.nextCommitteeConfigurationNumber = m.nextCommitteeConfigurationNumber ∧
    m'.isKillCheckpoint = m.isKillCheckpoint ∧ m'.withdrawals = m.withdrawals ∧
    (m.isKillCheckpoint = false →
      m'.unstakes.map (fun u => (u.amount, u.address)) =
        m.unstakes.map (fun u => (u.amount, u.address)))

/-- The number of outputs laid out for the batch: the commit output and one for each
destination. -/
def batchLength (m : IpcCheckpointSubnetMsg) : Nat :=
  if m.hasBatch then 1 + m.destinationIds.length else 0

/-- The builder and the parser agree on the places of the outputs. -/
structure LaidOutAsRead (m : IpcCheckpointSubnetMsg) (change : Bool) : Prop where
  home : ∃ t, m.subnetId = .fromTxid20 t
  transfers : m.transferOutputs ≤ m.batchLength + change.toNat
  unstakes : m.isKillCheckpoint = false → m.unstakes = [] ∨ m.hasBatch = false
  kill : m.isKillCheckpoint = true → m.transferOutputs = m.batchLength + change.toNat

variable {X : Library} {m : IpcCheckpointSubnetMsg}

theorem ensurePayment_eq_ok {a b c : String} {amount : Amount} {address : Address} :
    ensurePayment a b c amount address = .ok () ↔
      amount ≠ 0 ∧ address.isValidForNetwork = true := by
  rw [ensurePayment, bind_eq_ok]
  simp only [ensure_eq_ok]
  constructor
  · rintro ⟨_, h₁, h₂⟩
    exact ⟨h₁, h₂⟩
  · rintro ⟨h₁, h₂⟩
    exact ⟨(), h₁, h₂⟩

/-- What a message that validates has. -/
structure Valid (m : IpcCheckpointSubnetMsg) : Prop where
  height : m.checkpointHeight ≠ 0
  unstakes_le : m.unstakes.length ≤ 255
  unstakes : ∀ u ∈ m.unstakes, u.amount ≠ 0 ∧ u.address.isValidForNetwork = true
  withdrawals_le : m.withdrawals.length ≤ 255
  withdrawals : ∀ w ∈ m.withdrawals, w.amount ≠ 0 ∧ w.address.isValidForNetwork = true
  transfers : ∀ t ∈ m.transfers, t.amount ≠ 0
  destinations_le : m.distinctDestinationSubnets.length ≤ 255
  change : ∀ a ∈ m.changeAddress, a.isValidForNetwork = true
  kill : ¬ (m.isKillCheckpoint = true ∧ m.changeAddress.isSome = true)

theorem validate_eq_ok : m.validate = .ok () ↔ m.Valid := by
  unfold validate
  constructor
  · intro h
    obtain ⟨_, h1, h⟩ := bind_eq_ok.mp h
    obtain ⟨_, h2, h⟩ := bind_eq_ok.mp h
    obtain ⟨_, h3, h⟩ := bind_eq_ok.mp h
    obtain ⟨_, h4, h⟩ := bind_eq_ok.mp h
    obtain ⟨_, h5, h⟩ := bind_eq_ok.mp h
    obtain ⟨_, h6, h⟩ := bind_eq_ok.mp h
    obtain ⟨_, h7, h⟩ := bind_eq_ok.mp h
    obtain ⟨_, h8, h⟩ := bind_eq_ok.mp h
    refine ⟨ensure_eq_ok.mp h1, ensure_eq_ok.mp h2, ?_, ensure_eq_ok.mp h4, ?_, ?_,
      ensure_eq_ok.mp h7, ?_, ensure_eq_ok.mp h⟩
    · exact fun u hu => ensurePayment_eq_ok.mp (forEach_eq_ok.mp h3 u hu)
    · exact fun w hw => ensurePayment_eq_ok.mp (forEach_eq_ok.mp h5 w hw)
    · exact fun t ht => ensure_eq_ok.mp (forEach_eq_ok.mp h6 t ht)
    · exact fun a ha => ensure_eq_ok.mp (forEach_eq_ok.mp h8 a (Option.mem_toList.mpr ha))
  · intro h
    refine bind_eq_ok.mpr ⟨(), ensure_pos h.height, ?_⟩
    refine bind_eq_ok.mpr ⟨(), ensure_pos h.unstakes_le, ?_⟩
    refine bind_eq_ok.mpr ⟨(), forEach_eq_ok.mpr
      (fun u hu => ensurePayment_eq_ok.mpr (h.unstakes u hu)), ?_⟩
    refine bind_eq_ok.mpr ⟨(), ensure_pos h.withdrawals_le, ?_⟩
    refine bind_eq_ok.mpr ⟨(), forEach_eq_ok.mpr
      (fun w hw => ensurePayment_eq_ok.mpr (h.withdrawals w hw)), ?_⟩
    refine bind_eq_ok.mpr ⟨(), forEach_eq_ok.mpr
      (fun t ht => ensure_pos (h.transfers t ht)), ?_⟩
    refine bind_eq_ok.mpr ⟨(), ensure_pos h.destinations_le, ?_⟩
    refine bind_eq_ok.mpr ⟨(), forEach_eq_ok.mpr
      (fun a ha => ensure_pos (h.change a (Option.mem_toList.mp ha))), ?_⟩
    exact ensure_pos h.kill

theorem readUnstake_eq_some {s : SubnetState} {o : TxOut} {u : IpcUnstake}
    (h : readUnstake s o = some u) :
    u.amount = o.value ∧ u.address.isValidForNetwork = true ∧
      ∃ v ∈ s.committee.validators, v.backupAddress.scriptPubkey = o.scriptPubkey := by
  obtain ⟨a, ha, h⟩ := Option.bind_eq_some_iff.mp h
  obtain ⟨v, hv, rfl⟩ := Option.map_eq_some_iff.mp h
  obtain ⟨hscript, hvalid⟩ := Address.fromScript_eq_some ha
  have hback : v.backupAddress = a := by simpa using List.find?_some hv
  exact ⟨rfl, hvalid, v, List.mem_of_find?_eq_some hv, by rw [hback, hscript]⟩

theorem readUnstake_unstakeOut {s : SubnetState} {u : IpcUnstake}
    (hvalid : u.address.isValidForNetwork = true)
    (hback : ∃ v ∈ s.committee.validators, v.backupAddress = u.address) :
    ∃ u', readUnstake s (unstakeOut u) = some u' ∧ u'.amount = u.amount ∧
      u'.address = u.address := by
  have hfind : (s.committee.validators.find? (fun v => v.backupAddress = u.address)).isSome := by
    rw [List.find?_isSome]
    obtain ⟨v, hv, heq⟩ := hback
    exact ⟨v, hv, by simpa using heq⟩
  obtain ⟨v, hv⟩ := Option.isSome_iff_exists.mp hfind
  refine ⟨⟨u.amount, u.address, v.pubkey⟩, ?_, rfl, rfl⟩
  simp [readUnstake, unstakeOut, Address.fromScript_scriptPubkey hvalid, hv]

/-- Unstakes that pay backup addresses are read back as they are. -/
theorem filterMap_unstakeOut {s : SubnetState} {us : List IpcUnstake}
    (hvalid : ∀ u ∈ us, u.address.isValidForNetwork = true)
    (hback : ∀ u ∈ us, ∃ v ∈ s.committee.validators, v.backupAddress = u.address) :
    ((us.map unstakeOut).filterMap (readUnstake s)).map (fun u => (u.amount, u.address)) =
      us.map (fun u => (u.amount, u.address)) := by
  induction us with
  | nil => rfl
  | cons u rest ih =>
    obtain ⟨u', hu', hamount, haddress⟩ := readUnstake_unstakeOut
      (hvalid u List.mem_cons_self) (hback u List.mem_cons_self)
    have hrest := ih (fun a ha => hvalid a (List.mem_cons_of_mem u ha))
      (fun a ha => hback a (List.mem_cons_of_mem u ha))
    rw [List.map_cons, List.filterMap_cons, hu', List.map_cons, List.map_cons, hrest, hamount,
      haddress]

/-- A batch in front hides an unstake: the commit output is no validator's. -/
theorem length_filterMap_commit {s : SubnetState} {commit : TxOut} (rest : List TxOut) {n : Nat}
    (hcommit : readUnstake s commit = none) (hn : 0 < n) :
    (((commit :: rest).take n).filterMap (readUnstake s)).length < n := by
  obtain ⟨k, rfl⟩ := Nat.exists_eq_succ_of_ne_zero (by omega : n ≠ 0)
  rw [List.take_succ_cons, List.filterMap_cons_none hcommit]
  have h1 := List.length_filterMap_le (readUnstake s) (rest.take k)
  have h2 := List.length_take_le k rest
  omega

theorem parseMetadata_subnetId {data : List UInt8} {d : Metadata}
    (h : parseMetadata data = .ok d) : ∃ t, d.subnetId = .fromTxid20 t := by
  obtain ⟨_, -, h⟩ := bind_eq_ok.mp h
  obtain ⟨_, -, h⟩ := bind_eq_ok.mp h
  obtain ⟨_, -, h⟩ := bind_eq_ok.mp h
  obtain ⟨id, -, h⟩ := bind_eq_ok.mp h
  obtain ⟨_, -, h⟩ := bind_eq_ok.mp h
  obtain ⟨_, -, h⟩ := bind_eq_ok.mp h
  obtain ⟨_, -, h⟩ := bind_eq_ok.mp h
  obtain ⟨_, -, h⟩ := bind_eq_ok.mp h
  obtain ⟨_, -, h⟩ := bind_eq_ok.mp h
  obtain ⟨_, -, h⟩ := bind_eq_ok.mp h
  obtain ⟨_, -, h⟩ := bind_eq_ok.mp h
  obtain ⟨_, -, h⟩ := bind_eq_ok.mp h
  cases h
  exact ⟨id, rfl⟩

/-- The fields that a message takes from the metadata. -/
theorem fromCheckpointTx_fields {db : HeedDb} {tx : Transaction} {m' : IpcCheckpointSubnetMsg}
    (h : fromCheckpointTx X db tx = .ok m') :
    ∃ data d, opReturnData ipcCheckpointTag "First output must be OP_RETURN with pushdata"
        "OP_RETURN data length mismatch: got \x7b\x7d, expected \x7b\x7d" dataLen tx = .ok data ∧
      parseMetadata data = .ok d ∧ m'.subnetId = d.subnetId ∧
      m'.nextCommitteeConfigurationNumber = d.nextCommitteeConfigurationNumber ∧
      m'.isKillCheckpoint = d.killed := by
  obtain ⟨_, -, h⟩ := bind_eq_ok.mp h
  obtain ⟨data, hdata, h⟩ := bind_eq_ok.mp h
  obtain ⟨d, hd, h⟩ := bind_eq_ok.mp h
  obtain ⟨_, -, h⟩ := bind_eq_ok.mp h
  obtain ⟨_, -, h⟩ := bind_eq_ok.mp h
  obtain ⟨_, -, h⟩ := bind_eq_ok.mp h
  obtain ⟨_, -, h⟩ := bind_eq_ok.mp h
  obtain ⟨_, -, h⟩ := bind_eq_ok.mp h
  obtain ⟨_, -, h⟩ := bind_eq_ok.mp h
  refine ⟨data, d, hdata, hd, ?_⟩
  dsimp only at h
  split_ifs at h
  · obtain ⟨_, -, h⟩ := bind_eq_ok.mp h
    obtain ⟨_, -, h⟩ := bind_eq_ok.mp h
    obtain ⟨_, -, h⟩ := bind_eq_ok.mp h
    cases h
    exact ⟨rfl, rfl, rfl⟩
  · obtain ⟨_, -, h⟩ := bind_eq_ok.mp h
    cases h
    exact ⟨rfl, rfl, rfl⟩

/-- The parser gives every message a subnet of the parent chain. -/
theorem fromCheckpointTx_subnetId {db : HeedDb} {tx : Transaction} {m' : IpcCheckpointSubnetMsg}
    (h : fromCheckpointTx X db tx = .ok m') : ∃ t, m'.subnetId = .fromTxid20 t := by
  obtain ⟨data, d, -, hd, hsub, -, -⟩ := fromCheckpointTx_fields h
  rw [hsub]
  exact parseMetadata_subnetId hd

theorem txid20_eq_of_home {id t : Txid20}
    (hid : (m.subnetId.txid20 : Outcome IpcLibError Txid20) = .ok id)
    (ht : m.subnetId = .fromTxid20 t) : m.subnetId = .fromTxid20 id := by
  rw [ht, SubnetId.txid20_fromTxid20] at hid
  rw [ht, Except.ok.inj hid]

theorem length_batch {σ : MapOrders} {batch : List TxOut} (h : BatchLayout X m σ batch) :
    batch.length = m.batchLength := by
  cases h with
  | none hb => simp [batchLength, hb]
  | some hb _ _ hlen =>
    rw [List.length_cons, hlen, batchLength, if_pos hb]
    omega

section RoundTrip

variable {db : HeedDb} {s : SubnetState} {σ : MapOrders} {id : Txid20}
  {batch us : List TxOut} {change : Option TxOut}

/-- No validator's backup address is the address of the commit script. -/
def CommitUnowned (X : Library) (m : IpcCheckpointSubnetMsg) (σ : MapOrders) (s : SubnetState) :
    Prop :=
  ∀ data, m.makeBatchedTransferData X σ = .ok data →
    ∀ v ∈ s.committee.validators, v.backupAddress.scriptPubkey ≠ commitScriptOf X data

theorem readUnstake_commit {commit : TxOut} {data : List UInt8} (hun : CommitUnowned X m σ s)
    (hdata : m.makeBatchedTransferData X σ = .ok data)
    (hscript : commit.scriptPubkey = commitScriptOf X data) : readUnstake s commit = none := by
  cases hr : readUnstake s commit with
  | none => rfl
  | some u =>
    obtain ⟨-, -, v, hv, heq⟩ := readUnstake_eq_some hr
    exact absurd (heq.trans hscript) (hun data hdata v hv)

/-- What is read as an unstake is a payment of the batch or of the unstakes. -/
theorem readBack_unstakes_valid (hv : m.Valid) (hun : CommitUnowned X m σ s)
    (hbatch : BatchLayout X m σ batch) (hraised : Raised (m.unstakes.map unstakeOut) us)
    {u : IpcUnstake}
    (hu : u ∈ ((batch ++ us ++ change.toList).take m.unstakes.length).filterMap
      (readUnstake s)) : u.amount ≠ 0 ∧ u.address.isValidForNetwork = true := by
  obtain ⟨o, ho, hr⟩ := List.mem_filterMap.mp hu
  obtain ⟨hamount, hvalid, -⟩ := readUnstake_eq_some hr
  refine ⟨?_, hvalid⟩
  have hlen : us.length = m.unstakes.length := by
    rw [← List.Forall₂.length_eq hraised, List.length_map]
  rw [List.take_append_of_le_length (by rw [List.length_append]; omega)] at ho
  rw [hamount]
  rcases List.mem_append.mp (List.mem_of_mem_take ho) with ho | ho
  · cases hbatch with
    | none => cases ho
    | some hb hdata hscript _ _ hne =>
      rcases List.mem_cons.mp ho with rfl | ho
      · rw [readUnstake_commit hun hdata hscript] at hr
        cases hr
      · exact hne hv.transfers o ho
  · obtain ⟨o', ho', -, hle⟩ := exists_of_forall₂ hraised ho
    obtain ⟨u', hu', rfl⟩ := List.mem_map.mp ho'
    have hpos := (hv.unstakes u' hu').1
    have hle' : u'.amount ≤ o.value := hle
    intro hzero
    rw [hzero] at hle'
    exact hpos (Nat.le_zero.mp hle')

theorem length_rest (change : Option TxOut) (hbatch : BatchLayout X m σ batch)
    (hraised : Raised (m.unstakes.map unstakeOut) us) :
    (batch ++ us ++ change.toList).length =
      m.batchLength + m.unstakes.length + change.isSome.toNat := by
  have hlen : us.length = m.unstakes.length := by
    rw [← List.Forall₂.length_eq hraised, List.length_map]
  rw [List.length_append, List.length_append, length_batch hbatch, hlen]
  cases change <;> rfl

/-- Every output after the withdrawals pays an address. -/
theorem paysAddress_rest (hbatch : BatchLayout X m σ batch)
    (hraised : Raised (m.unstakes.map unstakeOut) us)
    (haddr : ∀ u ∈ m.unstakes, u.address.isValidForNetwork = true)
    (hchange : ∀ o ∈ change, PaysAddress o) :
    ∀ o ∈ batch ++ us ++ change.toList, PaysAddress o := by
  intro o ho
  rcases List.mem_append.mp ho with ho | ho
  · rcases List.mem_append.mp ho with ho | ho
    · cases hbatch with
      | none => cases ho
      | some _ _ hscript _ hpays _ =>
        rcases List.mem_cons.mp ho with rfl | ho
        · exact ⟨_, by rw [hscript]; exact Address.fromScript_p2trScript _⟩
        · exact hpays o ho
    · obtain ⟨o', ho', hscript, -⟩ := exists_of_forall₂ hraised ho
      obtain ⟨u, hu, rfl⟩ := List.mem_map.mp ho'
      exact ⟨u.address, by rw [hscript]; exact Address.fromScript_scriptPubkey (haddr u hu)⟩
  · exact hchange o (Option.mem_toList.mp ho)

/-- An address of change is read exactly when outputs are left over. -/
theorem readBack_change (m : IpcCheckpointSubnetMsg) (id : Txid20) (s : SubnetState)
    {rest : List TxOut} (hpays : ∀ o ∈ rest, PaysAddress o) :
    (∀ a ∈ (m.readBack id s rest).changeAddress, a.isValidForNetwork = true) ∧
      ((m.readBack id s rest).changeAddress.isSome = true ↔
        m.unstakes.length + m.transferOutputs < rest.length) := by
  simp only [readBack]
  split_ifs with hlt
  · have hne : rest ≠ [] := by
      rintro rfl
      simp at hlt
    obtain ⟨a, ha⟩ := hpays (rest.getLast hne) (List.getLast_mem hne)
    rw [List.getLast?_eq_getLast_of_ne_nil hne, Option.bind_some, ha]
    refine ⟨?_, by simp [hlt]⟩
    intro b hb
    cases hb
    exact (Address.fromScript_eq_some ha).2
  · exact ⟨fun a ha => (by cases ha), by simp [hlt]⟩

/-- The message read back is valid unless it is a kill checkpoint with outputs left. -/
theorem readBack_validate_iff (hv : m.Valid) (hun : CommitUnowned X m σ s)
    (hbatch : BatchLayout X m σ batch) (hraised : Raised (m.unstakes.map unstakeOut) us)
    (hpays : ∀ o ∈ batch ++ us ++ change.toList, PaysAddress o)
    (hle : m.transferOutputs ≤ m.batchLength + change.isSome.toNat) :
    (m.readBack id s (batch ++ us ++ change.toList)).validate = .ok () ↔
      (m.isKillCheckpoint = true →
        m.transferOutputs = m.batchLength + change.isSome.toNat) := by
  have hlen := length_rest change hbatch hraised
  obtain ⟨hchange, hsome⟩ := readBack_change m id s hpays
  rw [hlen] at hsome
  rw [validate_eq_ok]
  constructor
  · intro h hkill
    have hno : ¬ (m.readBack id s (batch ++ us ++ change.toList)).changeAddress.isSome = true :=
      fun hs => h.kill ⟨hkill, hs⟩
    rw [hsome] at hno
    omega
  · intro hkill
    refine ⟨hv.height, ?_, ?_, hv.withdrawals_le, hv.withdrawals, ?_, ?_, hchange, ?_⟩
    · have h1 := List.length_filterMap_le (readUnstake s)
        ((batch ++ us ++ change.toList).take m.unstakes.length)
      have h2 := List.length_take_le m.unstakes.length (batch ++ us ++ change.toList)
      exact le_trans (le_trans h1 h2) hv.unstakes_le
    · exact fun u hu => readBack_unstakes_valid hv hun hbatch hraised hu
    · intro t ht
      cases ht
    · exact Nat.zero_le _
    · rintro ⟨hk, hs⟩
      have := hkill hk
      rw [hsome] at hs
      omega

/-- Unless there is both a batch and an unstake, the unstakes are read back, and only
then. -/
theorem readBack_unstakes_iff (hun : CommitUnowned X m σ s) (hbatch : BatchLayout X m σ batch)
    (hvalid : ∀ u ∈ m.unstakes, u.address.isValidForNetwork = true)
    (hback : ∀ u ∈ m.unstakes, ∃ v ∈ s.committee.validators, v.backupAddress = u.address) :
    (m.readBack id s (batch ++ m.unstakes.map unstakeOut ++ change.toList)).unstakes.map
        (fun u => (u.amount, u.address)) = m.unstakes.map (fun u => (u.amount, u.address)) ↔
      m.unstakes = [] ∨ m.hasBatch = false := by
  simp only [readBack]
  cases hbatch with
  | none hb =>
    refine ⟨fun _ => Or.inr hb, fun _ => ?_⟩
    rw [List.nil_append, List.take_append_of_le_length (by rw [List.length_map]),
      List.take_of_length_le (by rw [List.length_map])]
    exact filterMap_unstakeOut hvalid hback
  | @some data commit dests hb hdata hscript _ _ _ =>
    have hnone := readUnstake_commit hun hdata hscript
    constructor
    · intro heq
      left
      by_contra hne
      have hpos : 0 < m.unstakes.length := List.length_pos_iff.mpr hne
      have hlt := length_filterMap_commit (dests ++ m.unstakes.map unstakeOut ++
        change.toList) hnone hpos
      have hlen := congrArg List.length heq
      rw [List.length_map, List.length_map] at hlen
      rw [List.cons_append, List.cons_append] at hlen
      omega
    · rintro (hnil | hfalse)
      · rw [hnil]
        rfl
      · rw [hb] at hfalse
        cases hfalse

/-- A checkpoint transaction is read back as its message exactly when the outputs the
counters announce are there, no batch stands before an unstake, and a kill
checkpoint has no outputs beyond the announced ones. -/
theorem checkpoint_reads_back_iff {committee next : SubnetCommittee} {feeRate : FeeRate}
    {unspent : List Utxo} {psbt : Psbt} (hvalidate : m.validate = .ok ())
    (hheight : m.checkpointHeight < 2 ^ 64)
    (hconf : m.nextCommitteeConfigurationNumber < 2 ^ 64)
    (hs : db.getSubnetState X m.subnetId = some s)
    (hback : ∀ u ∈ m.unstakes, ∃ v ∈ s.committee.validators, v.backupAddress = u.address)
    (hun : CommitUnowned X m σ s)
    (hpsbt : m.toCheckpointPsbt X σ committee next feeRate unspent = .ok psbt) :
    ReadsBack X db m psbt.unsignedTx ↔
      LaidOutAsRead m (m.leavesChange X σ committee next feeRate unspent) := by
  have hv := validate_eq_ok.mp hvalidate
  obtain ⟨id, batch, us, change, hid, hmade, hraised, hsame, haddr, hchange, hleaves, hout⟩ :=
    layout_of_toCheckpointPsbt hpsbt
  have hbatch := batchLayout_of_batchOutputs hmade
  rw [← hleaves]
  have hpays := paysAddress_rest hbatch hraised haddr (fun o ho => (hchange o ho).1)
  by_cases hhome : ∃ t, m.subnetId = .fromTxid20 t
  · obtain ⟨t, ht⟩ := hhome
    have hsub := txid20_eq_of_home hid ht
    rw [hsub] at hs
    have hparse := fromCheckpointTx_laidOut hout hv.withdrawals_le hv.unstakes_le hheight hconf
      (fun w hw => (hv.withdrawals w hw).2) hpays hs
    have hlen := length_rest change hbatch hraised
    constructor
    · rintro ⟨m', hm', hval, -, -, -, -, -, -, hunst⟩
      rw [hparse] at hm'
      split_ifs at hm' with hle
      · cases hm'
        have hle' : m.transferOutputs ≤ m.batchLength + change.isSome.toNat := by omega
        refine ⟨⟨t, ht⟩, hle', ?_,
          (readBack_validate_iff hv hun hbatch hraised hpays hle').mp hval⟩
        intro hk
        have heq := hunst hk
        rw [hsame hk] at heq
        exact (readBack_unstakes_iff hun hbatch haddr hback).mp heq
      · cases hm'
    · rintro ⟨-, hle, hunst, hkill⟩
      rw [if_pos (by omega)] at hparse
      refine ⟨_, hparse, (readBack_validate_iff hv hun hbatch hraised hpays hle).mpr hkill,
        hsub.symm, rfl, rfl, rfl, rfl, rfl, ?_⟩
      intro hk
      rw [hsame hk]
      exact (readBack_unstakes_iff hun hbatch haddr hback).mpr (hunst hk)
  · constructor
    · rintro ⟨m', hm', -, hsub, -⟩
      obtain ⟨t, ht⟩ := fromCheckpointTx_subnetId hm'
      exact absurd ⟨t, hsub.symm.trans ht⟩ hhome
    · intro h
      exact absurd h.home hhome

end RoundTrip

open Solo

def soloUnstake : IpcUnstake := ⟨20000, backup, key⟩

/-- The database that holds the state of the subnet. -/
def soloDb : HeedDb := HeedDb.empty.saveSubnetState transferLibrary (.fromTxid20 subnet) state

theorem transfer_commitUnowned :
    CommitUnowned transferLibrary (payingCheckpoint [neighbour] []) listedOrders state := by
  intro data hdata v hv
  have hall : ((payingCheckpoint [neighbour] []).makeBatchedTransferData transferLibrary
      listedOrders).toOption.all (fun data => state.committee.validators.all (fun v =>
        v.backupAddress.scriptPubkey ≠ commitScriptOf transferLibrary data)) = true := by
    decide +kernel
  rw [toOption_eq_some.mpr hdata, Option.all_some] at hall
  exact of_decide_eq_true (List.all_eq_true.mp hall v hv)

/-- Without unstakes the checkpoint is read back. -/
theorem transfer_reads_back : ∃ psbt, payingPsbt listedOrders [neighbour] [] = .ok psbt ∧
    ReadsBack transferLibrary soloDb (payingCheckpoint [neighbour] []) psbt.unsignedTx := by
  obtain ⟨psbt, hpsbt⟩ := exists_ok_of_isSome
    (by decide +kernel : (payingPsbt listedOrders [neighbour] []).toOption.isSome = true)
  refine ⟨psbt, hpsbt, (checkpoint_reads_back_iff (s := state) ?_ ?_ ?_ ?_ ?_
    transfer_commitUnowned hpsbt).mpr ⟨⟨subnet, rfl⟩, ?_, fun _ => Or.inl rfl, ?_⟩⟩
  · decide +kernel
  · decide
  · decide
  · decide +kernel
  · intro u hu
    cases hu
  · decide +kernel
  · intro hk
    cases hk

/-- With an unstake after the batch it is read as a checkpoint without unstakes. -/
theorem unstake_behind_batch_is_not_read_back :
    ¬ ∀ (X : Library) (db : HeedDb) (s : SubnetState) (m : IpcCheckpointSubnetMsg)
      (σ : MapOrders) (committee next : SubnetCommittee) (feeRate : FeeRate)
      (unspent : List Utxo) (psbt : Psbt), DisplayLaws X → m.validate = .ok () →
      m.checkpointHeight < 2 ^ 64 → m.nextCommitteeConfigurationNumber < 2 ^ 64 →
      db.getSubnetState X m.subnetId = some s → s.committee = committee →
      (∀ u ∈ m.unstakes, ∃ v ∈ s.committee.validators, v.backupAddress = u.address) →
      m.toCheckpointPsbt X σ committee next feeRate unspent = .ok psbt →
      ReadsBack X db m psbt.unsignedTx := by
  intro hall
  obtain ⟨psbt, hpsbt⟩ := exists_ok_of_isSome
    (by decide +kernel : (payingPsbt listedOrders [neighbour] [soloUnstake]).toOption.isSome = true)
  obtain ⟨m', hm', -, -, -, -, -, -, -, hunstakes⟩ := hall transferLibrary soloDb state
    (payingCheckpoint [neighbour] [soloUnstake]) listedOrders (Solo.committee 10)
    (Solo.committee 10) 1000 [coin] psbt (displayLaws_ideal _) (by decide +kernel) (by decide) (by decide)
    (by decide +kernel) rfl (by decide +kernel) hpsbt
  have hread : (payingPsbt listedOrders [neighbour] [soloUnstake]).toOption.all (fun p =>
      (fromCheckpointTx transferLibrary soloDb p.unsignedTx).toOption.all (fun m' =>
        m'.unstakes.length = 0)) = true := by
    decide +kernel
  rw [toOption_eq_some.mpr hpsbt, Option.all_some, toOption_eq_some.mpr hm', Option.all_some,
    decide_eq_true_iff] at hread
  have hlen := congrArg List.length (hunstakes rfl)
  rw [List.length_map, hread] at hlen
  cases hlen

end IpcCheckpointSubnetMsg

end Messages
