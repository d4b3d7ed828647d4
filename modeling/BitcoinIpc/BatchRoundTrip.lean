import BitcoinIpc.CheckpointReveal
import BitcoinIpc.CompactAmount

/-!
# Reading a batch back

The records of a checkpoint are grouped by destination, serialized behind a tag,
pushed in chunks and revealed in a witness; the monitor collects the pushes,
reads the records and lists them destination by destination. The lists of
registrations and adjustments come back as they were, and so do the transfers to
each destination, exactly when every destination is in the namespace of the
chain: of a destination only twenty bytes are written.
-/

namespace Messages

open Faults Bytes Chain Crates Multisig Db Grouping

/-- The users and amounts of the transfers to a subnet, in their order. -/
def nativeRecords (ts : List IpcCrossSubnetTransfer) (id : SubnetId) : List (EthAddress × Amount) :=
  valuesAt (ts.map (fun t => (t.destinationSubnetId, t.subnetUserAddress, t.amount))) id

/-- The token transfers to a subnet, in their order. -/
def ercRecords (es : List IpcCrossSubnetErcTransfer) (id : SubnetId) :
    List IpcCrossSubnetErcTransferWire :=
  valuesAt (es.map (fun e => (e.destinationSubnetId,
    (⟨e.homeSubnetId, e.homeTokenAddress, e.amount, e.recipient⟩ :
      IpcCrossSubnetErcTransferWire)))) id

/-- The batch has the records of the checkpoint. -/
structure SameRecords (m : IpcCheckpointSubnetMsg) (b : IpcBatchTransferMsg) : Prop where
  registrations : b.tokenRegistrations = m.tokenRegistrations
  adjustments : b.tokenSupplyAdjustments = m.tokenSupplyAdjustments
  native : ∀ id, nativeRecords b.transfers id = nativeRecords m.transfers id
  erc : ∀ id, ercRecords b.tokenTransfers id = ercRecords m.tokenTransfers id

/-- Every destination of a transfer is in the namespace of the chain. -/
def IpcCheckpointSubnetMsg.DestinationsNamed (m : IpcCheckpointSubnetMsg) : Prop :=
  (∀ t ∈ m.transfers, t.destinationSubnetId.InNamespace) ∧
  ∀ e ∈ m.tokenTransfers, e.destinationSubnetId.InNamespace

section Entries

variable {X : Library}

theorem nativeEntry_named {ε : Type} {t : IpcCrossSubnetTransfer} {e : Txid20 × EthAddress × Amount}
    (h : (IpcCheckpointSubnetMsg.nativeEntry t : Outcome ε _) = .ok e)
    (hns : t.destinationSubnetId.InNamespace) :
    (t.destinationSubnetId, t.subnetUserAddress, t.amount) =
      Prod.map SubnetId.fromTxid20 id e := by
  obtain ⟨k, hk, h⟩ := bind_eq_ok.mp h
  cases h
  rw [← (SubnetId.fromTxid20_eq_iff hk).mpr hns]
  rfl

theorem ercEntry_named {ε : Type} {t : IpcCrossSubnetErcTransfer}
    {e : Txid20 × IpcCrossSubnetErcTransferWire}
    (h : (IpcCheckpointSubnetMsg.ercEntry t : Outcome ε _) = .ok e)
    (hns : t.destinationSubnetId.InNamespace) :
    (t.destinationSubnetId, (⟨t.homeSubnetId, t.homeTokenAddress, t.amount, t.recipient⟩ :
      IpcCrossSubnetErcTransferWire)) = Prod.map SubnetId.fromTxid20 id e := by
  obtain ⟨k, hk, h⟩ := bind_eq_ok.mp h
  cases h
  rw [← (SubnetId.fromTxid20_eq_iff hk).mpr hns]
  rfl

end Entries

section Reveal

variable {X : Library} {m : IpcCheckpointSubnetMsg} {σ : MapOrders} {native erc : HashOrder Txid20}
  {db : HeedDb}

/-- The message of a witness that holds serialized records. -/
theorem fromTx_revealTransaction {wire : BatchTransferWireData} {binary : List UInt8}
    (hread : X.decodeBatch binary = some wire) (p : OutPoint) (rest : List (List UInt8))
    (out : TxOut) :
    IpcBatchTransferMsg.fromTx X native erc db (IpcCheckpointSubnetMsg.revealTransaction p
        (makePushDataScript (tagBytes ipcTransferTag ++ binary) :: rest) out) = (do
      let transfers := (latest native wire.transfers).flatMap
        (IpcBatchTransferMsg.nativeTransfers X db)
      let tokenTransfers := (latest erc wire.tokenTransfers).flatMap
        IpcBatchTransferMsg.ercTransfers
      ensure (¬ (transfers = [] ∧ wire.tokenRegistrations = [] ∧
          wire.tokenSupplyAdjustments = [] ∧ tokenTransfers = []))
        (IpcBatchTransferMsg.parseErr "No valid data found in batch transfer")
      return ⟨SubnetId.default, p.txid, p.vout, transfers, wire.tokenRegistrations,
        wire.tokenSupplyAdjustments, tokenTransfers⟩) := by
  have htag : (tagBytes ipcTransferTag).length = ipcTagLength := by decide
  have hwire : IpcBatchTransferMsg.witnessToWireData X (tagBytes ipcTransferTag ++ binary) =
      .ok wire := by
    have hgood : ¬ ((tagBytes ipcTransferTag ++ binary).length < ipcTagLength ∨
        (tagBytes ipcTransferTag ++ binary).take ipcTagLength ≠ tagBytes ipcTransferTag) := by
      rw [List.take_left' htag, List.length_append, htag]
      simp
    rw [IpcBatchTransferMsg.witnessToWireData, ensure_pos hgood, ok_bind, List.drop_left' htag,
      hread]
    rfl
  unfold IpcBatchTransferMsg.fromTx IpcCheckpointSubnetMsg.revealTransaction
  rw [ensure_pos (by rfl), ok_bind, index_eq_ok.mpr rfl, ok_bind,
    ensure_pos (List.cons_ne_nil _ _), ok_bind, index_eq_ok.mpr rfl, ok_bind,
    concatenateOpPushData_make]
  simp only [Except.toOption, okOr, ok_bind, hwire, mapErr]

/-- The entries of the two maps that a reveal was made from. -/
theorem wireData_of_data {data : List UInt8} (codec : CodecLaws X)
    (h : m.makeBatchedTransferData X σ = .ok data) :
    ∃ natives ercs binary,
      List.Forall₂ (fun t e => (IpcCheckpointSubnetMsg.nativeEntry t : Outcome IpcLibError _) =
        .ok e) m.transfers natives ∧
      List.Forall₂ (fun t e => (IpcCheckpointSubnetMsg.ercEntry t : Outcome IpcLibError _) =
        .ok e) m.tokenTransfers ercs ∧
      data = tagBytes ipcTransferTag ++ binary ∧
      X.decodeBatch binary = some ⟨grouped σ.native natives, m.tokenRegistrations,
        m.tokenSupplyAdjustments, grouped σ.erc ercs⟩ := by
  obtain ⟨wire, hwire, h⟩ := bind_eq_ok.mp h
  obtain ⟨binary, hbinary, h⟩ := bind_eq_ok.mp h
  obtain ⟨natives, hnatives, hwire⟩ := bind_eq_ok.mp hwire
  obtain ⟨ercs, hercs, hwire⟩ := bind_eq_ok.mp hwire
  cases h
  cases hwire
  exact ⟨natives, ercs, binary, traverse_eq_ok.mp hnatives, traverse_eq_ok.mp hercs, rfl,
    codec.decode_encode _ _ (okOr_eq_ok.mp hbinary)⟩

/-- The native transfers of a destination that exists. -/
theorem map_nativeTransfers {e : Txid20 × List (EthAddress × Amount)}
    (h : (db.getSubnetState X (.fromTxid20 e.1)).isSome = true) :
    (IpcBatchTransferMsg.nativeTransfers X db e).map
        (fun t => (t.destinationSubnetId, t.subnetUserAddress, t.amount)) =
      e.2.map (fun a => (SubnetId.fromTxid20 e.1, a)) := by
  obtain ⟨s, hs⟩ := Option.isSome_iff_exists.mp h
  simp only [IpcBatchTransferMsg.nativeTransfers, hs, List.map_map]
  rfl

theorem map_ercTransfers (e : Txid20 × List IpcCrossSubnetErcTransferWire) :
    (IpcBatchTransferMsg.ercTransfers e).map (fun t => (t.destinationSubnetId,
        (⟨t.homeSubnetId, t.homeTokenAddress, t.amount, t.recipient⟩ :
          IpcCrossSubnetErcTransferWire))) =
      e.2.map (fun a => (SubnetId.fromTxid20 e.1, a)) := by
  simp only [IpcBatchTransferMsg.ercTransfers, List.map_map]
  rfl

theorem named_of_nativeTransfers {g : List (Txid20 × List (EthAddress × Amount))}
    {t : IpcCrossSubnetTransfer}
    (h : t ∈ g.flatMap (IpcBatchTransferMsg.nativeTransfers X db)) :
    t.destinationSubnetId.InNamespace := by
  obtain ⟨e, -, h⟩ := List.mem_flatMap.mp h
  unfold IpcBatchTransferMsg.nativeTransfers at h
  split at h
  · cases h
  · obtain ⟨_, -, rfl⟩ := List.mem_map.mp h
    exact ⟨e.1, rfl⟩

theorem named_of_ercTransfers {g : List (Txid20 × List IpcCrossSubnetErcTransferWire)}
    {t : IpcCrossSubnetErcTransfer} (h : t ∈ g.flatMap IpcBatchTransferMsg.ercTransfers) :
    t.destinationSubnetId.InNamespace := by
  obtain ⟨e, -, h⟩ := List.mem_flatMap.mp h
  obtain ⟨_, -, rfl⟩ := List.mem_map.mp h
  exact ⟨e.1, rfl⟩

end Reveal

/-- Two lists with the same values for every key have elements with the same keys. -/
theorem exists_of_valuesAt {α β κ γ : Type} [DecidableEq κ] {f : α → κ × γ} {g : β → κ × γ}
    {l : List α} {r : List β} (h : ∀ k, valuesAt (r.map g) k = valuesAt (l.map f) k) {a : α}
    (ha : a ∈ l) : ∃ b ∈ r, (g b).1 = (f a).1 := by
  have hmem : (f a).2 ∈ valuesAt (l.map f) (f a).1 :=
    List.mem_map.mpr ⟨f a, List.mem_filter.mpr ⟨List.mem_map_of_mem ha, decide_eq_true rfl⟩, rfl⟩
  rw [← h] at hmem
  obtain ⟨e, he, -⟩ := List.mem_map.mp hmem
  obtain ⟨he, hk⟩ := List.mem_filter.mp he
  obtain ⟨b, hb, rfl⟩ := List.mem_map.mp he
  exact ⟨b, hb, of_decide_eq_true hk⟩

/-- Lists with the same values for every key are empty together. -/
theorem eq_nil_of_valuesAt {α β κ γ : Type} [DecidableEq κ] {f : α → κ × γ} {g : β → κ × γ}
    {l : List α} (h : ∀ k, valuesAt (([] : List β).map g) k = valuesAt (l.map f) k) : l = [] := by
  refine List.eq_nil_iff_forall_not_mem.mpr (fun a ha => ?_)
  obtain ⟨b, hb, -⟩ := exists_of_valuesAt h ha
  cases hb

section Batch

variable {X : Library} {m : IpcCheckpointSubnetMsg} {σ : MapOrders} {native erc : HashOrder Txid20}
  {db : HeedDb}

/-- The destinations that are read back are those of the transfers. -/
theorem destinations_exist (σ : MapOrders) (native : HashOrder Txid20)
    {natives : List (Txid20 × EthAddress × Amount)}
    (h : List.Forall₂ (fun t e => (IpcCheckpointSubnetMsg.nativeEntry t :
      Outcome IpcLibError _) = .ok e) m.transfers natives)
    (hns : ∀ t ∈ m.transfers, t.destinationSubnetId.InNamespace)
    (hdest : ∀ t ∈ m.transfers, (db.getSubnetState X t.destinationSubnetId).isSome = true) :
    ∀ e ∈ latest native (grouped σ.native natives),
      (db.getSubnetState X (.fromTxid20 e.1)).isSome = true := by
  intro e he
  rw [latest_grouped] at he
  obtain ⟨k, hk, rfl⟩ := List.mem_map.mp he
  obtain ⟨v, hv⟩ := (mem_order_keysOf σ.native).mp ((native.perm _).mem_iff.mp hk)
  obtain ⟨t, ht, hentry⟩ := exists_of_forall₂ h hv
  rw [← (Prod.mk.inj (nativeEntry_named hentry (hns t ht))).1]
  exact hdest t ht

theorem nativeRecords_regrouped {natives : List (Txid20 × EthAddress × Amount)}
    (h : List.Forall₂ (fun t e => (IpcCheckpointSubnetMsg.nativeEntry t :
      Outcome IpcLibError _) = .ok e) m.transfers natives)
    (hns : ∀ t ∈ m.transfers, t.destinationSubnetId.InNamespace)
    (hdest : ∀ t ∈ m.transfers, (db.getSubnetState X t.destinationSubnetId).isSome = true)
    (id : SubnetId) :
    nativeRecords ((latest native (grouped σ.native natives)).flatMap
      (IpcBatchTransferMsg.nativeTransfers X db)) id = nativeRecords m.transfers id := by
  have hkeys := destinations_exist σ native h hns hdest
  rw [nativeRecords, nativeRecords, map_flatMap_rows (fun e he => map_nativeTransfers (hkeys e he)),
    map_of_forall₂ h (fun t ht e hentry => nativeEntry_named hentry (hns t ht))]
  exact valuesAt_regrouped SubnetId.fromTxid20_injective _ _ _ _

theorem ercRecords_regrouped {ercs : List (Txid20 × IpcCrossSubnetErcTransferWire)}
    (h : List.Forall₂ (fun t e => (IpcCheckpointSubnetMsg.ercEntry t :
      Outcome IpcLibError _) = .ok e) m.tokenTransfers ercs)
    (hns : ∀ t ∈ m.tokenTransfers, t.destinationSubnetId.InNamespace) (id : SubnetId) :
    ercRecords ((latest erc (grouped σ.erc ercs)).flatMap IpcBatchTransferMsg.ercTransfers) id =
      ercRecords m.tokenTransfers id := by
  rw [ercRecords, ercRecords, map_flatMap_rows (fun e _ => map_ercTransfers e),
    map_of_forall₂ h (fun t ht e hentry => ercEntry_named hentry (hns t ht))]
  exact valuesAt_regrouped SubnetId.fromTxid20_injective _ _ _ _

/-- The reveal of a checkpoint is read back with the records of the checkpoint exactly when every
destination is in the namespace of the chain. -/
theorem batch_reads_back_iff {P : Postcard} (laws : FvmTextLaws X) (hP : PostcardLaws X P)
    {txid : Txid} {feeRate : FeeRate} {a : Address} {r : Transaction}
    (hdest : ∀ t ∈ m.transfers, (db.getSubnetState X t.destinationSubnetId).isSome = true)
    (hr : m.makeRevealBatchTransferTx X σ txid feeRate a = .ok (some r)) :
    (∃ b, IpcBatchTransferMsg.fromTx X native erc db r = .ok b ∧ SameRecords m b) ↔
      m.DestinationsNamed := by
  obtain ⟨hbatch, commit, witness, out, hmade, rfl⟩ :=
    IpcCheckpointSubnetMsg.makeRevealBatchTransferTx_eq_ok hr
  obtain ⟨data, hdata, -, hwitness, -⟩ := IpcCheckpointSubnetMsg.makeBatchedTransfer_eq_ok hmade
  obtain ⟨natives, ercs, binary, hnatives, hercs, rfl, hread⟩ :=
    wireData_of_data (codecLaws_of_postcard laws hP) hdata
  dsimp only at hwitness
  rw [hwitness, fromTx_revealTransaction hread]
  dsimp only
  constructor
  · rintro ⟨b, hb, hsame⟩
    obtain ⟨_, -, hb⟩ := bind_eq_ok.mp hb
    cases hb
    refine ⟨fun t ht => ?_, fun t ht => ?_⟩
    · obtain ⟨t', ht', heq⟩ := exists_of_valuesAt hsame.native ht
      dsimp only at heq
      exact heq ▸ named_of_nativeTransfers ht'
    · obtain ⟨t', ht', heq⟩ := exists_of_valuesAt hsame.erc ht
      dsimp only at heq
      exact heq ▸ named_of_ercTransfers ht'
  · rintro ⟨hnative, herc⟩
    have hsame : ∀ id, nativeRecords ((latest native (grouped σ.native natives)).flatMap
        (IpcBatchTransferMsg.nativeTransfers X db)) id = nativeRecords m.transfers id :=
      nativeRecords_regrouped hnatives hnative hdest
    have hsame' : ∀ id, ercRecords ((latest erc (grouped σ.erc ercs)).flatMap
        IpcBatchTransferMsg.ercTransfers) id = ercRecords m.tokenTransfers id :=
      ercRecords_regrouped hercs herc
    have hsome : ¬ ((latest native (grouped σ.native natives)).flatMap
          (IpcBatchTransferMsg.nativeTransfers X db) = [] ∧
        m.tokenRegistrations = [] ∧ m.tokenSupplyAdjustments = [] ∧
        (latest erc (grouped σ.erc ercs)).flatMap IpcBatchTransferMsg.ercTransfers = []) := by
      rintro ⟨h₁, h₂, h₃, h₄⟩
      rw [h₁] at hsame
      rw [h₄] at hsame'
      have htransfers : m.transfers = [] := eq_nil_of_valuesAt hsame
      have hercs : m.tokenTransfers = [] := eq_nil_of_valuesAt hsame'
      simp [IpcCheckpointSubnetMsg.hasBatch, htransfers, h₂, h₃, hercs] at hbatch
    rw [ensure_pos hsome]
    exact ⟨_, rfl, rfl, rfl, hsame, hsame'⟩

end Batch

open Crates.Solo Text

/-- The serializer of a library that writes a batch in some way. -/
def postcardOf (X : Library) : Postcard where
  toStdvec raw := ((raw.deserialize X CompactAmount.checkedFromSignAndAbs).filter
    (fun w => w.serialize X = raw)).bind X.encodeBatch
  fromSignAndAbs := CompactAmount.checkedFromSignAndAbs

theorem postcardLaws_of {X : Library} (laws : FvmTextLaws X) (codec : CodecLaws X) :
    PostcardLaws X (postcardOf X) where
  sign := CompactAmount.signLaws_checked
  encode wire := by
    simp only [postcardOf, BatchTransferWireData.deserialize_serialize laws
      CompactAmount.signLaws_checked, Option.filter_some, decide_true, if_true, Option.bind_some]
  decode raw bytes h := by
    obtain ⟨wire, hwire, hbytes⟩ := Option.bind_eq_some_iff.mp h
    rw [codec.decode_encode _ _ hbytes]
    exact (Option.filter_eq_some_iff.mp hwire).1.symm

theorem fvmText_no_slash (a : FvmAddress) : '/' ∉ fvmText a := by
  cases a with
  | id n =>
    simp only [fvmText, List.mem_cons, not_or]
    exact ⟨by decide, by decide, decimal_no_slash n⟩
  | secp256k1 h =>
    simp only [fvmText, List.mem_cons, not_or]
    exact ⟨by decide, by decide, hexBytes_no_slash _⟩
  | actor h =>
    simp only [fvmText, List.mem_cons, not_or]
    exact ⟨by decide, by decide, hexBytes_no_slash _⟩
  | bls k =>
    simp only [fvmText, List.mem_cons, not_or]
    exact ⟨by decide, by decide, hexBytes_no_slash _⟩
  | delegated ns sub =>
    simp only [fvmText, List.mem_cons, List.mem_append, not_or]
    exact ⟨by decide, by decide, decimal_no_slash ns, by decide, hexBytes_no_slash sub⟩

/-- A transfer of five units of a token of the subnet. -/
def tokenTo (destination : SubnetId) : IpcCrossSubnetErcTransfer :=
  ⟨.fromTxid20 subnet, ⟨List.replicate 20 7, List.length_replicate⟩, 5, destination, user⟩

/-- A checkpoint with one transfer of coins and one of a token. -/
def tokenCheckpoint (destination : SubnetId) : IpcCheckpointSubnetMsg :=
  { checkpointMsg 0 with
    transfers := [transferTo neighbour], tokenTransfers := [tokenTo destination] }

/-- The library that serializes the batch of this checkpoint, and reads every printed address. -/
noncomputable def tokenLibrary : Library :=
  { ideal { batches := [⟨[(neighbour, [(user, 5000)])], [], [], [(neighbour,
      [⟨.fromTxid20 subnet, ⟨List.replicate 20 7, List.length_replicate⟩, 5, user⟩])]⟩] } with
    fvmFromStr := Function.partialInv fvmText }

theorem fvmTextLaws_token : FvmTextLaws tokenLibrary where
  fvm_no_slash := fvmText_no_slash
  fvm_read_back a := Function.partialInv_left fvmText_injective a

theorem postcardLaws_token : PostcardLaws tokenLibrary (postcardOf tokenLibrary) :=
  postcardLaws_of fvmTextLaws_token ⟨(codecLaws_ideal _).decode_encode⟩

/-- The database with the subnet that is paid. -/
noncomputable def neighbourDb : HeedDb :=
  HeedDb.empty.saveSubnetState tokenLibrary (.fromTxid20 neighbour) state

theorem neighbour_exists (destination : SubnetId) :
    ∀ t ∈ (tokenCheckpoint destination).transfers,
      (neighbourDb.getSubnetState tokenLibrary t.destinationSubnetId).isSome = true := by
  intro t ht
  cases List.mem_singleton.mp ht
  decide +kernel

/-- The reveal of the checkpoint. -/
noncomputable def tokenReveal (destination : SubnetId) :
    Outcome IpcLibError (Option Transaction) :=
  (tokenCheckpoint destination).makeRevealBatchTransferTx tokenLibrary listedOrders (bytes32 20) 1
    backup

theorem token_batch_reads_back : ∃ r b, tokenReveal (.fromTxid20 neighbour) = .ok (some r) ∧
    IpcBatchTransferMsg.fromTx tokenLibrary (.reversed _) (.listed _) neighbourDb r = .ok b ∧
    SameRecords (tokenCheckpoint (.fromTxid20 neighbour)) b := by
  have hany : (tokenReveal (.fromTxid20 neighbour)).toOption.any Option.isSome = true := by
    decide +kernel
  obtain ⟨r, hr, hsome⟩ := (Option.any_eq_true _ _).mp hany
  obtain ⟨r, rfl⟩ := Option.isSome_iff_exists.mp hsome
  have hreveal := toOption_eq_some.mp hr
  have hnamed : (tokenCheckpoint (.fromTxid20 neighbour)).DestinationsNamed := by
    refine ⟨fun t ht => ?_, fun e he => ?_⟩
    · cases List.mem_singleton.mp ht
      exact ⟨neighbour, rfl⟩
    · cases List.mem_singleton.mp he
      exact ⟨neighbour, rfl⟩
  obtain ⟨b, hb, hsame⟩ := (batch_reads_back_iff fvmTextLaws_token postcardLaws_token
    (neighbour_exists _) hreveal).mpr hnamed
  exact ⟨r, b, hreveal, hb, hsame⟩

/-- A token transfer to an id of another namespace arrives at another subnet. -/
theorem foreign_destination_moved :
    ¬ ∀ (X : Library) (P : Postcard), FvmTextLaws X → PostcardLaws X P →
      ∀ (m : IpcCheckpointSubnetMsg) (σ : MapOrders) (native erc : HashOrder Txid20) (db : HeedDb)
        (txid : Txid) (feeRate : FeeRate) (a : Address) (r : Transaction),
      (∀ t ∈ m.transfers, (db.getSubnetState X t.destinationSubnetId).isSome = true) →
      m.makeRevealBatchTransferTx X σ txid feeRate a = .ok (some r) →
      ∃ b, IpcBatchTransferMsg.fromTx X native erc db r = .ok b ∧ SameRecords m b := by
  intro hall
  set foreign : SubnetId := ⟨.delegated 11 neighbour.bytes⟩ with hforeign
  have hany : (tokenReveal foreign).toOption.any (fun r => r.any (fun r =>
      (IpcBatchTransferMsg.fromTx tokenLibrary (.listed _) (.listed _) neighbourDb r).toOption.any
        (fun b => ercRecords b.tokenTransfers foreign = []))) = true := by
    decide +kernel
  obtain ⟨r, hr, hsome⟩ := (Option.any_eq_true _ _).mp hany
  obtain ⟨r, rfl, hparsed⟩ := (Option.any_eq_true _ _).mp hsome
  obtain ⟨b, hb, hnone⟩ := (Option.any_eq_true _ _).mp hparsed
  obtain ⟨b', hb', hsame⟩ := hall tokenLibrary _ fvmTextLaws_token postcardLaws_token
    (tokenCheckpoint foreign) listedOrders (.listed _) (.listed _) neighbourDb (bytes32 20) 1 backup r
    (neighbour_exists _) (toOption_eq_some.mp hr)
  obtain rfl : b = b' := Except.ok.inj ((toOption_eq_some.mp hb).symm.trans hb')
  have hlost := hsame.erc foreign
  rw [of_decide_eq_true hnone] at hlost
  exact absurd hlost.symm (by decide)

end Messages
