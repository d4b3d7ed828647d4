import BitcoinIpc.Requests
import BitcoinIpc.Sound

/-!
# Reading a request back

What the monitor finds in the transaction of a request. The transaction carries
the tag and the data of the message in its first output and pays the committee
in its second. The parsers of the other messages fail on it, and the parser of
its own message reads the request back; for an unstake and a kill it does so
exactly when the key of the validator is in the current committee.
-/

namespace Monitor

open Faults Bytes Chain Messages Crates Multisig Db Grouping Commits Provider OrderedTable

/-- A transaction with data under a tag in its first output, and a payment in its second. -/
structure Carries (tx : Transaction) (tag : String) (data : List UInt8) (payment : TxOut) :
    Prop where
  outputs : ∃ value rest, tx.output =
    ⟨value, makeOpReturnScript (tagBytes tag ++ data)⟩ :: payment :: rest
  tag_length : (tagBytes tag).length = ipcTagLength
  data_length : data.length ≤ 100

/-- No witness starts like a message. -/
def Plain (tx : Transaction) : Prop :=
  ∀ i ∈ tx.input, ∀ item ∈ i.witness, ∀ data, concatenateOpPushData item = .ok data →
    IpcTag.fromBytes (data.take ipcTagLength) = none

section Carried

variable {X : Library} {tx : Transaction} {tag : String} {data : List UInt8} {payment : TxOut}

theorem Carries.two_le (h : Carries tx tag data payment) : 2 ≤ tx.output.length := by
  obtain ⟨_, _, hout⟩ := h.outputs
  simp [hout]

theorem Carries.second (h : Carries tx tag data payment) : tx.output[1]? = some payment := by
  obtain ⟨_, _, hout⟩ := h.outputs
  simp [hout]

theorem Carries.take_tag (h : Carries tx tag data payment) :
    (tagBytes tag ++ data).take ipcTagLength = tagBytes tag :=
  List.take_left' h.tag_length

theorem Carries.drop_tag (h : Carries tx tag data payment) :
    (tagBytes tag ++ data).drop ipcTagLength = data :=
  List.drop_left' h.tag_length

/-- The data is found, and its length is compared with the one that is expected. -/
theorem Carries.opReturnData_eq (h : Carries tx tag data payment) (t noData badLength : String)
    (n : Nat) : opReturnData t noData badLength n tx =
      (ensure ((tagBytes tag ++ data).length = n) (.msgParseError t badLength) >>=
        fun _ => .ok (tagBytes tag ++ data)) := by
  obtain ⟨value, rest, hout⟩ := h.outputs
  have hlen : (tagBytes tag ++ data).length = ipcTagLength + data.length := by
    rw [List.length_append, h.tag_length]
  have hdata := h.data_length
  have hpush := firstPush_makeOpReturnScript (tagBytes tag ++ data)
    (by rw [hlen, ipcTagLength]; omega) (by rw [hlen, ipcTagLength]; omega)
  have hfirst : tx.output[0]? = some ⟨value, makeOpReturnScript (tagBytes tag ++ data)⟩ := by
    rw [hout]
    rfl
  rw [opReturnData, index_eq_ok.mpr hfirst, ok_bind, okOr_eq_ok.mpr hpush, ok_bind]
  rfl

theorem Carries.fundingFromTx_other (h : Carries tx tag data payment) {t : String}
    (hne : tagBytes tag ≠ tagBytes t) : ∃ e, fundingFromTx t tx = raise e := by
  unfold fundingFromTx
  rw [ensure_pos h.two_le, ok_bind, h.opReturnData_eq]
  by_cases hlen : (tagBytes tag ++ data).length =
      ipcTagLength + SubnetId.innerLen + ethAddrLen
  · rw [ensure_pos hlen]
    simp only [ok_bind, h.take_tag, ensure_neg hne]
    exact ⟨_, rfl⟩
  · rw [ensure_neg hlen]
    exact ⟨_, rfl⟩

theorem Carries.taggedData_other (h : Carries tx tag data payment) {t : String}
    (hne : tagBytes tag ≠ tagBytes t) (tooFew : String) (n : Nat) :
    ∃ e, taggedData t tooFew n tx = raise e := by
  unfold taggedData
  rw [ensure_pos h.two_le, ok_bind, h.opReturnData_eq]
  by_cases hlen : (tagBytes tag ++ data).length = n
  · rw [ensure_pos hlen]
    simp only [ok_bind, h.take_tag, ensure_neg hne]
    exact ⟨_, rfl⟩
  · rw [ensure_neg hlen]
    exact ⟨_, rfl⟩

theorem Carries.taggedData_own (h : Carries tx tag data payment) (tooFew : String) {n : Nat}
    (hlen : ipcTagLength + data.length = n) :
    taggedData tag tooFew n tx = .ok (tagBytes tag ++ data) := by
  have hn : (tagBytes tag ++ data).length = n := by
    rw [List.length_append, h.tag_length, hlen]
  unfold taggedData
  rw [ensure_pos h.two_le, ok_bind, h.opReturnData_eq, ensure_pos hn]
  simp only [ok_bind, h.take_tag]
  rw [ensure_pos trivial]
  rfl

theorem Carries.fromCheckpointTx_other (h : Carries tx tag data payment) (db : HeedDb)
    (hne : tagBytes tag ≠ tagBytes ipcCheckpointTag) :
    ∃ e, IpcCheckpointSubnetMsg.fromCheckpointTx X db tx = raise e := by
  have hout : tx.output ≠ [] := by
    intro hnil
    have := h.two_le
    simp [hnil] at this
  unfold IpcCheckpointSubnetMsg.fromCheckpointTx
  rw [ensure_pos hout, ok_bind, h.opReturnData_eq]
  by_cases hlen : (tagBytes tag ++ data).length = IpcCheckpointSubnetMsg.dataLen
  · have hslice : (slice (tagBytes tag ++ data) 0 IpcCheckpointSubnetMsg.txidOffset :
        Outcome IpcLibError _) = .ok (tagBytes tag) := by
      rw [slice_of_le (Nat.zero_le _) (by rw [hlen]; decide)]
      exact congrArg Except.ok h.take_tag
    rw [ensure_pos hlen]
    simp only [ok_bind, IpcCheckpointSubnetMsg.parseMetadata, hslice, ensure_neg hne]
    exact ⟨_, rfl⟩
  · rw [ensure_neg hlen]
    exact ⟨_, rfl⟩

theorem Plain.witnessMessages_eq (h : Plain tx) : witnessMessages X tx = [] := by
  refine List.flatMap_eq_nil_iff.mpr (fun i hi => List.filterMap_eq_nil_iff.mpr ?_)
  intro item hitem
  unfold witnessMessage
  split_ifs with hnil
  · rfl
  · cases hd : concatenateOpPushData item with
    | error e => rfl
    | ok bytes =>
      simp only [fromWitness, h i hi item hitem bytes hd]
      split_ifs <;> rfl

theorem fromBytes_transferTag : IpcTag.fromBytes (tagBytes ipcTransferTag) = some .batchTransfer := by
  decide

theorem Plain.batchFromTx (h : Plain tx) (native erc : HashOrder Txid20) (db : HeedDb) :
    ∃ e, IpcBatchTransferMsg.fromTx X native erc db tx = raise e := by
  unfold IpcBatchTransferMsg.fromTx
  by_cases hone : tx.input.length = 1
  · obtain ⟨i, hi⟩ := List.length_eq_one_iff.mp hone
    rw [ensure_pos hone, ok_bind, index_eq_ok.mpr (by rw [hi]; rfl : tx.input[0]? = some i), ok_bind]
    cases hwit : i.witness with
    | nil => exact ⟨_, by rw [ensure_neg (by simp)]; rfl⟩
    | cons item rest =>
      rw [ensure_pos (by simp), ok_bind, index_eq_ok.mpr (by rfl : (item :: rest)[0]? = some item),
        ok_bind]
      cases hd : concatenateOpPushData item with
      | error e => exact ⟨_, rfl⟩
      | ok bytes =>
        have hnone := h i (by simp [hi]) item (by simp [hwit]) bytes hd
        have hbad : ¬ ¬ (bytes.length < ipcTagLength ∨
            bytes.take ipcTagLength ≠ tagBytes ipcTransferTag) := by
          refine not_not_intro (Or.inr ?_)
          intro htag
          rw [htag, fromBytes_transferTag] at hnone
          cases hnone
        have hraise : IpcBatchTransferMsg.witnessToWireData X bytes = raise
            (IpcBatchTransferMsg.parseErr "Invalid tag: expected '\x7b\x7d' prefix") := by
          rw [IpcBatchTransferMsg.witnessToWireData, ensure_neg hbad]
          rfl
        exact ⟨_, by
          simp only [Except.toOption, okOr, ok_bind, hraise]
          rfl⟩
  · exact ⟨_, by rw [ensure_neg hone]; rfl⟩

theorem firstParsed_raise {ε : Type} {l : List (Outcome IpcLibError IpcMessage)}
    {x : Outcome IpcLibError IpcMessage} (hx : ∃ e, x = raise e) :
    (firstParsed (x :: l) : Outcome ε (Option IpcMessage)) = firstParsed l := by
  obtain ⟨e, rfl⟩ := hx
  rfl

/-- A parser that fails fails under the name of its message too. -/
theorem map_raise {α β : Type} (f : α → β) {x : Outcome IpcLibError α} (h : ∃ e, x = raise e) :
    ∃ e, f <$> x = raise e := by
  obtain ⟨e, rfl⟩ := h
  exact ⟨e, rfl⟩

theorem bind_raise {α β : Type} (f : α → Outcome IpcLibError β) {x : Outcome IpcLibError α}
    (h : ∃ e, x = raise e) : ∃ e, (x >>= f) = raise e := by
  obtain ⟨e, rfl⟩ := h
  exact ⟨e, rfl⟩

section Found

variable (ctx : BlockContext) (db : HeedDb)

/-- Data under the tag of a fund message. -/
theorem Carries.found_fund (h : Carries tx ipcFundSubnetTag data payment) :
    (firstParsed (outputParsers X ctx db tx) : Outcome MonitorError _) =
      firstParsed ((outputParsers X ctx db tx).drop 1) := by
  refine firstParsed_raise (map_raise _ (bind_raise _ (h.fundingFromTx_other ?_)))
  decide

/-- Data under a tag of a stake change or a kill, without a message in a witness. -/
theorem Carries.found_stake (h : Carries tx tag data payment) (hplain : Plain tx)
    (htag : tag = ipcStakeTag ∨ tag = ipcUnstakeTag ∨ tag = ipcKillSubnetTag) :
    (firstParsed (outputParsers X ctx db tx) : Outcome MonitorError _) =
      firstParsed ((outputParsers X ctx db tx).drop 4) := by
  have hne : tagBytes tag ≠ tagBytes ipcPrefundSubnetTag ∧
      tagBytes tag ≠ tagBytes ipcFundSubnetTag ∧ tagBytes tag ≠ tagBytes ipcCheckpointTag := by
    rcases htag with rfl | rfl | rfl <;> decide
  have hprefund : ∃ e, IpcPrefundSubnetMsg.fromTx tx = raise e :=
    bind_raise _ (h.fundingFromTx_other hne.1)
  have hfund : ∃ e, IpcFundSubnetMsg.fromTx tx = raise e :=
    bind_raise _ (h.fundingFromTx_other hne.2.1)
  unfold outputParsers
  rw [firstParsed_raise (map_raise _ hprefund), firstParsed_raise (map_raise _ hfund),
    firstParsed_raise (map_raise _ (h.fromCheckpointTx_other db hne.2.2)),
    firstParsed_raise (map_raise _ (hplain.batchFromTx ctx.native ctx.erc db))]
  rfl

theorem Carries.found_unstake (h : Carries tx tag data payment) (hplain : Plain tx)
    (htag : tag = ipcUnstakeTag ∨ tag = ipcKillSubnetTag) :
    (firstParsed (outputParsers X ctx db tx) : Outcome MonitorError _) =
      firstParsed [.unstakeCollateral <$> IpcUnstakeCollateralMsg.fromTx X db tx,
        .killSubnet <$> IpcKillSubnetMsg.fromTx X db tx] := by
  have hne : tagBytes tag ≠ tagBytes ipcStakeTag := by
    rcases htag with rfl | rfl <;> decide
  rw [h.found_stake ctx db hplain (Or.inr htag)]
  exact firstParsed_raise (map_raise _ (bind_raise _ (h.taggedData_other hne _ _)))

theorem Carries.found_kill (h : Carries tx ipcKillSubnetTag data payment) (hplain : Plain tx) :
    (firstParsed (outputParsers X ctx db tx) : Outcome MonitorError _) =
      firstParsed [.killSubnet <$> IpcKillSubnetMsg.fromTx X db tx] := by
  rw [h.found_unstake ctx db hplain (Or.inr rfl)]
  refine firstParsed_raise (map_raise _ (bind_raise _ (h.taggedData_other ?_ _ _)))
  decide

end Found

end Carried

section Subnets

variable {X : Library} {db : HeedDb} {tx : Transaction} {tag : String} {data : List UInt8}
  {s : SubnetState} {value : Amount}

/-- The current committees of different subnets have different addresses. -/
def AddressesDistinct (X : Library) (db : HeedDb) : Prop :=
  ∀ id id' s s', db.getSubnetState X id = some s → db.getSubnetState X id' = some s' →
    s.committee.multisigAddress = s'.committee.multisigAddress → id = id'

theorem getSubnetByMultisigAddress_of_state (hsound : Sound X db)
    (hdist : AddressesDistinct X db) {id : SubnetId} (hs : db.getSubnetState X id = some s) :
    db.getSubnetByMultisigAddress s.committee.multisigAddress = some s := by
  have hmem : s ∈ db.subnetDb.scan (fun _ => true) :=
    (Table.mem_scan_iff _ _ _).mpr ⟨_, rfl, hs⟩
  obtain ⟨s', hs'⟩ : ∃ s', db.getSubnetByMultisigAddress s.committee.multisigAddress = some s' := by
    refine Option.isSome_iff_exists.mp (List.find?_isSome.mpr ⟨s, hmem, ?_⟩)
    exact decide_eq_true rfl
  have haddr : s'.committee.multisigAddress = s.committee.multisigAddress := by
    simpa using List.find?_some hs'
  obtain ⟨key, -, hkey⟩ := (Table.mem_scan_iff _ _ _).mp (List.mem_of_find?_eq_some hs')
  obtain ⟨t, hkeyed, -⟩ :=
    (hsound.states _ ((Table.get_eq_some_iff db.subnetDb).mp hkey)).keyed
  dsimp only at hkeyed
  rw [hkeyed] at hkey
  cases hdist id _ s s' hs hkey haddr.symm
  rw [hs', ← hs]
  exact hkey.symm

/-- A payment to the current committee is found to be for its subnet. -/
theorem Carries.payedSubnet_eq (laws : DisplayLaws X)
    (h : Carries tx tag data ⟨value, s.committee.multisigAddress.scriptPubkey⟩)
    (hsound : Sound X db) (hdist : AddressesDistinct X db) {id : SubnetId}
    (hs : db.getSubnetState X id = some s) (t notFound : String) :
    payedSubnet t notFound db tx = .ok s := by
  obtain ⟨u, -, -, hgood, -⟩ := hsound.state laws hs
  have haddr := Address.fromScript_scriptPubkey hgood.derived.address_valid
  rw [payedSubnet, secondOutputAddress, index_eq_ok.mpr h.second]
  simp only [ok_bind, haddr, okOr,
    getSubnetByMultisigAddress_of_state hsound hdist hs]

theorem Carries.fundingFromTx_own {id : Txid20} {address : EthAddress} {payment : TxOut}
    (h : Carries tx tag (id.bytes ++ address.bytes) payment) :
    fundingFromTx tag tx = .ok (.fromTxid20 id, payment.value, address) := by
  have hlen : (tagBytes tag ++ (id.bytes ++ address.bytes)).length =
      ipcTagLength + SubnetId.innerLen + ethAddrLen := by
    simp only [List.length_append, h.tag_length, id.length_eq, address.length_eq]
    rfl
  have htake : (id.bytes ++ address.bytes).take SubnetId.innerLen = id.bytes :=
    List.take_left' id.length_eq
  have hdrop : (id.bytes ++ address.bytes).drop SubnetId.innerLen = address.bytes :=
    List.drop_left' id.length_eq
  unfold fundingFromTx
  rw [ensure_pos h.two_le, ok_bind, h.opReturnData_eq, ensure_pos hlen]
  simp only [ok_bind, h.take_tag, h.drop_tag, ensure_pos, htake, hdrop, FixedBytes.ofList?_bytes,
    okOr, expect, index_eq_ok.mpr h.second]
  rfl

theorem Carries.fromTx_fund {id : Txid20} {address : EthAddress} {payment : TxOut}
    (h : Carries tx ipcFundSubnetTag (id.bytes ++ address.bytes) payment) :
    IpcFundSubnetMsg.fromTx tx = .ok ⟨.fromTxid20 id, payment.value, address⟩ := by
  unfold IpcFundSubnetMsg.fromTx
  rw [h.fundingFromTx_own]
  rfl

theorem Carries.fromTx_prefund {id : Txid20} {address : EthAddress} {payment : TxOut}
    (h : Carries tx ipcPrefundSubnetTag (id.bytes ++ address.bytes) payment) :
    IpcPrefundSubnetMsg.fromTx tx = .ok ⟨.fromTxid20 id, payment.value, address⟩ := by
  unfold IpcPrefundSubnetMsg.fromTx
  rw [h.fundingFromTx_own]
  rfl

section Signed

variable (laws : DisplayLaws X) (hsound : Sound X db) (hdist : AddressesDistinct X db)
  {id : SubnetId} (hs : db.getSubnetState X id = some s)
include laws hsound hdist hs

theorem Carries.fromTx_stake {pubkey : XOnlyPublicKey}
    (h : Carries tx ipcStakeTag pubkey.bytes ⟨value, s.committee.multisigAddress.scriptPubkey⟩)
    (hkey : X.onCurve pubkey = true) :
    IpcStakeCollateralMsg.fromTx X db tx = .ok ⟨s.id, value, pubkey⟩ := by
  have hlen : ipcTagLength + pubkey.bytes.length = ipcTagLength + schnorrPublicKeySize := by
    rw [pubkey.length_eq]
    rfl
  unfold IpcStakeCollateralMsg.fromTx
  rw [h.taggedData_own _ hlen]
  simp only [ok_bind, h.drop_tag, FixedBytes.ofList?_bytes, Option.filter_some, hkey, if_true,
    okOr, index_eq_ok.mpr h.second, h.payedSubnet_eq laws hsound hdist hs]
  rfl

omit laws hsound hdist hs in
/-- The signature of a key is found for the validator of the committee with this key. -/
theorem signingValidator_signed (hschnorr : SchnorrLaws X) (sk : X.SecretKey)
    {digest : XOnlyPublicKey → Outcome IpcLibError X.Digest} {D : XOnlyPublicKey → X.Digest}
    (hdigest : ∀ k, digest k = .ok (D k)) :
    signingValidator X s (X.signSchnorr sk (D (X.xOnlyPublicKey sk))) digest =
      okOr (s.committee.findValidator (X.xOnlyPublicKey sk)) (invalidMsg
        "Signature doesn't match any of the validators in the committee for subnet \x7b\x7d") := by
  have htest : ∀ v ∈ s.committee.validators, (do
      let d ← digest v.pubkey
      return X.verifySchnorr (X.signSchnorr sk (D (X.xOnlyPublicKey sk))) d v.pubkey :
        Outcome IpcLibError Bool) = .ok (decide (v.pubkey = X.xOnlyPublicKey sk)) := by
    intro v _
    rw [hdigest, ok_bind]
    refine congrArg Except.ok (Bool.eq_iff_iff.mpr ?_)
    rw [decide_eq_true_iff]
    constructor
    · intro hv
      exact hschnorr.exact sk _ _ _ hv
    · intro hk
      rw [hk]
      exact hschnorr.complete sk _
  rw [signingValidator, findFirst_of_forall htest]
  rfl

theorem Carries.fromTx_unstake (hschnorr : SchnorrLaws X) {sk : X.SecretKey} {prev : Txid}
    {amount : Amount} {sig : Signature} {t : Txid20} (hid : s.id = .fromTxid20 t)
    (hsig : sig = X.signSchnorr sk (X.sha256 (prev.bytes ++ (X.xOnlyPublicKey sk).bytes ++
      toBe amountSize amount ++ t.bytes)))
    (h : Carries tx ipcUnstakeTag (sig.bytes ++ toBe amountSize amount)
      ⟨value, s.committee.multisigAddress.scriptPubkey⟩)
    (hprev : firstPrevTxid ipcUnstakeTag tx = .ok prev) (hamount : amount < amountBound) :
    IpcUnstakeCollateralMsg.fromTx X db tx = (do
      let v ← okOr (s.committee.findValidator (X.xOnlyPublicKey sk)) (invalidMsg
        "Signature doesn't match any of the validators in the committee for subnet \x7b\x7d")
      return ⟨s.id, amount, some v.pubkey⟩) := by
  have hlen : ipcTagLength + (sig.bytes ++ toBe amountSize amount).length =
      IpcUnstakeCollateralMsg.dataLen := by
    rw [List.length_append, sig.length_eq, length_toBe]
    rfl
  have hread : IpcUnstakeCollateralMsg.signatureAndAmount
      (tagBytes ipcUnstakeTag ++ (sig.bytes ++ toBe amountSize amount)) = .ok (sig, amount) := by
    have hslice : (slice (tagBytes ipcUnstakeTag ++ (sig.bytes ++ toBe amountSize amount))
        ipcTagLength (ipcTagLength + schnorrSignatureSize) : Outcome IpcLibError _) =
          .ok sig.bytes := by
      rw [slice_of_le (Nat.le_add_right _ _) ?_]
      · rw [h.drop_tag, Nat.add_sub_cancel_left]
        exact congrArg Except.ok (List.take_left' sig.length_eq)
      · rw [List.length_append, List.length_append, h.tag_length, sig.length_eq]
        exact Nat.add_le_add_left (Nat.le_add_right _ _) _
    have hrest : (tagBytes ipcUnstakeTag ++ (sig.bytes ++ toBe amountSize amount)).drop
        (ipcTagLength + schnorrSignatureSize) = toBe amountSize amount := by
      rw [← List.drop_drop, h.drop_tag]
      exact List.drop_left' sig.length_eq
    have hbe : FixedBytes.ofList? 8 (toBe amountSize amount) =
        some ⟨toBe amountSize amount, length_toBe _ _⟩ :=
      FixedBytes.ofList?_eq_some.mpr rfl
    simp only [IpcUnstakeCollateralMsg.signatureAndAmount, hslice, hrest, hbe, ok_bind, okOr,
      FixedBytes.ofList?_bytes]
    rw [fromBe_toBe_of_lt hamount]
    rfl
  have hdigest : ∀ k, (IpcUnstakeCollateralMsg.makeSignatureMsg X prev k amount s.id :
      Outcome IpcLibError X.Digest) =
        .ok (X.sha256 (prev.bytes ++ k.bytes ++ toBe amountSize amount ++ t.bytes)) := by
    intro k
    rw [IpcUnstakeCollateralMsg.makeSignatureMsg, hid, SubnetId.txid20_fromTxid20]
    rfl
  unfold IpcUnstakeCollateralMsg.fromTx
  rw [h.taggedData_own _ hlen]
  simp only [ok_bind, hread, h.payedSubnet_eq laws hsound hdist hs, hprev]
  rw [hsig, signingValidator_signed hschnorr sk hdigest]

theorem Carries.fromTx_kill (hschnorr : SchnorrLaws X) {sk : X.SecretKey} {prev : Txid}
    {sig : Signature} {t : Txid20} (hid : s.id = .fromTxid20 t)
    (hsig : sig = X.signSchnorr sk (X.sha256 (prev.bytes ++ (X.xOnlyPublicKey sk).bytes ++
      t.bytes)))
    (h : Carries tx ipcKillSubnetTag sig.bytes
      ⟨value, s.committee.multisigAddress.scriptPubkey⟩)
    (hprev : firstPrevTxid ipcKillSubnetTag tx = .ok prev) :
    IpcKillSubnetMsg.fromTx X db tx = (do
      let v ← okOr (s.committee.findValidator (X.xOnlyPublicKey sk)) (invalidMsg
        "Signature doesn't match any of the validators in the committee for subnet \x7b\x7d")
      return ⟨s.id, some v.pubkey⟩) := by
  have hlen : ipcTagLength + sig.bytes.length = IpcKillSubnetMsg.dataLen := by
    rw [sig.length_eq]
    rfl
  have hslice : (slice (tagBytes ipcKillSubnetTag ++ sig.bytes)
      ipcTagLength (ipcTagLength + schnorrSignatureSize) : Outcome IpcLibError _) =
        .ok sig.bytes := by
    rw [slice_of_le (Nat.le_add_right _ _) ?_]
    · rw [h.drop_tag, Nat.add_sub_cancel_left]
      exact congrArg Except.ok (List.take_of_length_le (le_of_eq sig.length_eq))
    · rw [List.length_append, h.tag_length, sig.length_eq]
      exact le_rfl
  have hdigest : ∀ k, (IpcKillSubnetMsg.makeSignatureMsg X prev k s.id :
      Outcome IpcLibError X.Digest) = .ok (X.sha256 (prev.bytes ++ k.bytes ++ t.bytes)) := by
    intro k
    rw [IpcKillSubnetMsg.makeSignatureMsg, hid, SubnetId.txid20_fromTxid20]
    rfl
  unfold IpcKillSubnetMsg.fromTx
  rw [h.taggedData_own _ hlen]
  simp only [ok_bind, hslice, FixedBytes.ofList?_bytes, okOr,
    h.payedSubnet_eq laws hsound hdist hs, hprev]
  rw [hsig, signingValidator_signed hschnorr sk hdigest]
  rfl

end Signed

end Subnets

end Monitor
