import BitcoinIpc.CheckpointPlans
import BitcoinIpc.KillPayout

/-!
# What a checkpoint request asks for

The message that a request leads to, the committee it hands over to, the batch
that is serialized, the outputs that are laid out and the inputs that pay them,
each as a function or a relation of the request, the state of the subnet and the
unspent outputs. Nothing here can panic: an id that is not of twenty bytes is read
as zeros, and sums are not bounded. What the provider computes is equal to it where
it computes anything.
-/

namespace Messages

open Faults Bytes Chain Crates Multisig Db Grouping

/-- The twenty bytes of an id, or zeros. -/
def SubnetId.idBytes (s : SubnetId) : Txid20 :=
  (s.txid20 : Outcome Empty Txid20).toOption.getD (FixedBytes.zeros 20)

theorem SubnetId.idBytes_eq {ε : Type} {s : SubnetId} {t : Txid20}
    (h : (s.txid20 : Outcome ε Txid20) = .ok t) : s.idBytes = t := by
  have hempty : (s.txid20 : Outcome Empty Txid20) = .ok t :=
    SubnetId.txid20_eq_ok.mpr (SubnetId.txid20_eq_ok.mp h)
  rw [idBytes, hempty]
  rfl

namespace IpcCheckpointSubnetMsg

section Outputs

variable (X : Library) (m : IpcCheckpointSubnetMsg) (σ : MapOrders) (feeRate : FeeRate)
  (a : Address)

def nativeRecord (t : IpcCrossSubnetTransfer) : Txid20 × EthAddress × Amount :=
  (t.destinationSubnetId.idBytes, t.subnetUserAddress, t.amount)

def ercRecord (e : IpcCrossSubnetErcTransfer) : Txid20 × IpcCrossSubnetErcTransferWire :=
  (e.destinationSubnetId.idBytes, ⟨e.homeSubnetId, e.homeTokenAddress, e.amount, e.recipient⟩)

/-- The batch as it is to be serialized. -/
def requestedWire : BatchTransferWireData :=
  ⟨grouped σ.native (m.transfers.map nativeRecord), m.tokenRegistrations,
    m.tokenSupplyAdjustments, grouped σ.erc (m.tokenTransfers.map ercRecord)⟩

/-- The data that is committed to, if the batch can be serialized. -/
def requestedData : Option (List UInt8) :=
  (X.encodeBatch (m.requestedWire σ)).map (tagBytes ipcTransferTag ++ ·)

/-- The fee of the reveal of some data, if it can be computed. -/
def revealFee (data : List UInt8) : Option Amount :=
  X.feeWu feeRate (X.weight (revealTransaction ⟨FixedBytes.zeros 32, 0⟩
    [makePushDataScript data, X.controlBlock (makePushDataScript data)]
    ⟨X.minimalNonDustCustom a.scriptPubkey feeRate, a.scriptPubkey⟩))

/-- What the reveal of some data costs: its output and its fee. -/
def revealCost (fee : Amount) : Nat := X.minimalNonDustCustom a.scriptPubkey feeRate + fee

/-- The commit output, which pays the reveal. -/
def commitOut (data : List UInt8) (fee : Amount) : TxOut :=
  ⟨max (max (X.minimalNonDustCustom (commitScriptOf X data) feeRate)
    (X.minimalNonDust (commitScriptOf X data))) (revealCost X feeRate a fee), commitScriptOf X data⟩

/-- The amounts and the addresses of the transfers, under their destinations. -/
def destinationRecords : List (Txid20 × Amount × Address) :=
  m.transfers.filterMap (fun t => t.subnetMultisigAddress.map
    (fun a => (t.destinationSubnetId.idBytes, t.amount, a)))

def destinationOut (e : Txid20 × List (Amount × Address)) : TxOut :=
  ⟨(e.2.map Prod.fst).sum, (e.2.head?.map (·.2.scriptPubkey)).getD []⟩

/-- The outputs of the batch, unless it cannot be serialized or its reveal has no fee. -/
def batchOuts : Option (List TxOut) :=
  if m.hasBatch then do
    let data ← m.requestedData X σ
    let fee ← revealFee X feeRate a data
    return commitOut X feeRate a data fee ::
      (grouped σ.outputs m.destinationRecords).map destinationOut
  else some []

/-- The outputs of the checkpoint, from the first to the last, without the change. -/
def laidOut : Option (List TxOut) :=
  (m.batchOuts X σ feeRate a).map fun batch =>
    metadataOut X m m.subnetId.idBytes feeRate :: (m.withdrawals.map withdrawalOut ++ batch) ++
      m.unstakes.map unstakeOut

end Outputs

section Agreement

variable {X : Library} {m : IpcCheckpointSubnetMsg} {σ : MapOrders} {feeRate : FeeRate}
  {a : Address} {committee : SubnetCommittee}

theorem nativeEntry_requested {ε : Type} {t : IpcCrossSubnetTransfer}
    {e : Txid20 × EthAddress × Amount} (h : (nativeEntry t : Outcome ε _) = .ok e) :
    nativeRecord t = e := by
  obtain ⟨id, hid, h⟩ := bind_eq_ok.mp h
  cases h
  rw [nativeRecord, SubnetId.idBytes_eq hid]

theorem ercEntry_requested {ε : Type} {t : IpcCrossSubnetErcTransfer}
    {e : Txid20 × IpcCrossSubnetErcTransferWire} (h : (ercEntry t : Outcome ε _) = .ok e) :
    ercRecord t = e := by
  obtain ⟨id, hid, h⟩ := bind_eq_ok.mp h
  cases h
  rw [ercRecord, SubnetId.idBytes_eq hid]

/-- What is made of each element is what is asked for. -/
theorem map_of_traverse {ε α β : Type} {f : α → Outcome ε β} {g : α → β}
    (hfg : ∀ x b, f x = .ok b → g x = b) {l : List α} {r : List β}
    (h : traverseList f l = .ok r) : l.map g = r := by
  have hsame : l.map g = r.map id := map_of_forall₂ (traverse_eq_ok.mp h)
    (fun x _ b hb => hfg x b hb)
  rw [hsame, List.map_id]

theorem wireData_requested {ε : Type} {wire : BatchTransferWireData}
    (h : (m.wireData σ : Outcome ε _) = .ok wire) : m.requestedWire σ = wire := by
  obtain ⟨native, hnative, h⟩ := bind_eq_ok.mp h
  obtain ⟨erc, herc, h⟩ := bind_eq_ok.mp h
  cases h
  rw [requestedWire, map_of_traverse (fun _ _ => nativeEntry_requested) hnative,
    map_of_traverse (fun _ _ => ercEntry_requested) herc]

theorem makeBatchedTransferData_requested {data : List UInt8}
    (h : m.makeBatchedTransferData X σ = .ok data) : m.requestedData X σ = some data := by
  obtain ⟨wire, hwire, h⟩ := bind_eq_ok.mp h
  obtain ⟨binary, hbinary, h⟩ := bind_eq_ok.mp h
  cases h
  rw [requestedData, wireData_requested hwire, okOr_eq_ok.mp hbinary]
  rfl

theorem makeBatchedTransfer_requested {made : TxOut × List (List UInt8) × TxOut}
    (h : m.makeBatchedTransfer X σ feeRate a = .ok made) :
    ∃ data fee, m.requestedData X σ = some data ∧ revealFee X feeRate a data = some fee ∧
      made.1 = commitOut X feeRate a data fee := by
  obtain ⟨data, hdata, h⟩ := bind_eq_ok.mp h
  obtain ⟨fee, hfee, h⟩ := bind_eq_ok.mp h
  obtain ⟨cost, hcost, h⟩ := bind_eq_ok.mp h
  cases h
  refine ⟨data, fee, makeBatchedTransferData_requested hdata, okOr_eq_ok.mp hfee, ?_⟩
  rw [commitOut, revealCost, (addAmount_eq_ok.mp hcost).2]
  rfl

theorem transferEntries_requested {entries : List (Txid20 × Amount × Address)}
    (h : transferEntries [] m.transfers = .ok entries) : m.destinationRecords = entries := by
  obtain ⟨new, hnew, hrel⟩ := transferEntries_eq_ok h
  rw [List.nil_append] at hnew
  subst hnew
  clear h
  unfold destinationRecords
  generalize m.transfers = l at hrel
  induction hrel with
  | nil => rfl
  | cons hentry _ ih =>
    obtain ⟨hid, hamount, haddress⟩ := hentry
    rw [List.filterMap_cons, haddress, Option.map_some]
    dsimp only
    rw [ih, SubnetId.idBytes_eq hid, hamount]

theorem destinationOutput_requested {ε : Type} {e : Txid20 × List (Amount × Address)} {o : TxOut}
    (h : (destinationOutput e : Outcome ε TxOut) = .ok o) : destinationOut e = o := by
  obtain ⟨first, hfirst, h⟩ := bind_eq_ok.mp h
  obtain ⟨-, rfl⟩ := payment_eq_ok.mp h
  rw [destinationOut, List.head?_eq_getElem?, index_eq_ok.mp hfirst]
  rfl

theorem batchOutputs_requested {batch : List TxOut}
    (h : m.batchOutputs X σ committee feeRate = .ok batch) :
    m.batchOuts X σ feeRate committee.multisigAddress = some batch := by
  unfold batchOutputs at h
  unfold batchOuts
  by_cases hb : m.hasBatch = true
  · rw [if_pos hb] at h ⊢
    obtain ⟨a, ha, h⟩ := bind_eq_ok.mp h
    obtain ⟨⟨commit, w, o⟩, hmade, h⟩ := bind_eq_ok.mp h
    obtain ⟨entries, hentries, h⟩ := bind_eq_ok.mp h
    obtain ⟨outs, houts, h⟩ := bind_eq_ok.mp h
    cases h
    obtain ⟨-, rfl⟩ := Address.requireNetwork_eq_ok.mp ha
    obtain ⟨data, fee, hdata, hfee, hcommit⟩ := makeBatchedTransfer_requested hmade
    rw [hdata, Option.bind_eq_bind, Option.bind_some, hfee, Option.bind_eq_bind,
      Option.bind_some, transferEntries_requested hentries,
      map_of_traverse (fun _ _ => destinationOutput_requested) houts, ← hcommit]
    rfl
  · rw [if_neg hb] at h ⊢
    cases h
    rfl

/-- The outputs that are computed are the ones asked for. -/
theorem checkpointOutputs_requested {outs : List TxOut}
    (h : m.checkpointOutputs X σ committee feeRate = .ok outs) :
    m.laidOut X σ feeRate committee.multisigAddress = some outs := by
  obtain ⟨id, batch, hid, hbatch, -, rfl⟩ := checkpointOutputs_eq_ok h
  rw [laidOut, batchOutputs_requested hbatch, SubnetId.idBytes_eq hid]
  rfl

end Agreement

section Change

variable (X : Library) (committee next : SubnetCommittee) (feeRate : FeeRate)
  (unspent : List Utxo) (outs : List TxOut)

/-- The change that is looked up: the first output of the message to the committee, and else what
is left. -/
def supposedChange : Amount :=
  ((ownOutput next outs).map TxOut.value).getD (leftover X committee next feeRate unspent outs)

/-- The wallet pays the outputs, an additional amount and the fee. -/
def Covered (additional : Amount) : Prop :=
  unspent ≠ [] ∧ ∃ fee, sweepFee X (multisigSpendMaxWitnessSize committee.validatorWeightedKeys
    committee.threshold) next.multisigAddress unspent outs feeRate = some fee ∧
      valueOf outs + additional + fee ≤ worth unspent

/-- The wallet pays the outputs: all of it, or the largest of its entries. -/
def Payable (m : IpcCheckpointSubnetMsg) : Prop :=
  if (!committee.sameAs next || m.isKillCheckpoint) = true then
    Covered X committee next feeRate unspent outs 0
  else ∃ taken rest, Taken X feeRate (4 * txInBaseSize +
      multisigSpendMaxWitnessSize committee.validatorWeightedKeys committee.threshold)
    (valueOf outs) (noInputs (X.weight (spendTransaction [] (outs ++
      [⟨X.minimalNonDust next.multisigAddress.scriptPubkey,
        next.multisigAddress.scriptPubkey⟩])))) (sortUtxos unspent) taken rest

/-- A kill checkpoint shares a change among its unstakes. -/
def SharesChange (m : IpcCheckpointSubnetMsg) : Prop :=
  m.isKillCheckpoint = true ∧ m.unstakes ≠ [] ∧
    0 < supposedChange X committee next feeRate unspent outs ∧
    0 < (m.unstakes.map IpcUnstake.amount).sum

end Change

/-- The checkpoint of a message is paid by the wallet, also after its change is shared. -/
def Built (X : Library) (m : IpcCheckpointSubnetMsg) (σ : MapOrders)
    (committee next : SubnetCommittee) (feeRate : FeeRate) (unspent : List Utxo) : Prop :=
  ∃ outs, m.laidOut X σ feeRate committee.multisigAddress = some outs ∧
    Payable X committee next feeRate unspent outs m ∧
    (SharesChange X committee next feeRate unspent outs m → Covered X committee next feeRate unspent
      outs (supposedChange X committee next feeRate unspent outs))

end IpcCheckpointSubnetMsg

end Messages

namespace Provider

open Faults Bytes Chain Messages Crates Multisig Db

variable (X : Library) (db : HeedDb) (s : SubnetState) (r : CheckpointRequest)

/-- The subnet is due to be killed. -/
def isDue : Bool := (s.shouldKill : Outcome Empty Bool).toOption.getD false

/-- A transfer with the address of its destination, if that exists. -/
def addressed (t : IpcCrossSubnetTransfer) : IpcCrossSubnetTransfer :=
  { t with subnetMultisigAddress :=
      (db.getSubnetState X t.destinationSubnetId).map (·.committee.multisigAddress) }

/-- The message that the request leads to. -/
def requestedMsg : IpcCheckpointSubnetMsg :=
  let m := { r.toMsg with transfers := r.toMsg.transfers.map (addressed X db) }
  if isDue s then { m with isKillCheckpoint := true, unstakes := killUnstakes s }
  else if s.committee.configurationNumber < r.nextCommitteeConfigurationNumber then
    { m with unstakes := pendingUnstakes X db s r.subnetId }
  else m

/-- The committee that the checkpoint hands over to. -/
def requestedCommittee : SubnetCommittee :=
  if isDue s then s.committee
  else if s.committee.configurationNumber < r.nextCommitteeConfigurationNumber then
    ((db.getStakeChange X r.subnetId r.nextCommitteeConfigurationNumber).map
      (·.committeeAfterChange)).getD s.committee
  else s.committee

/-- The number that is asked for leads to a committee. -/
def Rotatable : Prop :=
  isDue s = true ∨
    (s.committee.configurationNumber < r.nextCommitteeConfigurationNumber ∧
      (db.getStakeChange X r.subnetId r.nextCommitteeConfigurationNumber).isSome = true) ∨
    r.nextCommitteeConfigurationNumber = 0 ∨
    r.nextCommitteeConfigurationNumber = s.committee.configurationNumber

section Planned

variable {X db s r} {m : IpcCheckpointSubnetMsg} {next : SubnetCommittee} {unspent : List Utxo}

theorem isDue_eq {ε : Type} {b : Bool} (h : (s.shouldKill : Outcome ε Bool) = .ok b) :
    isDue s = b := by
  have hempty : (s.shouldKill : Outcome Empty Bool) = .ok b := by
    unfold SubnetState.shouldKill at h ⊢
    split_ifs at h ⊢
    · split at h
      · exact congrArg Except.ok (Except.ok.inj h)
      · obtain ⟨_, hle, h⟩ := bind_eq_ok.mp h
        exact bind_eq_ok.mpr ⟨(), assertThat_eq_ok.mpr (assertThat_eq_ok.mp hle),
          congrArg Except.ok (Except.ok.inj h)⟩
      · exact congrArg Except.ok (Except.ok.inj h)
    · exact congrArg Except.ok (Except.ok.inj h)
  rw [isDue, hempty]
  rfl

theorem updateSubnetsForTransfer_requested
    (h : r.toMsg.updateSubnetsForTransfer X db = .ok m) :
    m = { r.toMsg with transfers := r.toMsg.transfers.map (addressed X db) } := by
  obtain ⟨ts, rfl, hts⟩ := updateSubnetsForTransfer_inv h
  have hsame : r.toMsg.transfers.map (addressed X db) = ts.map id := by
    refine map_of_forall₂ hts ?_
    rintro t - t' ⟨s', hs', rfl⟩
    rw [addressed, hs']
    rfl
  rw [hsame, List.map_id]

/-- The plan that is made is the one asked for. -/
theorem plannedCheckpoint_requested (hs : db.getSubnetState X r.subnetId = some s)
    (h : plannedCheckpoint X db r unspent = .ok (m, next)) :
    Rotatable X db s r ∧ m = requestedMsg X db s r ∧ next = requestedCommittee X db s r := by
  obtain ⟨s', hs', h⟩ := bind_eq_ok.mp h
  obtain rfl := Option.some.inj (hs.symm.trans (okOr_eq_ok.mp hs'))
  obtain ⟨kill, hkill, h⟩ := bind_eq_ok.mp h
  obtain ⟨m', hm', h⟩ := bind_eq_ok.mp h
  have hdue := isDue_eq hkill
  obtain rfl := updateSubnetsForTransfer_requested (mapErr_eq_ok.mp hm')
  unfold planRotation at h
  dsimp only at h
  unfold Rotatable requestedMsg requestedCommittee
  split_ifs at h with hkilled hlt hn
  · obtain ⟨_, -, h⟩ := bind_eq_ok.mp h
    cases h
    rw [hkilled] at hdue
    exact ⟨Or.inl hdue, (if_pos hdue).symm, (if_pos hdue).symm⟩
  · obtain ⟨c, hc, h⟩ := bind_eq_ok.mp h
    obtain ⟨_, -, h⟩ := bind_eq_ok.mp h
    cases h
    have hc : db.getStakeChange X r.subnetId r.nextCommitteeConfigurationNumber = some c :=
      okOr_eq_ok.mp hc
    have hlt : s.committee.configurationNumber < r.nextCommitteeConfigurationNumber := hlt
    have hgoes : ¬ isDue s = true := hdue ▸ hkilled
    refine ⟨Or.inr (Or.inl ⟨hlt, by rw [hc]; rfl⟩), ?_, ?_⟩
    · rw [if_neg hgoes]
      exact (if_pos hlt).symm
    · rw [if_neg hgoes, if_pos hlt, hc]
      rfl
  · cases h
    have hgoes : ¬ isDue s = true := hdue ▸ hkilled
    refine ⟨Or.inr (Or.inr hn), ?_, ?_⟩
    · rw [if_neg hgoes]
      exact (if_neg hlt).symm
    · rw [if_neg hgoes]
      exact (if_neg hlt).symm
  · cases h

end Planned

end Provider
