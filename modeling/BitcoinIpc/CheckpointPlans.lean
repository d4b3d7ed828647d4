import BitcoinIpc.CheckpointRoundTrip
import BitcoinIpc.Provider

/-!
# The plan of a checkpoint

What a request goes through before its checkpoint is built: the message is
checked, the addresses of the destinations are filled in, and the kill state of
the subnet and the number that is asked for decide on the unstakes and on the
committee that the checkpoint hands over to.
-/

namespace Provider

open Faults Chain Messages Crates Multisig Db

variable {X : Library} {db : HeedDb} {r : CheckpointRequest} {s : SubnetState}
  {m m' : IpcCheckpointSubnetMsg} {next : SubnetCommittee} {unspent : List Utxo}

variable (X) in
/-- The message and the next committee that the provider hands to the builder. -/
def plannedCheckpoint (db : HeedDb) (r : CheckpointRequest) (unspent : List Utxo) :
    Outcome RpcError (IpcCheckpointSubnetMsg × SubnetCommittee) := do
  let s ← okOr (db.getSubnetState X r.subnetId) (.invalidParams "Subnet \x7b\x7d not found.")
  let shouldKill ← s.shouldKill
  let m ← orInvalidParams "\x7b\x7d" (r.toMsg.updateSubnetsForTransfer X db)
  planRotation X db s shouldKill m unspent

/-- The three plans of the provider: to kill the subnet, to rotate, or neither. -/
inductive Plan (X : Library) (db : HeedDb) (s : SubnetState) (m : IpcCheckpointSubnetMsg) :
    SubnetCommittee → Prop
  | kill : m.isKillCheckpoint = true → m.unstakes = killUnstakes s → Plan X db s m s.committee
  | rotate {c} : m.isKillCheckpoint = false →
      s.committee.configurationNumber < m.nextCommitteeConfigurationNumber →
      db.getStakeChange X m.subnetId m.nextCommitteeConfigurationNumber = some c →
      m.unstakes = pendingUnstakes X db s m.subnetId → Plan X db s m c.committeeAfterChange
  | keep : m.isKillCheckpoint = false →
      m.nextCommitteeConfigurationNumber ≤ s.committee.configurationNumber →
      m.unstakes = [] → Plan X db s m s.committee

/-- What the provider takes over from the request. -/
structure TakenFrom (r : CheckpointRequest) (m : IpcCheckpointSubnetMsg) : Prop where
  valid : r.toMsg.Valid
  subnetId_eq : m.subnetId = r.subnetId
  number_eq : m.nextCommitteeConfigurationNumber = r.nextCommitteeConfigurationNumber
  height_eq : m.checkpointHeight = r.checkpointHeight
  withdrawals_eq : m.withdrawals = r.withdrawals
  amounts : ∀ t ∈ m.transfers, ∃ t' ∈ r.toMsg.transfers, t'.amount = t.amount

/-- The transfers are kept, each with the address of its destination. -/
theorem updateSubnetsForTransfer_inv (h : m.updateSubnetsForTransfer X db = .ok m') :
    ∃ ts, m' = { m with transfers := ts } ∧
      List.Forall₂ (fun t t' => ∃ s, db.getSubnetState X t.destinationSubnetId = some s ∧
        t' = { t with subnetMultisigAddress := some s.committee.multisigAddress })
        m.transfers ts := by
  obtain ⟨ts, hts, h⟩ := bind_eq_ok.mp h
  cases h
  refine ⟨ts, rfl, (traverse_eq_ok.mp hts).imp (fun t t' htt' => ?_)⟩
  obtain ⟨s, hs, h⟩ := bind_eq_ok.mp htt'
  cases h
  exact ⟨s, okOr_eq_ok.mp hs, rfl⟩

/-- The message and the committee of each plan. -/
theorem planRotation_cases {kill : Bool}
    (h : planRotation X db s kill m unspent = .ok (m', next)) :
    (kill = true ∧ m' = { m with isKillCheckpoint := true, unstakes := killUnstakes s } ∧
      next = s.committee) ∨
    (s.committee.configurationNumber < m.nextCommitteeConfigurationNumber ∧
      ∃ c, db.getStakeChange X m.subnetId m.nextCommitteeConfigurationNumber = some c ∧
        m' = { m with unstakes := pendingUnstakes X db s m.subnetId } ∧
        next = c.committeeAfterChange) ∨
    ((m.nextCommitteeConfigurationNumber = 0 ∨
        m.nextCommitteeConfigurationNumber = s.committee.configurationNumber) ∧
      m' = m ∧ next = s.committee) := by
  unfold planRotation at h
  dsimp only at h
  split_ifs at h with hkill hlt hn
  · obtain ⟨_, -, h⟩ := bind_eq_ok.mp h
    cases h
    exact Or.inl ⟨hkill, rfl, rfl⟩
  · obtain ⟨c, hc, h⟩ := bind_eq_ok.mp h
    obtain ⟨_, -, h⟩ := bind_eq_ok.mp h
    cases h
    exact Or.inr (Or.inl ⟨hlt, c, okOr_eq_ok.mp hc, rfl, rfl⟩)
  · cases h
    exact Or.inr (Or.inr ⟨hn, rfl, rfl⟩)
  · cases h

/-- What held at each step of a request that was answered. -/
structure Generated (X : Library) (σ τ : MapOrders) (db : HeedDb) (r : CheckpointRequest)
    (unspent : List Utxo) (feeRate : FeeRate) (g : GenCheckpointPsbt) (s : SubnetState)
    (next : SubnetCommittee) : Prop where
  valid : r.toMsg.Valid
  found : db.getSubnetState X r.subnetId = some s
  planned : ∃ kill m, (s.shouldKill : Outcome RpcError Bool) = .ok kill ∧
    r.toMsg.updateSubnetsForTransfer X db = .ok m ∧
    planRotation X db s kill m unspent = .ok (g.msg, next)
  tokens : validateErcBatchData X g.msg.subnetId g.msg.tokenRegistrations
    g.msg.tokenSupplyAdjustments g.msg.tokenTransfers db = .ok ()
  psbt : g.msg.toCheckpointPsbt X σ s.committee next feeRate unspent = .ok g.unsignedPsbt
  reveal : g.msg.makeRevealBatchTransferTx X τ (X.computeTxid g.unsignedPsbt.unsignedTx) feeRate
    s.committee.multisigAddress = .ok g.batchTransferTx

section Answered

variable {σ τ : MapOrders} {validator : XOnlyPublicKey} {feeRate : FeeRate} {g : GenCheckpointPsbt}

theorem genCheckpointPsbt_inv
    (h : genCheckpointPsbt X σ τ db validator r unspent feeRate = .ok g) :
    ∃ s next, Generated X σ τ db r unspent feeRate g s next := by
  obtain ⟨_, hvalid, h⟩ := bind_eq_ok.mp h
  obtain ⟨s, hs, h⟩ := bind_eq_ok.mp h
  obtain ⟨_, -, h⟩ := bind_eq_ok.mp h
  obtain ⟨_, -, h⟩ := bind_eq_ok.mp h
  obtain ⟨kill, hkill, h⟩ := bind_eq_ok.mp h
  obtain ⟨m, hm, h⟩ := bind_eq_ok.mp h
  obtain ⟨⟨m', next⟩, hplan, h⟩ := bind_eq_ok.mp h
  obtain ⟨_, htokens, h⟩ := bind_eq_ok.mp h
  obtain ⟨psbt, hpsbt, h⟩ := bind_eq_ok.mp h
  obtain ⟨a, ha, h⟩ := bind_eq_ok.mp h
  obtain ⟨reveal, hreveal, h⟩ := bind_eq_ok.mp h
  cases h
  obtain ⟨-, rfl⟩ := Address.requireNetwork_eq_ok.mp ha
  exact ⟨s, next, IpcCheckpointSubnetMsg.validate_eq_ok.mp (mapErr_eq_ok.mp hvalid),
    okOr_eq_ok.mp hs, ⟨kill, m, hkill, mapErr_eq_ok.mp hm, hplan⟩, mapErr_eq_ok.mp htokens,
    mapErr_eq_ok.mp hpsbt, mapErr_eq_ok.mp hreveal⟩

theorem Generated.plannedCheckpoint_eq
    (h : Generated X σ τ db r unspent feeRate g s next) :
    plannedCheckpoint X db r unspent = .ok (g.msg, next) := by
  obtain ⟨kill, m, hkill, hm, hplan⟩ := h.planned
  exact bind_eq_ok.mpr ⟨s, okOr_eq_ok.mpr h.found, bind_eq_ok.mpr ⟨kill, hkill,
    bind_eq_ok.mpr ⟨m, mapErr_eq_ok.mpr hm, hplan⟩⟩⟩

theorem Generated.taken_plan
    (h : Generated X σ τ db r unspent feeRate g s next) :
    TakenFrom r g.msg ∧ Plan X db s g.msg next := by
  obtain ⟨kill, m, -, hm, hplan⟩ := h.planned
  obtain ⟨ts, rfl, hts⟩ := updateSubnetsForTransfer_inv hm
  have hamounts : ∀ t ∈ ts, ∃ t' ∈ r.toMsg.transfers, t'.amount = t.amount := by
    intro t ht
    obtain ⟨t', ht', _, -, heq⟩ := exists_of_forall₂ hts ht
    exact ⟨t', ht', by rw [heq]⟩
  rcases planRotation_cases hplan with ⟨-, hmsg, rfl⟩ | ⟨hlt, c, hc, hmsg, rfl⟩ | ⟨hn, hmsg, rfl⟩
  · rw [hmsg]
    exact ⟨⟨h.valid, rfl, rfl, rfl, rfl, hamounts⟩, .kill rfl rfl⟩
  · rw [hmsg]
    exact ⟨⟨h.valid, rfl, rfl, rfl, rfl, hamounts⟩, .rotate rfl hlt hc rfl⟩
  · rw [hmsg]
    refine ⟨⟨h.valid, rfl, rfl, rfl, rfl, hamounts⟩, .keep rfl ?_ rfl⟩
    rcases hn with hn | hn
    · exact hn ▸ Nat.zero_le _
    · exact le_of_eq hn

/-- The records of the request are kept, and its transfers get the addresses of their
destinations. -/
theorem Generated.records (h : Generated X σ τ db r unspent feeRate g s next) :
    g.msg.tokenRegistrations = r.tokenRegistrations ∧
      g.msg.tokenSupplyAdjustments = r.tokenSupplyAdjustments ∧
      g.msg.tokenTransfers = r.tokenTransfers ∧
      List.Forall₂ (fun t t' => ∃ s, db.getSubnetState X t.destinationSubnetId = some s ∧
        t' = { t with subnetMultisigAddress := some s.committee.multisigAddress })
        r.toMsg.transfers g.msg.transfers := by
  obtain ⟨kill, m, -, hm, hplan⟩ := h.planned
  obtain ⟨ts, rfl, hts⟩ := updateSubnetsForTransfer_inv hm
  rcases planRotation_cases hplan with ⟨-, hmsg, -⟩ | ⟨-, c, -, hmsg, -⟩ | ⟨-, hmsg, -⟩
  · rw [hmsg]
    exact ⟨rfl, rfl, rfl, hts⟩
  · rw [hmsg]
    exact ⟨rfl, rfl, rfl, hts⟩
  · rw [hmsg]
    exact ⟨rfl, rfl, rfl, hts⟩

/-- What the provider returns is a message of the request, with the unstakes of the
rotation if it rotates and does not kill, and its transaction. -/
theorem genCheckpointPsbt_eq_ok
    (h : genCheckpointPsbt X σ τ db validator r unspent feeRate = .ok g) :
    ∃ s next, db.getSubnetState X r.subnetId = some s ∧ g.msg.subnetId = r.subnetId ∧
      g.msg.nextCommitteeConfigurationNumber = r.nextCommitteeConfigurationNumber ∧
      g.msg.checkpointHeight = r.checkpointHeight ∧
      (g.msg.isKillCheckpoint = true ∨
        (s.committee.configurationNumber < r.nextCommitteeConfigurationNumber ∧
          (∃ c, db.getStakeChange X r.subnetId r.nextCommitteeConfigurationNumber = some c) ∧
          g.msg.unstakes = pendingUnstakes X db s r.subnetId) ∨
        (r.nextCommitteeConfigurationNumber ≤ s.committee.configurationNumber ∧
          g.msg.unstakes = [])) ∧
      g.msg.toCheckpointPsbt X σ s.committee next feeRate unspent = .ok g.unsignedPsbt := by
  obtain ⟨s, next, hgen⟩ := genCheckpointPsbt_inv h
  obtain ⟨htaken, hplan⟩ := hgen.taken_plan
  refine ⟨s, next, hgen.found, htaken.subnetId_eq, htaken.number_eq, htaken.height_eq, ?_,
    hgen.psbt⟩
  rw [← htaken.subnetId_eq, ← htaken.number_eq]
  cases hplan with
  | kill hkill _ => exact Or.inl hkill
  | rotate _ hlt hc hunst => exact Or.inr (Or.inl ⟨hlt, ⟨_, hc⟩, hunst⟩)
  | keep _ hle hunst => exact Or.inr (Or.inr ⟨hle, hunst⟩)

/-- What the provider returns is built from its plan. -/
theorem genCheckpointPsbt_planned
    (h : genCheckpointPsbt X σ τ db validator r unspent feeRate = .ok g) :
    ∃ s next, db.getSubnetState X r.subnetId = some s ∧
      plannedCheckpoint X db r unspent = .ok (g.msg, next) ∧ TakenFrom r g.msg ∧
      Plan X db s g.msg next ∧
      g.msg.toCheckpointPsbt X σ s.committee next feeRate unspent = .ok g.unsignedPsbt := by
  obtain ⟨s, next, hgen⟩ := genCheckpointPsbt_inv h
  obtain ⟨htaken, hplan⟩ := hgen.taken_plan
  exact ⟨s, next, hgen.found, hgen.plannedCheckpoint_eq, htaken, hplan, hgen.psbt⟩

end Answered

end Provider
