import BitcoinIpc.CheckpointAcceptance
import BitcoinIpc.KillLifecycle
import BitcoinIpc.PsbtPanics

/-!
# Checkpoint requests that stop the provider

Where `gen_checkpoint_psbt` can panic: in the leftover of a kill checkpoint, which
is computed by subtractions, in the psbt of the message that the request leads to,
and in the reveal of its batch. Nothing else in a request that passes the checks
stops the provider.
-/

namespace Provider

open Faults Bytes Chain Messages Crates Multisig Db Monitor IpcCheckpointSubnetMsg Greedy

variable {X : Library} {db : HeedDb} {validator : XOnlyPublicKey} {r : CheckpointRequest}
  {unspent : List Utxo} {feeRate : FeeRate} {σ τ : MapOrders} {s : SubnetState}
  {m m' : IpcCheckpointSubnetMsg} {next : SubnetCommittee}

/-- What the wallet holds covers the stakes, the withdrawals and the transfers. -/
def KillFits (m : IpcCheckpointSubnetMsg) (s : SubnetState) (unspent : List Utxo) : Prop :=
  worth unspent < amountBound ∧
    stakedCollateral s + (m.withdrawals.map (·.amount)).sum + (m.transfers.map (·.amount)).sum ≤
      worth unspent

theorem ends_killSums : Ends (killSums m s unspent) ↔ KillFits m s unspent := by
  unfold killSums
  constructor
  · intro h
    obtain ⟨htotal, h⟩ := endures_bind.mp h
    have htotal := ends_sumAmounts.mp htotal
    obtain ⟨hstake, h⟩ := endures_bind.mp (h _ (sumAmounts_eq_ok.mpr ⟨htotal, rfl⟩))
    have hstake := ends_sumAmounts.mp hstake
    obtain ⟨htransfers, h⟩ := endures_bind.mp (h _ (sumAmounts_eq_ok.mpr ⟨hstake, rfl⟩))
    have htransfers := ends_sumAmounts.mp htransfers
    obtain ⟨hwithdrawals, h⟩ := endures_bind.mp (h _ (sumAmounts_eq_ok.mpr ⟨htransfers, rfl⟩))
    have hwithdrawals := ends_sumAmounts.mp hwithdrawals
    obtain ⟨hsub, h⟩ := endures_bind.mp (h _ (sumAmounts_eq_ok.mpr ⟨hwithdrawals, rfl⟩))
    have hsub := ends_subAmount.mp hsub
    obtain ⟨hsub', h⟩ := endures_bind.mp (h _ (subAmount_eq_ok.mpr ⟨hsub, rfl⟩))
    have hsub' := ends_subAmount.mp hsub'
    obtain ⟨hsub'', -⟩ := endures_bind.mp (h _ (subAmount_eq_ok.mpr ⟨hsub', rfl⟩))
    have hsub'' := ends_subAmount.mp hsub''
    refine ⟨htotal, ?_⟩
    have h₁ := Nat.add_le_of_le_sub hsub hsub'
    rw [Nat.sub_sub] at hsub''
    rw [Nat.add_comm] at h₁
    have h₂ := Nat.add_le_of_le_sub h₁ hsub''
    rw [Nat.add_comm] at h₂
    exact h₂
  · rintro ⟨htotal, hle⟩
    have hle' := le_trans (Nat.le_add_right _ (m.transfers.map (·.amount)).sum) hle
    have hstake := lt_of_le_of_lt (le_trans (Nat.le_add_right _ _) hle') htotal
    have hwithdrawals := lt_of_le_of_lt (le_trans (Nat.le_add_left _ _) hle') htotal
    have htransfers := lt_of_le_of_lt (le_trans (Nat.le_add_left _ _) hle) htotal
    rw [sumAmounts_eq_ok.mpr ⟨htotal, rfl⟩, ok_bind, sumAmounts_eq_ok.mpr ⟨hstake, rfl⟩, ok_bind,
      sumAmounts_eq_ok.mpr ⟨htransfers, rfl⟩, ok_bind, sumAmounts_eq_ok.mpr ⟨hwithdrawals, rfl⟩,
      ok_bind]
    refine Endures.bind (ends_subAmount.mpr (le_trans (Nat.le_add_right _ _) hle'))
      (fun left hleft => ?_)
    obtain ⟨-, rfl⟩ := subAmount_eq_ok.mp hleft
    refine Endures.bind (ends_subAmount.mpr (Nat.le_sub_of_add_le' hle')) (fun left hleft => ?_)
    obtain ⟨-, rfl⟩ := subAmount_eq_ok.mp hleft
    refine Endures.bind (ends_subAmount.mpr ?_) (fun _ _ => trivial)
    rw [Nat.sub_sub]
    exact Nat.le_sub_of_add_le' hle

theorem raises_killSums {Q : RpcError → Prop} : Raises Q (killSums m s unspent) :=
  (raises_sumAmounts _).bind (fun _ => (raises_sumAmounts _).bind (fun _ =>
    (raises_sumAmounts _).bind (fun _ => (raises_sumAmounts _).bind (fun _ =>
    (raises_subAmount _ _).bind (fun _ => (raises_subAmount _ _).bind (fun _ =>
    (raises_subAmount _ _).bind (fun _ => raises_ok _)))))))

/-- What a plan changes in a message, and the committee it hands over to. -/
structure PlannedFrom (X : Library) (db : HeedDb) (s : SubnetState) (m m' : IpcCheckpointSubnetMsg)
    (next : SubnetCommittee) : Prop where
  changes : ∃ kill us, m' = { m with isKillCheckpoint := kill, unstakes := us }
  unstakes : ∀ u ∈ m'.unstakes, u ∈ m.unstakes ∨
    ∃ v ∈ s.committee.validators, u.address = v.backupAddress
  next_eq : next = s.committee ∨
    ∃ n c, db.getStakeChange X m.subnetId n = some c ∧ next = c.committeeAfterChange

theorem planRotation_eq_ok {kill : Bool}
    (h : planRotation X db s kill m unspent = .ok (m', next)) : PlannedFrom X db s m m' next := by
  rcases planRotation_cases h with ⟨-, rfl, rfl⟩ | ⟨-, c, hc, rfl, rfl⟩ | ⟨-, rfl, rfl⟩
  · refine ⟨⟨_, _, rfl⟩, ?_, Or.inl rfl⟩
    intro u hu
    obtain ⟨v, hv, rfl⟩ := List.mem_map.mp hu
    exact Or.inr ⟨v, hv, rfl⟩
  · refine ⟨⟨_, _, rfl⟩, ?_, Or.inr ⟨_, c, hc, rfl⟩⟩
    intro u hu
    obtain ⟨c, -, hmade⟩ := List.mem_filterMap.mp hu
    split at hmade
    · next v _ hfind _ =>
      cases hmade
      exact Or.inr ⟨v, (SubnetCommittee.findValidator_eq_some hfind).1, rfl⟩
    · cases hmade
  · exact ⟨⟨_, _, rfl⟩, fun u hu => Or.inl hu, Or.inl rfl⟩

theorem ends_planRotation {kill : Bool}
    (hrequests : ∀ n c, db.getStakeChange X m.subnetId n = some c →
      c.committeeAfterChange.multisigAddress.isValidForNetwork = true) :
    Ends (planRotation X db s kill m unspent) ↔ (kill = true → KillFits m s unspent) := by
  unfold planRotation
  dsimp only
  split_ifs with hkill hlt hn
  · rw [← ends_killSums]
    constructor
    · intro h _
      exact (endures_bind.mp h).1
    · intro h
      exact Endures.bind (h hkill) (fun _ _ => trivial)
  · refine iff_of_true ?_ (fun h => absurd h hkill)
    refine Endures.bind (ends_okOr _ _) (fun c hc => ?_)
    rw [Address.requireNetwork_eq_ok.mpr ⟨hrequests _ c (okOr_eq_ok.mp hc), rfl⟩]
    trivial
  · exact iff_of_true trivial (fun h => absurd h hkill)
  · exact iff_of_true trivial (fun h => absurd h hkill)

/-- The destinations of the transfers exist. -/
def Resolvable (X : Library) (db : HeedDb) (r : CheckpointRequest) : Prop :=
  ∀ t ∈ r.transfers, (db.getSubnetState X t.destinationSubnetId).isSome = true

theorem updateSubnetsForTransfer_eq_ok (h : m.updateSubnetsForTransfer X db = .ok m') :
    (∃ ts, m' = { m with transfers := ts }) ∧
      m'.transfers.map (·.amount) = m.transfers.map (·.amount) ∧
      ∀ t ∈ m'.transfers, ∃ s, db.getSubnetState X t.destinationSubnetId = some s ∧
        t.subnetMultisigAddress = some s.committee.multisigAddress := by
  obtain ⟨ts, rfl, hts⟩ := updateSubnetsForTransfer_inv h
  refine ⟨⟨ts, rfl⟩, (map_of_forall₂ hts ?_).symm, ?_⟩
  · rintro t - t' ⟨_, -, rfl⟩
    rfl
  · intro t' ht'
    obtain ⟨t, -, s, hs, rfl⟩ := exists_of_forall₂ hts ht'
    exact ⟨s, hs, rfl⟩

theorem resolvable_iff :
    Resolvable X db r ↔ ∃ m, r.toMsg.updateSubnetsForTransfer X db = .ok m := by
  constructor
  · intro h
    obtain ⟨ts, hts⟩ : ∃ ts, traverseList (fun t => do
        let s ← okOr (db.getSubnetState X t.destinationSubnetId)
          (invalidField "destination_subnet_id" "Subnet \x7b\x7d does not exist")
        return { t with subnetMultisigAddress := some s.committee.multisigAddress })
        r.toMsg.transfers = .ok ts := by
      refine exists_traverseList (fun t ht => ?_)
      obtain ⟨t, hmem, rfl⟩ := List.mem_map.mp ht
      obtain ⟨s, hs⟩ := Option.isSome_iff_exists.mp (h t hmem)
      exact ⟨_, bind_eq_ok.mpr ⟨s, okOr_eq_ok.mpr hs, rfl⟩⟩
    exact ⟨_, bind_eq_ok.mpr ⟨ts, hts, rfl⟩⟩
  · rintro ⟨m, hm⟩ t ht
    obtain ⟨ts, hts, -⟩ := bind_eq_ok.mp hm
    obtain ⟨t', -, h⟩ := exists_of_forall₂ (traverse_eq_ok.mp hts).flip
      (List.mem_map_of_mem (f := TransferRequest.toTransfer) ht)
    obtain ⟨s, hs, -⟩ := bind_eq_ok.mp h
    exact Option.isSome_iff_exists.mpr ⟨s, okOr_eq_ok.mp hs⟩

theorem ends_updateSubnetsForTransfer : Ends (m.updateSubnetsForTransfer X db) := by
  refine Endures.bind (endures_traverseList (fun t _ => ?_)) (fun _ _ => trivial)
  exact (ends_okOr _ _).bind (fun _ _ => trivial)

/-- On a reachable database the planned message has its addresses. -/
theorem resolved_of_planned (laws : DisplayLaws X) (hreach : Reachable X db)
    (hvalid : r.toMsg.Valid) (hs : db.getSubnetState X r.subnetId = some s)
    (hupdate : r.toMsg.updateSubnetsForTransfer X db = .ok m)
    (hplan : PlannedFrom X db s m m' next) :
    m'.Resolved ∧ next.multisigAddress.isValidForNetwork = true := by
  have hsound := sound_of_reachable laws hreach
  have hbacked := backed_of_reachable laws hreach
  obtain ⟨t, ht, -, hgood, -⟩ := hsound.state laws hs
  obtain ⟨⟨ts, rfl⟩, -, hfound⟩ := updateSubnetsForTransfer_eq_ok hupdate
  obtain ⟨⟨kill, us, rfl⟩, hunstakes, hnext⟩ := hplan
  refine ⟨⟨⟨t, ht⟩, fun w hw => (hvalid.withdrawals w hw).2, ?_, ?_⟩, ?_⟩
  · intro a ha
    obtain ⟨s', hs', haddr⟩ := hfound a ha
    obtain ⟨id, hid, -, hgood', -⟩ := hsound.state laws hs'
    exact ⟨id, _, hid, haddr, hgood'.derived.address_valid⟩
  · intro u hu
    rcases hunstakes u hu with hold | ⟨v, hv, haddr⟩
    · cases hold
    · rw [haddr]
      rw [ht] at hs
      exact hbacked.stored t _ (.active hs) v hv
  · rcases hnext with rfl | ⟨n, c, hc, rfl⟩
    · exact hgood.derived.address_valid
    · have hid : r.subnetId = .fromTxid20 t := ht
      have hc' : db.getStakeChange X (.fromTxid20 t) n = some c := hid ▸ hc
      exact (hsound.request laws hc').2.derived.address_valid

/-- The request is for a subnet that runs, from one of its validators, to subnets that exist. -/
structure Admitted (X : Library) (db : HeedDb) (validator : XOnlyPublicKey)
    (r : CheckpointRequest) (s : SubnetState) : Prop where
  found : db.getSubnetState X r.subnetId = some s
  member : s.isValidator validator = true
  alive : ¬ s.isKilled = true
  destinations : Resolvable X db r

/-- The token records of the request pass their check. -/
def TokensValid (X : Library) (db : HeedDb) (r : CheckpointRequest) : Prop :=
  validateErcBatchData X r.subnetId r.tokenRegistrations r.tokenSupplyAdjustments
    r.tokenTransfers db = .ok ()

/-- What the provider computes for a request stays in its bounds: what is left over when the subnet
is due to be killed, the psbt of the message that the request leads to, and the reveal of its batch
when the wallet pays that message. -/
structure RequestFits (X : Library) (σ τ : MapOrders) (db : HeedDb) (validator : XOnlyPublicKey)
    (r : CheckpointRequest) (unspent : List Utxo) (feeRate : FeeRate) : Prop where
  kill : ∀ s, Admitted X db validator r s → isDue s = true → KillFits r.toMsg s unspent
  psbt : ∀ s, Admitted X db validator r s → Rotatable X db s r → TokensValid X db r →
    PsbtFits X (requestedMsg X db s r) σ s.committee (requestedCommittee X db s r) feeRate unspent
  reveal : ∀ s, Admitted X db validator r s → Rotatable X db s r → TokensValid X db r →
    Built X (requestedMsg X db s r) σ s.committee (requestedCommittee X db s r) feeRate unspent →
    (requestedMsg X db s r).hasBatch = true →
    RevealFits X (requestedMsg X db s r) τ feeRate s.committee.multisigAddress

theorem ends_makeRevealBatchTransferTx {txid : Txid} {a : Address} (hm : m.Resolved)
    (htokens : m.hasBatch = true → m.TokensAddressed) :
    Ends (m.makeRevealBatchTransferTx X τ txid feeRate a) ↔
      (m.hasBatch = true → RevealFits X m τ feeRate a) := by
  unfold makeRevealBatchTransferTx
  split_ifs with hbatch
  · have hoff : m.batchTransferCommitOutpoint txid =
        some ⟨txid, 1 + m.withdrawals.length + m.unstakes.length⟩ := if_pos hbatch
    rw [hoff, expect_eq_ok.mpr rfl, ok_bind]
    constructor
    · intro h _
      exact ((ends_makeBatchedTransfer hm).mp (endures_bind.mp h).1).2
    · intro h
      refine Endures.bind ((ends_makeBatchedTransfer hm).mpr ⟨htokens hbatch, h hbatch⟩)
        (fun _ _ => trivial)
  · exact iff_of_true trivial (fun h => absurd h hbatch)

/-- The committees that are recorded have addresses of the network. -/
theorem recorded_address_valid (laws : DisplayLaws X) (hreach : Reachable X db)
    (hs : db.getSubnetState X r.subnetId = some s) (n : Nat) (c : StakeChangeRequest)
    (hc : db.getStakeChange X r.subnetId n = some c) :
    c.committeeAfterChange.multisigAddress.isValidForNetwork = true := by
  have hsound := sound_of_reachable laws hreach
  obtain ⟨t, ht, -⟩ := hsound.state laws hs
  have hid : r.subnetId = .fromTxid20 t := ht
  have hc' : db.getStakeChange X (.fromTxid20 t) n = some c := hid ▸ hc
  exact (hsound.request laws hc').2.derived.address_valid

theorem shouldKill_of_reachable (laws : DisplayLaws X) (hreach : Reachable X db)
    (hs : db.getSubnetState X r.subnetId = some s) :
    (s.shouldKill : Outcome RpcError Bool) = .ok (isDue s) := by
  obtain ⟨t, ht, -⟩ := (sound_of_reachable laws hreach).state laws hs
  obtain ⟨kill, hkill⟩ : ∃ b, (s.shouldKill : Outcome RpcError Bool) = .ok b :=
    shouldKill_eq_ok (markedLe_of_reachable laws hreach (ht ▸ hs))
  rw [isDue_eq hkill]
  exact hkill

/-- The plan of a request is made when the leftover of a kill checkpoint can be computed. -/
theorem ends_plannedCheckpoint (laws : DisplayLaws X) (hreach : Reachable X db)
    (hs : db.getSubnetState X r.subnetId = some s) :
    Ends (plannedCheckpoint X db r unspent) ↔
      (Resolvable X db r → isDue s = true → KillFits r.toMsg s unspent) := by
  have hrotation : ∀ m, r.toMsg.updateSubnetsForTransfer X db = .ok m →
      (Ends (planRotation X db s (isDue s) m unspent) ↔
        (isDue s = true → KillFits r.toMsg s unspent)) := by
    intro m hm
    obtain ⟨⟨ts, rfl⟩, hamounts, -⟩ := updateSubnetsForTransfer_eq_ok hm
    rw [ends_planRotation (recorded_address_valid laws hreach hs), KillFits, KillFits, hamounts]
  unfold plannedCheckpoint
  rw [okOr_eq_ok.mpr hs, ok_bind, shouldKill_of_reachable laws hreach hs, ok_bind]
  constructor
  · intro h hresolvable
    obtain ⟨m, hm⟩ := resolvable_iff.mp hresolvable
    exact (hrotation m hm).mp ((endures_bind.mp h).2 m (mapErr_eq_ok.mpr hm))
  · intro h
    refine Endures.bind (endures_mapErr.mpr ends_updateSubnetsForTransfer) (fun m hm => ?_)
    have hm := mapErr_eq_ok.mp hm
    exact (hrotation m hm).mpr (h (resolvable_iff.mpr ⟨m, hm⟩))

/-- A plan whose leftover can be computed is the one asked for, if the number leads to a
committee. -/
theorem planned_of_fits (laws : DisplayLaws X) (hreach : Reachable X db)
    (hs : db.getSubnetState X r.subnetId = some s) (hresolvable : Resolvable X db r)
    (hrotates : Rotatable X db s r) (hfits : isDue s = true → KillFits r.toMsg s unspent) :
    plannedCheckpoint X db r unspent =
      .ok (requestedMsg X db s r, requestedCommittee X db s r) := by
  suffices hplanned : ∃ p, plannedCheckpoint X db r unspent = .ok p by
    obtain ⟨⟨m, next⟩, hplanned⟩ := hplanned
    obtain ⟨-, rfl, rfl⟩ := plannedCheckpoint_requested hs hplanned
    exact hplanned
  obtain ⟨m, hm⟩ := resolvable_iff.mp hresolvable
  obtain ⟨⟨ts, rfl⟩, hamounts, -⟩ := updateSubnetsForTransfer_eq_ok hm
  suffices hplanned : ∃ p, planRotation X db s (isDue s) { r.toMsg with transfers := ts }
      unspent = .ok p by
    obtain ⟨p, hp⟩ := hplanned
    exact ⟨p, bind_eq_ok.mpr ⟨s, okOr_eq_ok.mpr hs,
      bind_eq_ok.mpr ⟨_, shouldKill_of_reachable laws hreach hs,
      bind_eq_ok.mpr ⟨_, mapErr_eq_ok.mpr hm, hp⟩⟩⟩⟩
  unfold planRotation
  dsimp only
  split_ifs with hdue hlt hn
  · have hfits := hfits hdue
    have hsums : KillFits { r.toMsg with transfers := ts } s unspent := by
      rw [KillFits, hamounts]
      exact hfits
    obtain ⟨_, hsums⟩ := (ends_iff_ok raises_killSums).mp (ends_killSums.mpr hsums)
    exact ⟨_, bind_eq_ok.mpr ⟨_, hsums, rfl⟩⟩
  · obtain hdue' | ⟨-, hsome⟩ | hn := hrotates
    · exact absurd hdue' hdue
    · obtain ⟨c, hc⟩ := Option.isSome_iff_exists.mp hsome
      exact ⟨_, bind_eq_ok.mpr ⟨c, okOr_eq_ok.mpr hc, bind_eq_ok.mpr ⟨_,
        Address.requireNetwork_eq_ok.mpr ⟨recorded_address_valid laws hreach hs _ c hc, rfl⟩,
        rfl⟩⟩⟩
    · have hlt : s.committee.configurationNumber < r.nextCommitteeConfigurationNumber := hlt
      omega
  · exact ⟨_, rfl⟩
  · obtain hdue' | ⟨hlt', -⟩ | hn' := hrotates
    · exact absurd hdue' hdue
    · exact absurd hlt' hlt
    · exact absurd hn' hn

variable (X) in
/-- What the provider does with its plan. -/
def buildPlanned (σ τ : MapOrders) (db : HeedDb) (s : SubnetState) (unspent : List Utxo)
    (feeRate : FeeRate) (m : IpcCheckpointSubnetMsg) (next : SubnetCommittee) :
    Outcome RpcError GenCheckpointPsbt := do
  orInvalidParams "\x7b\x7d" (validateErcBatchData X m.subnetId m.tokenRegistrations
    m.tokenSupplyAdjustments m.tokenTransfers db)
  let psbt ← orInternal (m.toCheckpointPsbt X σ s.committee next feeRate unspent)
  let returnAddress ← s.committee.multisigAddress.requireNetwork
  let reveal ← orInternal (m.makeRevealBatchTransferTx X τ (X.computeTxid psbt.unsignedTx)
    feeRate returnAddress)
  return ⟨m, psbt, reveal⟩

theorem genCheckpointPsbt_eq_build (hvalid : r.toMsg.validate = .ok ())
    (hs : db.getSubnetState X r.subnetId = some s) (hmember : s.isValidator validator = true)
    (halive : ¬ s.isKilled = true) :
    genCheckpointPsbt X σ τ db validator r unspent feeRate =
      plannedCheckpoint X db r unspent >>= fun p =>
        buildPlanned X σ τ db s unspent feeRate p.1 p.2 := by
  unfold genCheckpointPsbt plannedCheckpoint
  have hs' : db.getSubnetState X r.toMsg.subnetId = some s := hs
  dsimp only
  rw [hvalid, okOr_eq_ok.mpr hs, okOr_eq_ok.mpr hs', ok_bind, ok_bind, ensure_pos hmember,
    ok_bind, ensure_pos halive, ok_bind]
  simp only [bind_assoc]
  rfl

/-- Where a plan comes from. -/
theorem plannedCheckpoint_eq_ok (hs : db.getSubnetState X r.subnetId = some s)
    (h : plannedCheckpoint X db r unspent = .ok (m', next)) :
    ∃ m, r.toMsg.updateSubnetsForTransfer X db = .ok m ∧ PlannedFrom X db s m m' next := by
  obtain ⟨s', hs', h⟩ := bind_eq_ok.mp h
  obtain rfl := Option.some.inj (hs.symm.trans (okOr_eq_ok.mp hs'))
  obtain ⟨kill, -, h⟩ := bind_eq_ok.mp h
  obtain ⟨m, hm, h⟩ := bind_eq_ok.mp h
  exact ⟨m, mapErr_eq_ok.mp hm, planRotation_eq_ok h⟩

theorem script_of_good {t : Txid20} {c : SubnetCommittee} (h : Good X t c) :
    ∃ script, createMultisigScript c.validatorWeightedKeys c.threshold = .ok script := by
  rw [h.derived.threshold_eq, SubnetCommittee.validatorWeightedKeys,
    createMultisigScript_of_viable h.derived.viable]
  exact ⟨_, rfl⟩

theorem ends_buildPlanned (laws : DisplayLaws X) (hweight : OutputWeightLaws X)
    (hreach : Reachable X db) (hvalid : r.toMsg.Valid)
    (hs : db.getSubnetState X r.subnetId = some s)
    (hplanned : plannedCheckpoint X db r unspent = .ok (m, next)) :
    Ends (buildPlanned X σ τ db s unspent feeRate m next) ↔
      (TokensValid X db r → PsbtFits X m σ s.committee next feeRate unspent ∧
        (Built X m σ s.committee next feeRate unspent → m.hasBatch = true →
          RevealFits X m τ feeRate s.committee.multisigAddress)) := by
  obtain ⟨t, -, -, hgood, -⟩ := (sound_of_reachable laws hreach).state laws hs
  obtain ⟨script, hscript⟩ := script_of_good hgood
  have haddress := hgood.derived.address_valid
  obtain ⟨m₀, hupdate, hplan⟩ := plannedCheckpoint_eq_ok hs hplanned
  obtain ⟨hm, hnext⟩ := resolved_of_planned laws hreach hvalid hs hupdate hplan
  have htokens : (validateErcBatchData X m.subnetId m.tokenRegistrations
      m.tokenSupplyAdjustments m.tokenTransfers db = .ok ()) ↔ TokensValid X db r := by
    obtain ⟨⟨ts, rfl⟩, -, -⟩ := updateSubnetsForTransfer_eq_ok hupdate
    obtain ⟨kill, us, rfl⟩ := hplan.changes
    exact Iff.rfl
  have hpsbt : Ends (orInternal (m.toCheckpointPsbt X σ s.committee next feeRate unspent)) ↔
      PsbtFits X m σ s.committee next feeRate unspent :=
    endures_mapErr.trans (ends_toCheckpointPsbt hweight hm haddress hnext hscript)
  unfold buildPlanned
  rw [Address.requireNetwork_eq_ok.mpr ⟨haddress, rfl⟩]
  simp only [ok_bind]
  constructor
  · intro h hvalid
    have h := (endures_bind.mp h).2 () (mapErr_eq_ok.mpr (htokens.mpr hvalid))
    obtain ⟨hends, h⟩ := endures_bind.mp h
    have hfits := hpsbt.mp hends
    refine ⟨hfits, ?_⟩
    intro hbuilt
    obtain ⟨psbt, hbuilt⟩ := (built_iff hweight hm haddress hnext hscript hfits).mpr hbuilt
    have hreveal := (endures_bind.mp (h psbt (mapErr_eq_ok.mpr hbuilt))).1
    exact (ends_makeRevealBatchTransferTx hm (fun hb => (hfits.batch hb).tokens)).mp
      (endures_mapErr.mp hreveal)
  · intro h
    refine Endures.bind (endures_mapErr.mpr ?_) (fun _ hvalid => ?_)
    · exact (endures_iff_calm (fun _ => trivial)).mpr (calm_validateErcBatchData _ _ _ _ _)
    · obtain ⟨hfits, hreveal⟩ := h (htokens.mp (mapErr_eq_ok.mp hvalid))
      refine Endures.bind (hpsbt.mpr hfits) (fun psbt hbuilt => ?_)
      refine Endures.bind (endures_mapErr.mpr ?_) (fun _ _ => trivial)
      have hbuilt := (built_iff hweight hm haddress hnext hscript hfits).mp
        ⟨psbt, mapErr_eq_ok.mp hbuilt⟩
      exact (ends_makeRevealBatchTransferTx hm (fun hb => (hfits.batch hb).tokens)).mpr
        (hreveal hbuilt)

/-- The provider answers a request for a reachable database, with a psbt or with an error, exactly
if what it computes stays in its bounds. -/
theorem genCheckpointPsbt_answers_iff (laws : DisplayLaws X) (hweight : OutputWeightLaws X)
    (hreach : Reachable X db) (hvalid : r.toMsg.validate = .ok ()) :
    Ends (genCheckpointPsbt X σ τ db validator r unspent feeRate) ↔
      RequestFits X σ τ db validator r unspent feeRate := by
  have hvalid' := IpcCheckpointSubnetMsg.validate_eq_ok.mp hvalid
  by_cases hadmit : ∃ s, db.getSubnetState X r.subnetId = some s ∧
      s.isValidator validator = true ∧ ¬ s.isKilled = true
  · obtain ⟨s, hs, hmember, halive⟩ := hadmit
    rw [genCheckpointPsbt_eq_build hvalid hs hmember halive]
    have hsame : ∀ s', Admitted X db validator r s' → s' = s :=
      fun s' h => Option.some.inj (h.found.symm.trans hs)
    constructor
    · intro h
      obtain ⟨hends, hbuild⟩ := endures_bind.mp h
      have hkill := (ends_plannedCheckpoint laws hreach hs).mp hends
      have hplanned : ∀ s', Admitted X db validator r s' → Rotatable X db s' r →
          plannedCheckpoint X db r unspent =
            .ok (requestedMsg X db s' r, requestedCommittee X db s' r) := by
        intro s' hs' hrotates
        obtain rfl := hsame s' hs'
        exact planned_of_fits laws hreach hs hs'.destinations hrotates (hkill hs'.destinations)
      have hfits : ∀ m next, plannedCheckpoint X db r unspent = .ok (m, next) →
          TokensValid X db r → PsbtFits X m σ s.committee next feeRate unspent ∧
            (Built X m σ s.committee next feeRate unspent → m.hasBatch = true →
              RevealFits X m τ feeRate s.committee.multisigAddress) :=
        fun m next hplan => (ends_buildPlanned laws hweight hreach hvalid' hs hplan).mp
          (hbuild (m, next) hplan)
      refine ⟨?_, ?_, ?_⟩
      · intro s' hs'
        obtain rfl := hsame s' hs'
        exact hkill hs'.destinations
      · intro s' hs' hrotates htokens
        have hplan := hplanned s' hs' hrotates
        rw [hsame s' hs'] at hplan ⊢
        exact (hfits _ _ hplan htokens).1
      · intro s' hs' hrotates htokens
        have hplan := hplanned s' hs' hrotates
        rw [hsame s' hs'] at hplan ⊢
        exact (hfits _ _ hplan htokens).2
    · intro h
      have hadmitted : Resolvable X db r → Admitted X db validator r s :=
        fun hd => ⟨hs, hmember, halive, hd⟩
      refine Endures.bind ((ends_plannedCheckpoint laws hreach hs).mpr ?_) (fun p hplan => ?_)
      · exact fun hd => h.kill s (hadmitted hd)
      · obtain ⟨m, next⟩ := p
        obtain ⟨m₀, hupdate, -⟩ := plannedCheckpoint_eq_ok hs hplan
        have hadmitted := hadmitted (resolvable_iff.mpr ⟨m₀, hupdate⟩)
        have hbuild : Ends (buildPlanned X σ τ db s unspent feeRate m next) ↔ _ :=
          ends_buildPlanned laws hweight hreach hvalid' hs hplan
        obtain ⟨hrotates, rfl, rfl⟩ := plannedCheckpoint_requested hs hplan
        refine hbuild.mpr (fun htokens => ?_)
        exact ⟨h.psbt s hadmitted hrotates htokens, h.reveal s hadmitted hrotates htokens⟩
  · refine iff_of_true ?_ ?_
    · unfold genCheckpointPsbt
      dsimp only
      rw [hvalid, orInvalidParams, mapErr_ok, ok_bind]
      refine Endures.bind (ends_okOr _ _) (fun s hs => ?_)
      refine Endures.bind (ends_ensure _) (fun _ hmember => ?_)
      refine Endures.bind (ends_ensure _) (fun _ halive => ?_)
      exact absurd ⟨s, okOr_eq_ok.mp hs, ensure_eq_ok.mp hmember, ensure_eq_ok.mp halive⟩ hadmit
    · refine ⟨?_, ?_, ?_⟩
      · exact fun s hs => absurd ⟨s, hs.found, hs.member, hs.alive⟩ hadmit
      · exact fun s hs => absurd ⟨s, hs.found, hs.member, hs.alive⟩ hadmit
      · exact fun s hs => absurd ⟨s, hs.found, hs.member, hs.alive⟩ hadmit

end Provider

namespace Provider

open Faults Bytes Chain Messages Crates Multisig Db Monitor Solo

/-- Whether a computation ends. -/
def answers {ε α : Type} : Outcome ε α → Bool
  | .ok _ => true
  | .error (.error _) => true
  | .error .panic => false

theorem ends_iff_answers {ε α : Type} {x : Outcome ε α} : Ends x ↔ answers x = true :=
  match x with
  | .ok _ => iff_of_true trivial rfl
  | .error (.error _) => iff_of_true trivial rfl
  | .error .panic => iff_of_false id Bool.false_ne_true

theorem eq_panicked_of_answers {ε α : Type} {x : Outcome ε α} (h : answers x = false) :
    x = panicked :=
  match x with
  | .ok _ => absurd h.symm Bool.false_ne_true
  | .error (.error _) => absurd h.symm Bool.false_ne_true
  | .error .panic => rfl

/-- A subnet that is to be killed. -/
def closingDb : HeedDb := (run killLibrary delayedTxs).store HeedDb.empty

/-- A request to close the subnet with one withdrawal. -/
def closingRequest (amount : Amount) : CheckpointRequest :=
  ⟨.fromTxid20 subnet, bytes32 4, 1, 0, [⟨amount, .p2tr (bytes32 7)⟩], [], [], [], []⟩

theorem genCheckpointPsbt_answers_closing : Reachable killLibrary closingDb ∧
    (closingRequest 3000).toMsg.validate = .ok () ∧
    RequestFits killLibrary listedOrders listedOrders closingDb key (closingRequest 3000) [coin]
      1000 := by
  have hlaws : DisplayLaws killLibrary := displayLaws_ideal _
  have hweight : OutputWeightLaws killLibrary := outputWeightLaws_ideal _
  have hreach : Reachable killLibrary closingDb := reachable_run _
  have hvalid : (closingRequest 3000).toMsg.validate = .ok () := by decide +kernel
  have hanswers : answers (genCheckpointPsbt killLibrary listedOrders listedOrders closingDb key
      (closingRequest 3000) [coin] 1000) = true := by decide +kernel
  refine ⟨hreach, hvalid, ?_⟩
  rw [← genCheckpointPsbt_answers_iff hlaws hweight hreach hvalid, ends_iff_answers]
  exact hanswers

/-- A withdrawal of more than the wallet holds stops the provider while the subnet is closed. -/
theorem genCheckpointPsbt_panics_overdrawn : Reachable killLibrary closingDb ∧
    (closingRequest 2000000).toMsg.validate = .ok () ∧
    genCheckpointPsbt killLibrary listedOrders listedOrders closingDb key
      (closingRequest 2000000) [coin] 1000 = panicked := by
  have hanswers : answers (genCheckpointPsbt killLibrary listedOrders listedOrders closingDb key
      (closingRequest 2000000) [coin] 1000) = false := by decide +kernel
  exact ⟨reachable_run _, by decide +kernel, eq_panicked_of_answers hanswers⟩

end Provider
