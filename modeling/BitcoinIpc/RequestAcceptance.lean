import BitcoinIpc.RequestParsing
import BitcoinIpc.CommitteeForm

/-!
# What the provider accepts and the monitor takes

The provider checks a request before it sends its transaction, and the monitor
checks the transaction when it finds it. The provider does not ask whether a
subnet that is funded still runs. It looks for the key of an unstake or a kill
in the latest committee, and the monitor looks for it in the current one. And
it does not compute the committee that a stake change leads to. Up to these the
two agree.
-/

namespace Db

open Faults Bytes Chain Messages Crates Multisig

variable {X : Library} {c : SubnetCommittee} {t : Txid20} {v w : SubnetValidator}
  {k : XOnlyPublicKey}

/-- The total power of a committee when one validator has another power. -/
def powerAfter (c : SubnetCommittee) (v : SubnetValidator) (power : Power) : Nat :=
  powerSum c.validators - v.power + power

theorem findIdx?_of_findValidator (h : c.findValidator k = some v) :
    ∃ i, c.validators.findIdx? (fun w => w.pubkey = k) = some i ∧ c.validators[i]? = some v := by
  obtain ⟨hk, i, hi, hv, hbefore⟩ := List.find?_eq_some_iff_getElem.mp h
  refine ⟨i, List.findIdx?_eq_some_iff_getElem.mpr ⟨hi, ?_, ?_⟩, ?_⟩
  · rw [hv]
    exact hk
  · intro j hj
    simpa using hbefore j hj
  · rw [List.getElem?_eq_getElem hi, hv]

theorem powerSum_eraseIdx {vs : List SubnetValidator} {i : Nat} (h : vs[i]? = some v) :
    powerSum (vs.eraseIdx i) + v.power = powerSum vs := by
  induction vs generalizing i with
  | nil => cases h
  | cons a rest ih =>
    cases i with
    | zero =>
      cases h
      simp only [powerSum, List.eraseIdx_cons_zero, List.map_cons, List.sum_cons]
      omega
    | succ i =>
      have := ih (i := i) (by simpa using h)
      simp only [powerSum, List.eraseIdx_cons_succ, List.map_cons, List.sum_cons] at this ⊢
      omega

theorem powerSum_set {vs : List SubnetValidator} {i : Nat} (h : vs[i]? = some v) :
    powerSum (vs.set i w) + v.power = powerSum vs + w.power := by
  induction vs generalizing i with
  | nil => cases h
  | cons a rest ih =>
    cases i with
    | zero =>
      cases h
      simp only [powerSum, List.set_cons_zero, List.map_cons, List.sum_cons]
      omega
    | succ i =>
      have := ih (i := i) (by simpa using h)
      simp only [powerSum, List.set_cons_succ, List.map_cons, List.sum_cons] at this ⊢
      omega

theorem powerAfter_mono {p q : Power} (hpq : p ≤ q) : powerAfter c v p ≤ powerAfter c v q :=
  Nat.add_le_add_left hpq _

theorem powerAfter_self (h : c.findValidator k = some v) :
    powerAfter c v v.power = powerSum c.validators := by
  obtain ⟨i, -, hget⟩ := findIdx?_of_findValidator h
  have := powerSum_eraseIdx hget
  unfold powerAfter
  omega

theorem powerOf_mono {a b : Amount} (h : a ≤ b) : powerOf a ≤ powerOf b :=
  Nat.div_le_div_right (min_le_min_right _ h)

namespace SubnetCommittee

/-- A validator can be changed when the new total power has a threshold. -/
theorem modifyValidator_iff (hv : c.findValidator w.pubkey = some v) :
    (∃ c', c.modifyValidator X (.fromTxid20 t) w = .ok c') ↔
      0 < powerAfter c v w.power ∧ powerAfter c v w.power * 2 < powerBound := by
  obtain ⟨i, hi, hget⟩ := findIdx?_of_findValidator hv
  have hsum : powerSum (c.validators.set i w) = powerAfter c v w.power := by
    have h1 := powerSum_set (w := w) hget
    have h2 := powerSum_eraseIdx hget
    unfold powerAfter
    omega
  rw [← hsum]
  unfold modifyValidator
  rw [okOr_eq_ok.mpr hi]
  constructor
  · rintro ⟨c', hc'⟩
    exact ((rebuilt_eq_ok (c := c)).mp hc').1
  · intro hviable
    exact ⟨_, (rebuilt_eq_ok (c := c)).mpr ⟨hviable, rfl⟩⟩

theorem removeValidator_iff (hv : c.findValidator k = some v) :
    (∃ c', c.removeValidator X (.fromTxid20 t) k = .ok c') ↔
      0 < powerAfter c v 0 ∧ powerAfter c v 0 * 2 < powerBound := by
  obtain ⟨i, hi, hget⟩ := findIdx?_of_findValidator hv
  have hsum : powerSum (c.validators.eraseIdx i) = powerAfter c v 0 := by
    have h2 := powerSum_eraseIdx hget
    unfold powerAfter
    omega
  rw [← hsum]
  unfold removeValidator SubnetValidators.removeValidator
  rw [okOr_eq_ok.mpr hi]
  constructor
  · rintro ⟨c', hc'⟩
    exact ((rebuilt_eq_ok (c := c)).mp hc').1
  · intro hviable
    exact ⟨_, (rebuilt_eq_ok (c := c)).mpr ⟨hviable, rfl⟩⟩

end SubnetCommittee

end Db

namespace Messages

open Faults Bytes Chain Crates Multisig Db Monitor

variable {X : Library} {db : HeedDb} {h : Nat} {b : BlockHash} {i : Txid}
  {s : SubnetState} {g : SubnetGenesisInfo} {t : Txid20} {v : SubnetValidator}

theorem IpcFundSubnetMsg.saves_iff {m : IpcFundSubnetMsg}
    (hs : db.getSubnetState X m.subnetId = some s) :
    (∃ db', m.saveToDb X db h b i = .ok db') ↔ s.isKilledOrPending = false := by
  unfold saveToDb
  rw [okOr_eq_ok.mpr hs, ok_bind, IpcFundSubnetMsg.validateForSubnet]
  by_cases hk : s.isKilledOrPending = true
  · rw [ensure_neg (not_not_intro hk), hk]
    constructor
    · rintro ⟨_, hsave⟩
      cases hsave
    · intro hfalse
      cases hfalse
  · rw [ensure_pos hk]
    exact ⟨fun _ => Bool.eq_false_iff.mpr hk, fun _ => ⟨_, rfl⟩⟩

theorem IpcStakeCollateralMsg.saves_iff {m : IpcStakeCollateralMsg}
    (hid : m.subnetId = .fromTxid20 t) (hgood : Good X t s.latestCommittee)
    (hg : db.getSubnetGenesisInfo X m.subnetId = some g)
    (hs : db.getSubnetState X m.subnetId = some s) (hvalid : m.validateForSubnet s = .ok ())
    (hv : s.latestCommittee.findValidator m.pubkey = some v) :
    (∃ db', m.saveToDb X db h b i = .ok db') ↔
      m.amount + v.collateral < amountBound ∧
      g.createSubnetMsg.minValidatorStake ≤ m.amount + v.collateral ∧
      powerAfter s.latestCommittee v (powerOf (m.amount + v.collateral)) * 2 < powerBound := by
  have hkey := (SubnetCommittee.findValidator_eq_some hv).2
  have hmodify := SubnetCommittee.modifyValidator_iff (X := X) (t := t) (c := s.latestCommittee)
    (w := { v with collateral := m.amount + v.collateral,
                   power := powerOf (m.amount + v.collateral) }) (by rw [hkey]; exact hv)
  constructor
  · rintro ⟨db', hsave⟩
    obtain ⟨g', hg', hmin⟩ := minStake_of_saveToDb hsave hs hv
    rw [hg] at hg'
    cases hg'
    obtain ⟨s', v', next, hs', hv', hnext, -⟩ := saveToDb_eq_ok hsave
    rw [hs] at hs'
    cases hs'
    rw [hv] at hv'
    cases hv'
    refine ⟨?_, hmin, (hmodify.mp ⟨next, hid ▸ hnext⟩).2⟩
    obtain ⟨_, -, hsave⟩ := bind_eq_ok.mp hsave
    obtain ⟨s', hs', hsave⟩ := bind_eq_ok.mp hsave
    obtain ⟨_, -, hsave⟩ := bind_eq_ok.mp hsave
    obtain ⟨v', hv', hsave⟩ := bind_eq_ok.mp hsave
    obtain ⟨_, hsum, -⟩ := bind_eq_ok.mp hsave
    rw [okOr_eq_ok, hs] at hs'
    cases hs'
    rw [okOr_eq_ok, hv] at hv'
    cases hv'
    exact (addAmount_eq_ok.mp hsum).1
  · rintro ⟨hsum, hmin, hbound⟩
    have hpos : 0 < powerAfter s.latestCommittee v (powerOf (m.amount + v.collateral)) := by
      have hpower := hgood.regular.power_eq v (SubnetCommittee.findValidator_eq_some hv).1
      have hmono : v.power ≤ powerOf (m.amount + v.collateral) := by
        rw [hpower]
        exact powerOf_mono (Nat.le_add_left _ _)
      exact lt_of_lt_of_le (by rw [powerAfter_self hv]; exact hgood.derived.viable.1)
        (powerAfter_mono hmono)
    obtain ⟨next, hnext⟩ := hmodify.mpr ⟨hpos, hbound⟩
    unfold saveToDb
    rw [okOr_eq_ok.mpr hg, ok_bind, okOr_eq_ok.mpr hs, ok_bind, orInvalid, hvalid, mapErr_ok,
      ok_bind, okOr_eq_ok.mpr hv, ok_bind, addAmount_eq_ok.mpr ⟨hsum, rfl⟩, ok_bind,
      collateralToPower_of_le hmin, mapErr_ok, ok_bind, hid]
    dsimp only
    rw [hnext]
    exact ⟨_, rfl⟩

/-- An unstake that passes the checks is of a validator of the latest committee and takes no
more than it has. -/
theorem IpcUnstakeCollateralMsg.validator_of_validateForSubnet {m : IpcUnstakeCollateralMsg}
    {u : Unit} (hvalid : m.validateForSubnet g s = .ok u) :
    ∃ v, m.pubkey = some v.pubkey ∧ s.latestCommittee.findValidator v.pubkey = some v ∧
      m.amount ≤ v.collateral ∧ m.amount < amountBound := by
  obtain ⟨_, -, hvalid⟩ := bind_eq_ok.mp hvalid
  obtain ⟨_, -, hvalid⟩ := bind_eq_ok.mp hvalid
  obtain ⟨pubkey, hpk, hvalid⟩ := bind_eq_ok.mp hvalid
  obtain ⟨_, -, hvalid⟩ := bind_eq_ok.mp hvalid
  obtain ⟨total, htotal, hvalid⟩ := bind_eq_ok.mp hvalid
  obtain ⟨_, hle, hvalid⟩ := bind_eq_ok.mp hvalid
  obtain ⟨v, hv, hvalid⟩ := bind_eq_ok.mp hvalid
  obtain ⟨_, hamount, -⟩ := bind_eq_ok.mp hvalid
  rw [okOr_eq_ok] at hpk hv
  rw [ensure_eq_ok] at hle hamount
  obtain ⟨hbound, rfl⟩ := sumAmounts_eq_ok.mp htotal
  obtain ⟨-, rfl⟩ := SubnetCommittee.findValidator_eq_some hv
  exact ⟨v, hpk, hv, hamount, lt_of_le_of_lt hle hbound⟩

/-- A committee stays below the bound when the power of a validator falls. -/
theorem powerAfter_lt_of_le {p : Power} (hgood : Good X t s.latestCommittee)
    (hv : s.latestCommittee.findValidator v.pubkey = some v) (hle : p ≤ v.power) :
    powerAfter s.latestCommittee v p * 2 < powerBound := by
  have hmono := powerAfter_mono (c := s.latestCommittee) (v := v) hle
  rw [powerAfter_self hv] at hmono
  exact lt_of_le_of_lt (Nat.mul_le_mul_right 2 hmono) hgood.derived.viable.2

theorem IpcUnstakeCollateralMsg.afterUnstake_iff {left : Amount} (hgood : Good X t s.latestCommittee)
    (hv : s.latestCommittee.findValidator v.pubkey = some v) (hle : left ≤ v.collateral) :
    (∃ next, afterUnstake X s.latestCommittee (.fromTxid20 t) v left = .ok next) ↔
      0 < powerAfter s.latestCommittee v (powerOf left) := by
  have hbound : powerAfter s.latestCommittee v (powerOf left) * 2 < powerBound := by
    refine powerAfter_lt_of_le hgood hv ?_
    rw [hgood.regular.power_eq v (SubnetCommittee.findValidator_eq_some hv).1]
    exact powerOf_mono hle
  unfold afterUnstake
  split_ifs with hzero
  · rw [hzero] at hbound ⊢
    exact (SubnetCommittee.removeValidator_iff hv).trans (and_iff_left hbound)
  · exact (SubnetCommittee.modifyValidator_iff
      (w := { v with collateral := left, power := powerOf left }) hv).trans (and_iff_left hbound)

/-- What is left is nothing or suffices, so the branch taken is that of the power left. -/
theorem IpcUnstakeCollateralMsg.branch_of_afterUnstake {left : Amount} {next : SubnetCommittee}
    (hrest : g.createSubnetMsg.minValidatorStake ≤ left ∨ left = 0)
    (hnext : afterUnstake X s.latestCommittee (.fromTxid20 t) v left = .ok next) :
    ∃ p sufficient, remainingPower left g = .ok (p, sufficient) ∧
      (if p = 0 ∨ sufficient = false then
          s.latestCommittee.removeValidator X (.fromTxid20 t) v.pubkey
        else s.latestCommittee.modifyValidator X (.fromTxid20 t)
          { v with collateral := left, power := p }) = .ok next := by
  rw [remainingPower_eq]
  by_cases hmin : g.createSubnetMsg.minValidatorStake ≤ left
  · refine ⟨_, _, if_pos hmin, ?_⟩
    simpa [afterUnstake] using hnext
  · refine ⟨_, _, if_neg hmin, ?_⟩
    have hzero : powerOf left = 0 := by
      rw [hrest.resolve_left hmin]
      decide
    simpa [afterUnstake, hzero] using hnext

theorem IpcUnstakeCollateralMsg.saves_iff {m : IpcUnstakeCollateralMsg}
    (hid : m.subnetId = .fromTxid20 t) (hgood : Good X t s.latestCommittee)
    (hg : db.getSubnetGenesisInfo X m.subnetId = some g)
    (hs : db.getSubnetState X m.subnetId = some s) (hvalid : m.validateForSubnet g s = .ok ())
    (hpk : m.pubkey = some v.pubkey)
    (hv : s.latestCommittee.findValidator v.pubkey = some v) :
    (∃ db', m.saveToDb X db h b i = .ok db') ↔
      0 < powerAfter s.latestCommittee v (powerOf (v.collateral - m.amount)) := by
  rw [← afterUnstake_iff hgood hv (Nat.sub_le _ _)]
  constructor
  · rintro ⟨db', hsave⟩
    obtain ⟨s', v', next, hs', hpk', hv', -, hnext, -⟩ := saveToDb_eq_ok hsave
    rw [hs] at hs'
    cases hs'
    rw [hpk, Option.some.injEq] at hpk'
    rw [← hpk', hv] at hv'
    cases hv'
    exact ⟨next, hid ▸ hnext⟩
  · rintro ⟨next, hnext⟩
    obtain ⟨v', hpk', hv', hle, -⟩ := validator_of_validateForSubnet hvalid
    rw [hpk, Option.some.injEq] at hpk'
    rw [← hpk', hv] at hv'
    cases hv'
    have hrest : g.createSubnetMsg.minValidatorStake ≤ v.collateral - m.amount ∨
        v.collateral - m.amount = 0 := by
      refine (rest_of_validateForSubnet hvalid hpk hv).imp_right ?_
      intro heq
      rw [heq, Nat.sub_self]
    obtain ⟨p, sufficient, hp, hbranch⟩ := branch_of_afterUnstake hrest hnext
    unfold saveToDb
    rw [okOr_eq_ok.mpr hg, ok_bind, okOr_eq_ok.mpr hs, ok_bind, orInvalid, hvalid, mapErr_ok,
      ok_bind, hpk, expect_eq_ok.mpr rfl, ok_bind, okOr_eq_ok.mpr hv, ok_bind, ensure_pos hle,
      ok_bind]
    dsimp only
    rw [hp, mapErr_ok, ok_bind, hid]
    dsimp only
    rw [hbranch]
    exact ⟨_, rfl⟩

/-- The power of the validators that asked for the kill, each as often as it asked. -/
def killVotes (c : SubnetCommittee) (requests : List KillRequest) : Nat :=
  (requests.filterMap (fun r => (c.findValidator r.validatorXpk).map (·.power))).sum

theorem IpcKillSubnetMsg.saves_iff {m : IpcKillSubnetMsg}
    (hgood : Good X t s.latestCommittee)
    (hg : db.getSubnetGenesisInfo X m.subnetId = some g)
    (hs : db.getSubnetState X m.subnetId = some s) (hvalid : m.validateForSubnet g s = .ok ())
    (hpk : m.pubkey = some v.pubkey)
    (hv : s.latestCommittee.findValidator v.pubkey = some v)
    (hfresh : ¬ (db.getValidKillRequests X m.subnetId h).any
      (fun r => r.validatorXpk = v.pubkey) = true) :
    (∃ db', m.saveToDb X db h b i = .ok db') ↔
      killVotes s.latestCommittee (db.getValidKillRequests X m.subnetId h) + v.power <
        powerBound := by
  have hvotes : (((db.getValidKillRequests X m.subnetId h) ++
      [(⟨v.pubkey, h, b, i⟩ : KillRequest)]).filterMap
        (fun r => (s.latestCommittee.findValidator r.validatorXpk).map (·.power))).sum =
      killVotes s.latestCommittee (db.getValidKillRequests X m.subnetId h) + v.power := by
    rw [List.filterMap_append, List.sum_append, killVotes]
    simp [hv]
  have htwice := hgood.derived.viable.2
  have htotal : (s.latestCommittee.totalPower : Outcome IpcLibError Power) =
      .ok (powerSum s.latestCommittee.validators) := by
    have hlt : powerSum s.latestCommittee.validators < powerBound := by omega
    exact if_pos hlt
  have hthreshold : (multisigThreshold (powerSum s.latestCommittee.validators) :
      Outcome IpcLibError Power) =
        .ok (powerSum s.latestCommittee.validators * 2 / 3 + 1) := if_pos htwice
  unfold saveToDb
  rw [okOr_eq_ok.mpr hg, ok_bind, okOr_eq_ok.mpr hs, ok_bind, orInvalid, hvalid, mapErr_ok,
    ok_bind, hpk, expect_eq_ok.mpr rfl, ok_bind, okOr_eq_ok.mpr hv, ok_bind]
  dsimp only
  rw [ensure_pos hfresh, ok_bind]
  unfold requestedPower sumPower
  rw [hvotes]
  split_ifs with hlt
  · refine ⟨fun _ => hlt, fun _ => ?_⟩
    rw [ok_bind, htotal, ok_bind, hthreshold, ok_bind]
    split_ifs <;> exact ⟨_, rfl⟩
  · constructor
    · rintro ⟨_, hsave⟩
      cases hsave
    · intro h'
      exact absurd h' hlt

end Messages

namespace Provider

open Faults Bytes Chain Messages Crates Multisig Db Monitor

variable {X : Library} {w : Wallet} {db : HeedDb} {tx tx' : Transaction}

theorem submit_eq_ok (hw : WalletLaws w) (h : submit w tx = .ok tx') :
    (∃ change, tx'.output = tx.output ++ change) ∧ Plain tx' := by
  obtain ⟨funded, hfund, hsign⟩ := bind_eq_ok.mp h
  rw [okOr_eq_ok] at hfund hsign
  rw [(hw.signed _ _ hsign).1]
  exact ⟨hw.funded _ _ hfund, hw.plain _ _ hsign⟩

/-- The signature is made for the transaction that the first input of the result spends. -/
theorem submitSigned_eq_ok (hw : WalletLaws w) {d : Signature → TxOut} {p : TxOut}
    {makeSignature : Txid → Outcome RpcError Signature}
    (h : submitSigned w (fun sig => createTxFromTxouts [d sig, p]) makeSignature = .ok tx') :
    ∃ prev sig change, makeSignature prev = .ok sig ∧ tx'.output = d sig :: p :: change ∧
      (∀ tag, firstPrevTxid tag tx' = .ok prev) ∧ Plain tx' := by
  obtain ⟨funded, hfund, h⟩ := bind_eq_ok.mp h
  obtain ⟨i, hi, h⟩ := bind_eq_ok.mp h
  obtain ⟨sig, hsig, h⟩ := bind_eq_ok.mp h
  obtain ⟨out, hout, h⟩ := bind_eq_ok.mp h
  obtain ⟨_, -, hsign⟩ := bind_eq_ok.mp h
  rw [okOr_eq_ok] at hfund hi hsign
  obtain ⟨change, hchange⟩ := hw.funded _ _ hfund
  obtain ⟨houts, hins⟩ := hw.signed _ _ hsign
  have hout' : d sig = out := by simpa [createTxFromTxouts] using hout
  refine ⟨i.previousOutput.txid, sig, change, hsig, ?_, ?_, hw.plain _ _ hsign⟩
  · rw [houts, hout']
    simp only [hchange]
    rfl
  · intro tag
    have hhead := congrArg List.head? hins
    simp only [List.head?_map, hi, Option.map_some] at hhead
    obtain ⟨i', hi', hprev⟩ := Option.map_eq_some_iff.mp hhead
    rw [firstPrevTxid, hi', ← hprev]
    rfl

theorem readState_eq_ok {id : SubnetId} {s : SubnetState} :
    readState X db id = .ok s ↔ db.getSubnetState X id = some s := okOr_eq_ok

theorem readGenesis_eq_ok {id : SubnetId} {g : SubnetGenesisInfo} :
    readGenesis X db id = .ok g ↔ db.getSubnetGenesisInfo X id = some g := okOr_eq_ok

theorem fundSubnet_eq_ok (hw : WalletLaws w) {m : IpcFundSubnetMsg}
    (h : fundSubnet X w db m = .ok tx) :
    ∃ s id, m.validate = .ok () ∧ db.getSubnetState X m.subnetId = some s ∧
      (m.subnetId.txid20 : Outcome RpcError Txid20) = .ok id ∧
      Carries tx ipcFundSubnetTag (id.bytes ++ m.address.bytes)
        ⟨m.amount, s.committee.multisigAddress.scriptPubkey⟩ ∧ Plain tx := by
  obtain ⟨_, hvalid, h⟩ := bind_eq_ok.mp h
  obtain ⟨s, hs, h⟩ := bind_eq_ok.mp h
  obtain ⟨a, ha, h⟩ := bind_eq_ok.mp h
  obtain ⟨tx₀, htx₀, h⟩ := bind_eq_ok.mp h
  obtain ⟨id, hid, htx₀⟩ := bind_eq_ok.mp htx₀
  obtain ⟨-, rfl⟩ := Address.requireNetwork_eq_ok.mp ha
  cases htx₀
  obtain ⟨⟨change, hout⟩, hplain⟩ := submit_eq_ok hw h
  rw [List.append_assoc] at hout
  refine ⟨s, id, mapErr_eq_ok.mp hvalid, readState_eq_ok.mp hs, hid, ⟨⟨_, change, hout⟩, ?_, ?_⟩,
    hplain⟩
  · decide
  · rw [List.length_append, id.length_eq, m.address.length_eq]
    decide

theorem stakeCollateral_eq_ok (hw : WalletLaws w) {m : IpcStakeCollateralMsg}
    (h : stakeCollateral X w db m = .ok tx) :
    ∃ s, m.validate = .ok () ∧ db.getSubnetState X m.subnetId = some s ∧
      m.validateForSubnet s = .ok () ∧
      Carries tx ipcStakeTag m.pubkey.bytes
        ⟨m.amount, s.committee.multisigAddress.scriptPubkey⟩ ∧ Plain tx := by
  obtain ⟨_, hvalid, h⟩ := bind_eq_ok.mp h
  obtain ⟨s, hs, h⟩ := bind_eq_ok.mp h
  obtain ⟨_, hfor, h⟩ := bind_eq_ok.mp h
  obtain ⟨a, ha, h⟩ := bind_eq_ok.mp h
  obtain ⟨-, rfl⟩ := Address.requireNetwork_eq_ok.mp ha
  obtain ⟨⟨change, hout⟩, hplain⟩ := submit_eq_ok hw h
  refine ⟨s, mapErr_eq_ok.mp hvalid, readState_eq_ok.mp hs, mapErr_eq_ok.mp hfor,
    ⟨⟨_, change, hout⟩, ?_, ?_⟩, hplain⟩
  · decide
  · rw [m.pubkey.length_eq]
    decide

theorem unstakeCollateral_eq_ok (hw : WalletLaws w) {validator : Option X.SecretKey}
    {id : SubnetId} {amount : Amount}
    (h : unstakeCollateral X w db validator ⟨id, amount, none⟩ = .ok tx) :
    ∃ sk s g prev sig value, validator = some sk ∧
      IpcUnstakeCollateralMsg.validate ⟨id, amount, some (X.xOnlyPublicKey sk)⟩ = .ok () ∧
      db.getSubnetState X id = some s ∧ db.getSubnetGenesisInfo X id = some g ∧
      IpcUnstakeCollateralMsg.validateForSubnet ⟨id, amount, some (X.xOnlyPublicKey sk)⟩ g s =
        .ok () ∧
      (IpcUnstakeCollateralMsg.makeSignature X ⟨id, amount, some (X.xOnlyPublicKey sk)⟩ prev sk :
        Outcome RpcError Signature) = .ok sig ∧
      (∀ tag, firstPrevTxid tag tx = .ok prev) ∧
      Carries tx ipcUnstakeTag (sig.bytes ++ toBe amountSize amount)
        ⟨value, s.committee.multisigAddress.scriptPubkey⟩ ∧ Plain tx := by
  obtain ⟨sk, hsk, h⟩ := bind_eq_ok.mp h
  obtain ⟨_, hvalid, h⟩ := bind_eq_ok.mp h
  obtain ⟨g, hg, h⟩ := bind_eq_ok.mp h
  obtain ⟨s, hs, h⟩ := bind_eq_ok.mp h
  obtain ⟨_, hfor, h⟩ := bind_eq_ok.mp h
  obtain ⟨a, ha, h⟩ := bind_eq_ok.mp h
  obtain ⟨-, rfl⟩ := Address.requireNetwork_eq_ok.mp ha
  obtain ⟨prev, sig, change, hsig, hout, hprev, hplain⟩ := submitSigned_eq_ok hw h
  rw [List.append_assoc] at hout
  refine ⟨sk, s, g, prev, sig, _, okOr_eq_ok.mp hsk, mapErr_eq_ok.mp hvalid, readState_eq_ok.mp hs,
    readGenesis_eq_ok.mp hg, mapErr_eq_ok.mp hfor, hsig, hprev, ⟨⟨_, change, hout⟩, ?_, ?_⟩, hplain⟩
  · decide
  · rw [List.length_append, sig.length_eq, length_toBe]
    decide

theorem killSubnet_eq_ok (hw : WalletLaws w) {validator : Option X.SecretKey} {id : SubnetId}
    (h : killSubnet X w db validator ⟨id, none⟩ = .ok tx) :
    ∃ sk s g prev sig value, validator = some sk ∧
      IpcKillSubnetMsg.validate ⟨id, some (X.xOnlyPublicKey sk)⟩ = .ok () ∧
      db.getSubnetState X id = some s ∧ db.getSubnetGenesisInfo X id = some g ∧
      IpcKillSubnetMsg.validateForSubnet ⟨id, some (X.xOnlyPublicKey sk)⟩ g s = .ok () ∧
      ¬ (db.getValidKillRequests X id db.getLastProcessedBlock).any
        (fun r => r.validatorXpk = X.xOnlyPublicKey sk) = true ∧
      (IpcKillSubnetMsg.makeSignature X ⟨id, some (X.xOnlyPublicKey sk)⟩ prev sk :
        Outcome RpcError Signature) = .ok sig ∧
      (∀ tag, firstPrevTxid tag tx = .ok prev) ∧
      Carries tx ipcKillSubnetTag sig.bytes
        ⟨value, s.committee.multisigAddress.scriptPubkey⟩ ∧ Plain tx := by
  obtain ⟨sk, hsk, h⟩ := bind_eq_ok.mp h
  obtain ⟨_, hvalid, h⟩ := bind_eq_ok.mp h
  obtain ⟨g, hg, h⟩ := bind_eq_ok.mp h
  obtain ⟨s, hs, h⟩ := bind_eq_ok.mp h
  obtain ⟨_, hfor, h⟩ := bind_eq_ok.mp h
  obtain ⟨_, hfresh, h⟩ := bind_eq_ok.mp h
  obtain ⟨a, ha, h⟩ := bind_eq_ok.mp h
  obtain ⟨-, rfl⟩ := Address.requireNetwork_eq_ok.mp ha
  obtain ⟨prev, sig, change, hsig, hout, hprev, hplain⟩ := submitSigned_eq_ok hw h
  refine ⟨sk, s, g, prev, sig, _, okOr_eq_ok.mp hsk, mapErr_eq_ok.mp hvalid, readState_eq_ok.mp hs,
    readGenesis_eq_ok.mp hg, mapErr_eq_ok.mp hfor, ensure_eq_ok.mp hfresh, hsig, hprev,
    ⟨⟨_, change, hout⟩, ?_, ?_⟩, hplain⟩
  · decide
  · rw [sig.length_eq]
    decide

/-- The monitor finds this message in the transaction, and no other, and saves it. -/
def Takes (X : Library) (cfg : Config) (ctx : BlockContext) (db : HeedDb) (tx : Transaction)
    (m : IpcMessage) : Prop :=
  witnessMessages X tx = [] ∧
  (firstParsed (outputParsers X ctx db tx) : Outcome MonitorError _) = .ok (some m) ∧
  (processIpcMsg X cfg ctx tx m db).outcome = .ok ()

/-- The key of a stake is the key of a validator, as its type promises. -/
def Request.Typed (X : Library) : Request → Prop
  | .stake m => X.onCurve m.pubkey = true
  | _ => True

/-- What the handler of the request leaves unchecked. -/
def Sendable (X : Library) (db : HeedDb) (validator : Option X.SecretKey) : Request → Prop
  | .fund m => ∀ s ∈ db.getSubnetState X m.subnetId, s.isKilledOrPending = false
  | .stake m => ∀ s ∈ db.getSubnetState X m.subnetId,
      ∀ g ∈ db.getSubnetGenesisInfo X m.subnetId,
      ∀ v ∈ s.latestCommittee.findValidator m.pubkey,
        m.amount + v.collateral < amountBound ∧
        g.createSubnetMsg.minValidatorStake ≤ m.amount + v.collateral ∧
        powerAfter s.latestCommittee v (powerOf (m.amount + v.collateral)) * 2 < powerBound
  | .unstake id amount => ∀ sk ∈ validator, ∀ s ∈ db.getSubnetState X id,
      s.committee.isValidator (X.xOnlyPublicKey sk) = true ∧
      ∀ v ∈ s.latestCommittee.findValidator (X.xOnlyPublicKey sk),
        0 < powerAfter s.latestCommittee v (powerOf (v.collateral - amount))
  | .kill id => ∀ sk ∈ validator, ∀ s ∈ db.getSubnetState X id,
      s.committee.isValidator (X.xOnlyPublicKey sk) = true ∧
      ∀ v ∈ s.latestCommittee.findValidator (X.xOnlyPublicKey sk),
        killVotes s.latestCommittee
          (db.getValidKillRequests X id (db.getLastProcessedBlock + 1)) + v.power < powerBound

/-- A message is checked and then saved. -/
theorem outcome_saving {v : Outcome IpcValidateError Unit}
    {save : HeedDb → Outcome IpcLibError HeedDb} :
    ((do
      Commits.Proc.lift (orMsgInvalid v)
      let db ← Commits.Proc.read
      let db ← Commits.Proc.lift (orProcessing (save db))
      Commits.Proc.commit db : MonitorProc Unit) db).outcome = .ok () ↔
        v = .ok () ∧ ∃ db', save db = .ok db' := by
  cases v with
  | error e => cases e <;> simp [orMsgInvalid, mapErr]
  | ok u =>
    cases hsave : save db with
    | error e => cases e <;> simp [orMsgInvalid, orProcessing, mapErr, hsave]
    | ok db' => simp [orMsgInvalid, orProcessing, mapErr, hsave]

theorem isValidator_iff_find {c : SubnetCommittee} {k : XOnlyPublicKey} :
    c.isValidator k = true ↔ ∃ v, c.findValidator k = some v := by
  rw [SubnetCommittee.isValidator_iff, ← Option.isSome_iff_exists, SubnetCommittee.findValidator,
    List.find?_isSome]
  simp

section Iff

variable (laws : DisplayLaws X) (hw : WalletLaws w) (hsound : Sound X db)
  (cfg : Config) (ctx : BlockContext)
include laws hw hsound

theorem takes_fund_iff {m : IpcFundSubnetMsg} (h : fundSubnet X w db m = .ok tx) :
    Takes X cfg ctx db tx (.fundSubnet m) ↔
      ∀ s ∈ db.getSubnetState X m.subnetId, s.isKilledOrPending = false := by
  obtain ⟨s, id, hvalid, hs, hid, hcarries, hplain⟩ := fundSubnet_eq_ok hw h
  obtain ⟨t, ht, -, -, -⟩ := hsound.state laws hs
  rw [ht, SubnetId.txid20_fromTxid20] at hid
  cases hid
  have hm : IpcFundSubnetMsg.fromTx tx = .ok m := by
    rw [hcarries.fromTx_fund, ← ht]
  have hfound : (firstParsed (outputParsers X ctx db tx) : Outcome MonitorError _) =
      .ok (some (.fundSubnet m)) := by
    rw [hcarries.found_fund ctx db]
    simp only [outputParsers, List.drop_succ_cons, List.drop_zero, hm]
    rfl
  have hcond : (∀ s ∈ db.getSubnetState X m.subnetId, s.isKilledOrPending = false) ↔
      s.isKilledOrPending = false := by
    rw [hs]
    simp
  rw [hcond, ← IpcFundSubnetMsg.saves_iff (h := ctx.blockHeight) (b := ctx.blockHash)
    (i := X.computeTxid tx) hs]
  constructor
  · rintro ⟨-, -, hout⟩
    exact (outcome_saving.mp hout).2
  · intro hsave
    exact ⟨hplain.witnessMessages_eq, hfound, outcome_saving.mpr ⟨hvalid, hsave⟩⟩

variable (hdist : AddressesDistinct X db)
include hdist

theorem takes_stake_iff {m : IpcStakeCollateralMsg} {g : SubnetGenesisInfo}
    (hkey : X.onCurve m.pubkey = true) (hg : db.getSubnetGenesisInfo X m.subnetId = some g)
    (h : stakeCollateral X w db m = .ok tx) :
    Takes X cfg ctx db tx (.stakeCollateral m) ↔ Sendable X db none (.stake m) := by
  obtain ⟨s, hvalid, hs, hfor, hcarries, hplain⟩ := stakeCollateral_eq_ok hw h
  obtain ⟨t, ht, hid, -, -⟩ := hsound.state laws hs
  have hgood := hsound.latest laws (ht ▸ hs)
  obtain ⟨v, hv⟩ : ∃ v, s.latestCommittee.findValidator m.pubkey = some v := by
    obtain ⟨_, -, hfor⟩ := bind_eq_ok.mp hfor
    obtain ⟨_, -, hfor⟩ := bind_eq_ok.mp hfor
    obtain ⟨_, hmember, -⟩ := bind_eq_ok.mp hfor
    exact isValidator_iff_find.mp (ensure_eq_ok.mp hmember)
  have hm : IpcStakeCollateralMsg.fromTx X db tx = .ok m := by
    rw [hcarries.fromTx_stake laws hsound hdist hs hkey, hid, ← ht]
  have hfound : (firstParsed (outputParsers X ctx db tx) : Outcome MonitorError _) =
      .ok (some (.stakeCollateral m)) := by
    rw [hcarries.found_stake ctx db hplain (Or.inl rfl)]
    simp only [outputParsers, List.drop_succ_cons, List.drop_zero, hm]
    rfl
  have hcond : Sendable X db none (.stake m) ↔
      m.amount + v.collateral < amountBound ∧
      g.createSubnetMsg.minValidatorStake ≤ m.amount + v.collateral ∧
      powerAfter s.latestCommittee v (powerOf (m.amount + v.collateral)) * 2 < powerBound := by
    simp only [Sendable, hs, hg, hv, Option.mem_some_iff, forall_eq']
  rw [hcond, ← IpcStakeCollateralMsg.saves_iff (h := ctx.blockHeight) (b := ctx.blockHash)
    (i := X.computeTxid tx) ht hgood hg hs hfor hv]
  constructor
  · rintro ⟨-, -, hout⟩
    exact (outcome_saving.mp hout).2
  · intro hsave
    exact ⟨hplain.witnessMessages_eq, hfound, outcome_saving.mpr ⟨hvalid, hsave⟩⟩

variable (hschnorr : SchnorrLaws X)
include hschnorr

theorem takes_unstake_iff {validator : Option X.SecretKey} {id : SubnetId} {amount : Amount}
    (h : unstakeCollateral X w db validator ⟨id, amount, none⟩ = .ok tx) :
    Takes X cfg ctx db tx (messageFor X validator (.unstake id amount)) ↔
      Sendable X db validator (.unstake id amount) := by
  obtain ⟨sk, s, g, prev, sig, value, rfl, hvalid, hs, hg, hfor, hsig, hprev, hcarries, hplain⟩ :=
    unstakeCollateral_eq_ok hw h
  obtain ⟨t, rfl, hid, -, -⟩ := hsound.state laws hs
  have hgood := hsound.latest laws hs
  obtain ⟨v, hpk, hv, -, hamount⟩ := IpcUnstakeCollateralMsg.validator_of_validateForSubnet hfor
  obtain hkey : X.xOnlyPublicKey sk = v.pubkey := Option.some.inj hpk
  have hsig' : sig = X.signSchnorr sk (X.sha256 (prev.bytes ++ (X.xOnlyPublicKey sk).bytes ++
      toBe amountSize amount ++ t.bytes)) := by
    simpa [IpcUnstakeCollateralMsg.makeSignature, IpcUnstakeCollateralMsg.makeSignatureMsg]
      using hsig.symm
  have hparse := hcarries.fromTx_unstake laws hsound hdist hs hschnorr hid hsig'
    (hprev ipcUnstakeTag) hamount
  have hfirst := hcarries.found_unstake (X := X) ctx db hplain (Or.inl rfl)
  simp only [hparse, hkey] at hfirst
  simp only [Sendable, messageFor, hs, hkey, hv, Option.mem_some_iff, forall_eq', Option.map_some]
  cases hc : s.committee.findValidator v.pubkey with
  | none =>
    have hkill : ∃ e, IpcKillSubnetMsg.fromTx X db tx = raise e :=
      bind_raise _ (hcarries.taggedData_other (by decide) _ _)
    have hnone : ¬ s.committee.isValidator v.pubkey = true := by
      rw [isValidator_iff_find, hc]
      rintro ⟨_, hsome⟩
      cases hsome
    constructor
    · rintro ⟨-, hfound, -⟩
      rw [hfirst, hc] at hfound
      obtain ⟨e, he⟩ := hkill
      rw [he] at hfound
      cases hfound
    · rintro ⟨hmember, -⟩
      exact absurd hmember hnone
  | some u =>
    have hu := (SubnetCommittee.findValidator_eq_some hc).2
    have hfound : (firstParsed (outputParsers X ctx db tx) : Outcome MonitorError _) =
        .ok (some (.unstakeCollateral ⟨.fromTxid20 t, amount, some v.pubkey⟩)) := by
      rw [hfirst, hc, ← hu, ← hid]
      rfl
    rw [hkey] at hvalid hfor
    have hsaves := IpcUnstakeCollateralMsg.saves_iff (h := ctx.blockHeight)
      (b := ctx.blockHash) (i := X.computeTxid tx) rfl hgood hg hs hfor rfl hv
    constructor
    · rintro ⟨-, -, hout⟩
      exact ⟨isValidator_iff_find.mpr ⟨u, hc⟩, hsaves.mp (outcome_saving.mp hout).2⟩
    · rintro ⟨-, hpos⟩
      exact ⟨hplain.witnessMessages_eq, hfound,
        outcome_saving.mpr ⟨hvalid, hsaves.mpr hpos⟩⟩

theorem takes_kill_iff {validator : Option X.SecretKey} {id : SubnetId}
    (hheight : ctx.blockHeight = db.getLastProcessedBlock + 1)
    (h : killSubnet X w db validator ⟨id, none⟩ = .ok tx) :
    Takes X cfg ctx db tx (messageFor X validator (.kill id)) ↔
      Sendable X db validator (.kill id) := by
  obtain ⟨sk, s, g, prev, sig, value, rfl, hvalid, hs, hg, hfor, hfresh, hsig, hprev, hcarries,
    hplain⟩ := killSubnet_eq_ok hw h
  obtain ⟨t, rfl, hid, -, -⟩ := hsound.state laws hs
  have hgood := hsound.latest laws hs
  obtain ⟨v, hv⟩ : ∃ v, s.latestCommittee.findValidator (X.xOnlyPublicKey sk) = some v := by
    obtain ⟨_, -, hfor⟩ := bind_eq_ok.mp hfor
    obtain ⟨_, hpk, hmember⟩ := bind_eq_ok.mp hfor
    cases hpk
    exact isValidator_iff_find.mp (ensure_eq_ok.mp hmember)
  have hkey : X.xOnlyPublicKey sk = v.pubkey := (SubnetCommittee.findValidator_eq_some hv).2.symm
  have hsig' : sig = X.signSchnorr sk (X.sha256 (prev.bytes ++ (X.xOnlyPublicKey sk).bytes ++
      t.bytes)) := by
    simpa [IpcKillSubnetMsg.makeSignature, IpcKillSubnetMsg.makeSignatureMsg] using hsig.symm
  have hparse := hcarries.fromTx_kill laws hsound hdist hs hschnorr hid hsig'
    (hprev ipcKillSubnetTag)
  have hfirst := hcarries.found_kill (X := X) ctx db hplain
  -- what is valid at the next height was valid at the last one
  have hfresh' : ¬ (db.getValidKillRequests X (.fromTxid20 t) ctx.blockHeight).any
      (fun r => r.validatorXpk = v.pubkey) = true := by
    rw [← hkey]
    intro hany
    obtain ⟨r, hr, hrk⟩ := List.any_eq_true.mp hany
    refine hfresh (List.any_eq_true.mpr ⟨r, ?_, hrk⟩)
    obtain ⟨hscan, hvalid⟩ := List.mem_filter.mp hr
    refine List.mem_filter.mpr ⟨hscan, ?_⟩
    rw [decide_eq_true_iff] at hvalid ⊢
    omega
  simp only [hparse, hkey] at hfirst
  rw [hkey] at hv hvalid hfor
  simp only [Sendable, messageFor, hs, hkey, hv, Option.mem_some_iff, forall_eq', Option.map_some]
  cases hc : s.committee.findValidator v.pubkey with
  | none =>
    have hnone : ¬ s.committee.isValidator v.pubkey = true := by
      rw [isValidator_iff_find, hc]
      rintro ⟨_, hsome⟩
      cases hsome
    constructor
    · rintro ⟨-, hfound, -⟩
      rw [hfirst, hc] at hfound
      cases hfound
    · rintro ⟨hmember, -⟩
      exact absurd hmember hnone
  | some u =>
    have hu := (SubnetCommittee.findValidator_eq_some hc).2
    have hfound : (firstParsed (outputParsers X ctx db tx) : Outcome MonitorError _) =
        .ok (some (.killSubnet ⟨.fromTxid20 t, some v.pubkey⟩)) := by
      rw [hfirst, hc, ← hu, ← hid]
      rfl
    have hsaves := IpcKillSubnetMsg.saves_iff (h := ctx.blockHeight) (b := ctx.blockHash)
      (i := X.computeTxid tx) hgood hg hs hfor rfl hv hfresh'
    rw [← hheight]
    constructor
    · rintro ⟨-, -, hout⟩
      exact ⟨isValidator_iff_find.mpr ⟨u, hc⟩, hsaves.mp (outcome_saving.mp hout).2⟩
    · rintro ⟨-, hvotes⟩
      exact ⟨hplain.witnessMessages_eq, hfound,
        outcome_saving.mpr ⟨hvalid, hsaves.mpr hvotes⟩⟩

end Iff

/-- On every state that is reached, the monitor takes the transaction of an accepted request in
the next block, as the message of the request, exactly when the request meets the condition. -/
theorem request_taken_iff (laws : DisplayLaws X) (hw : WalletLaws w) (hschnorr : SchnorrLaws X)
    (hreach : Reachable X db) (hdist : AddressesDistinct X db) (cfg : Config)
    {ctx : BlockContext} (hheight : ctx.blockHeight = db.getLastProcessedBlock + 1)
    {validator : Option X.SecretKey} {r : Request} (htyped : r.Typed X)
    (h : transactionFor X w db validator r = .ok tx) :
    Takes X cfg ctx db tx (messageFor X validator r) ↔ Sendable X db validator r := by
  have hsound := sound_of_reachable laws hreach
  cases r with
  | fund m => exact takes_fund_iff laws hw hsound cfg ctx h
  | stake m =>
    obtain ⟨s, -, hs, -, -, -⟩ := stakeCollateral_eq_ok hw h
    obtain ⟨t, ht, -, -, -⟩ := hsound.state laws hs
    obtain ⟨l, hl, rfl⟩ := hreach
    obtain ⟨g, hg⟩ := Option.isSome_iff_exists.mp ((housed_of_trail laws t hl).genesis
      (by rw [← ht, hs]; rfl))
    exact takes_stake_iff laws hw hsound cfg ctx hdist htyped (ht ▸ hg) h
  | unstake id amount => exact takes_unstake_iff laws hw hsound cfg ctx hdist hschnorr h
  | kill id => exact takes_kill_iff laws hw hsound cfg ctx hdist hschnorr hheight h

open Solo

/-- A signature that shows its key and the hash of what is signed. -/
def stamp (k : XOnlyPublicKey) (d : List UInt8) : Signature :=
  ⟨k.bytes ++ (polynomialHash (d.map (·.toNat))).bytes, by
    rw [List.length_append, k.length_eq, FixedBytes.length_eq]⟩

theorem stamp_key {k k' : XOnlyPublicKey} {d d' : List UInt8} (h : stamp k d = stamp k' d') :
    k = k' := by
  have hbytes := congrArg (fun s : Signature => s.bytes.take 32) h
  simp only [stamp, List.take_left' k.length_eq, List.take_left' k'.length_eq] at hbytes
  exact FixedBytes.ext_bytes hbytes

/-- The library in which every key can sign. -/
def stampLibrary : Library :=
  { library 10000 [] with
    signSchnorr := stamp
    verifySchnorr := fun sig d k => sig = stamp k d }

theorem displayLaws_stamp : DisplayLaws stampLibrary :=
  have laws : DisplayLaws (library 10000 []) := displayLaws_ideal _
  ⟨laws.fvm_injective, laws.fvm_no_colon, laws.delegated_length, laws.eth_injective,
    laws.eth_no_colon⟩

theorem schnorrLaws_stamp : SchnorrLaws stampLibrary where
  complete _ _ := decide_eq_true rfl
  exact _ _ _ _ h := (stamp_key (of_decide_eq_true h)).symm

/-- A wallet with one output to spend. -/
def onePaymentWallet : Wallet where
  feeRate := 1
  fundTx tx := some { tx with
    input := [⟨⟨bytes32 20, 0⟩, [], 0xffffffff, []⟩]
    output := tx.output ++ [⟨5000, backup.scriptPubkey⟩] }
  signTx tx := some { tx with
    input := tx.input.map (fun i => { i with witness := [[0x30, 0x44, 0x02, 0x20]] }) }

theorem walletLaws_onePayment : WalletLaws onePaymentWallet where
  funded tx tx' h := by
    cases h
    exact ⟨_, rfl⟩
  signed tx tx' h := by
    cases h
    exact ⟨rfl, by simp only [List.map_map, Function.comp_def]⟩
  plain tx tx' h := by
    cases h
    intro i hi item hitem data hdata
    obtain ⟨_, -, rfl⟩ := List.mem_map.mp hi
    rw [List.mem_singleton.mp hitem] at hdata
    cases hdata

theorem addressesDistinct_of_entries (laws : DisplayLaws X)
    (h : ∀ a ∈ db.subnetDb.entries, ∀ b ∈ db.subnetDb.entries,
      a.2.committee.multisigAddress = b.2.committee.multisigAddress → a.1 = b.1) :
    AddressesDistinct X db := by
  intro id id' s s' hs hs' haddr
  have hmem := (OrderedTable.Table.get_eq_some_iff db.subnetDb).mp hs
  have hmem' := (OrderedTable.Table.get_eq_some_iff db.subnetDb).mp hs'
  exact subnetKey_injective laws _ (h _ hmem _ hmem' haddr)

/-- The subnet after its creation and the join of its validator. -/
def joinedDb : HeedDb := (run stampLibrary [createTx, joinTx 100000]).store HeedDb.empty

/-- The unstake of a part of the collateral is taken. -/
theorem unstake_taken : ∃ tx,
    transactionFor stampLibrary onePaymentWallet joinedDb (some key)
      (.unstake (.fromTxid20 subnet) 1000) = .ok tx ∧
    Takes stampLibrary ⟨none⟩ context joinedDb tx
      (.unstakeCollateral ⟨.fromTxid20 subnet, 1000, some key⟩) := by
  obtain ⟨tx, htx⟩ := exists_ok_of_isSome (by decide +kernel :
    (transactionFor stampLibrary onePaymentWallet joinedDb (some key)
      (.unstake (.fromTxid20 subnet) 1000)).toOption.isSome = true)
  have hreach : Reachable stampLibrary joinedDb := reachable_run _
  have hdist : AddressesDistinct stampLibrary joinedDb :=
    addressesDistinct_of_entries displayLaws_stamp (by decide +kernel)
  have hcond : (joinedDb.getSubnetState stampLibrary (.fromTxid20 subnet)).all (fun s =>
      s.committee.isValidator key && (s.latestCommittee.findValidator key).all (fun v =>
        decide (0 < powerAfter s.latestCommittee v (powerOf (v.collateral - 1000))))) = true := by
    decide +kernel
  have htyped : (Request.unstake (.fromTxid20 subnet) 1000).Typed stampLibrary := trivial
  refine ⟨tx, htx, (request_taken_iff displayLaws_stamp walletLaws_onePayment schnorrLaws_stamp
    hreach hdist ⟨none⟩ (by decide +kernel) htyped htx).mpr ?_⟩
  intro sk hsk s hs
  cases hsk
  rw [Option.mem_def.mp hs, Option.all_some, Bool.and_eq_true] at hcond
  refine ⟨hcond.1, fun v hv => ?_⟩
  have hv' := hcond.2
  rw [show s.latestCommittee.findValidator key = some v from hv, Option.all_some] at hv'
  exact of_decide_eq_true hv'

/-- The request of the validator to kill its subnet. -/
def stampedKillTx : Transaction :=
  payingTx 12 ipcKillSubnetTag
    (stamp key ((bytes32 12).bytes ++ key.bytes ++ subnet.bytes)).bytes 330 10

/-- A subnet that is marked for killing is funded, and the monitor ignores it. -/
theorem funding_of_pending_subnet_ignored :
    ¬ ∀ (X : Library) (w : Wallet) (db : HeedDb) (cfg : Config) (ctx : BlockContext)
      (validator : Option X.SecretKey) (r : Request) (tx : Transaction), DisplayLaws X →
      WalletLaws w → SchnorrLaws X → Reachable X db → AddressesDistinct X db →
      ctx.blockHeight = db.getLastProcessedBlock + 1 → r.Typed X →
      transactionFor X w db validator r = .ok tx →
      Takes X cfg ctx db tx (messageFor X validator r) := by
  intro hall
  set db := (run stampLibrary [createTx, joinTx 100000, stampedKillTx]).store HeedDb.empty with hdb
  set m : IpcFundSubnetMsg := ⟨.fromTxid20 subnet, 5000, user⟩ with hm
  obtain ⟨tx, htx⟩ := exists_ok_of_isSome (by decide +kernel :
    (transactionFor stampLibrary onePaymentWallet db (some key) (.fund m)).toOption.isSome = true)
  have hreach : Reachable stampLibrary db := reachable_run _
  have hdist : AddressesDistinct stampLibrary db :=
    addressesDistinct_of_entries displayLaws_stamp (by decide +kernel)
  obtain ⟨-, -, hout⟩ := hall stampLibrary onePaymentWallet db ⟨none⟩ context (some key) (.fund m)
    tx displayLaws_stamp walletLaws_onePayment schnorrLaws_stamp hreach hdist (by decide +kernel)
    trivial htx
  have hno : (transactionFor stampLibrary onePaymentWallet db (some key) (.fund m)).toOption.all
      (fun tx => (processIpcMsg stampLibrary ⟨none⟩ context tx (.fundSubnet m)
        db).outcome.toOption.isNone) = true := by
    decide +kernel
  rw [toOption_eq_some.mpr htx, Option.all_some] at hno
  rw [show (processIpcMsg stampLibrary ⟨none⟩ context tx (.fundSubnet m) db).outcome = .ok () from
    hout] at hno
  cases hno

end Provider
