import BitcoinIpc.Db

/-!
# What the committee operations do

Each operation on a committee either succeeds with the validators its name says
and a threshold and address computed from them, or it fails. It panics only when
the new validators have no power at all or more than half of the range of a
power.
-/

namespace Db

open Faults Bytes Chain Messages Crates Multisig

variable {X : Library}

/-- The total power of a list of validators. -/
def powerSum (vs : List SubnetValidator) : Nat := (vs.map (·.power)).sum

/-- Validators whose threshold and address can be computed. -/
def Viable (vs : List SubnetValidator) : Prop := 0 < powerSum vs ∧ powerSum vs * 2 < powerBound

instance (vs : List SubnetValidator) : Decidable (Viable vs) := by
  unfold Viable
  infer_instance

/-- The multisig script of a list of validators. -/
def scriptOf (vs : List SubnetValidator) : Script :=
  pushInt 0 ++ (sortCommitteeKeys (SubnetValidators.weightedKeys vs)).flatMap memberScript ++
    pushInt (powerSum vs * 2 / 3 + 1) ++ [opGreaterThanOrEqual]

variable (X) in
/-- The multisig address of a list of validators of a subnet. -/
def addressOf (t : Txid20) (vs : List SubnetValidator) : Address :=
  Address.p2tr (X.taprootOutputKey
    (.branch (.leaf (scriptOf vs)) (.leaf (createUnspendableSubnetIdScript t))))

theorem map_snd_weightedKeys (vs : List SubnetValidator) :
    (SubnetValidators.weightedKeys vs).map Prod.snd = vs.map (·.power) := by
  simp [SubnetValidators.weightedKeys]

theorem threshold_eq_ok {ε : Type} {vs : List SubnetValidator} {t : Power} :
    (SubnetValidators.threshold vs : Outcome ε Power) = .ok t ↔
      powerSum vs * 2 < powerBound ∧ t = powerSum vs * 2 / 3 + 1 := by
  have hsum : (vs.map (·.power)).sum = powerSum vs := rfl
  by_cases h : powerSum vs * 2 < powerBound
  · have h1 : powerSum vs < powerBound := by omega
    simp [SubnetValidators.threshold, SubnetValidators.totalPower, sumPower, multisigThreshold,
      hsum, h, h1, eq_comm]
  · by_cases h1 : powerSum vs < powerBound
    · simp [SubnetValidators.threshold, SubnetValidators.totalPower, sumPower,
        multisigThreshold, hsum, h, h1]
    · simp [SubnetValidators.threshold, SubnetValidators.totalPower, sumPower, hsum, h, h1]

theorem threshold_of_viable {ε : Type} {vs : List SubnetValidator} (h : Viable vs) :
    (SubnetValidators.threshold vs : Outcome ε Power) = .ok (powerSum vs * 2 / 3 + 1) :=
  threshold_eq_ok.mpr ⟨h.2, rfl⟩

theorem createMultisigScript_of_viable {vs : List SubnetValidator} (h : Viable vs) :
    createMultisigScript (SubnetValidators.weightedKeys vs) (powerSum vs * 2 / 3 + 1) =
      .ok (scriptOf vs) := by
  have hsum : (vs.map (·.power)).sum = powerSum vs := rfl
  have h1 : powerSum vs < powerBound := by have := h.2; omega
  have h2 : powerSum vs * 2 / 3 + 1 ≤ powerSum vs := by have := h.1; omega
  have htotal : (sumPower (vs.map (·.power)) : Outcome MultisigError Power) =
      .ok (powerSum vs) := by
    rw [sumPower, hsum, if_pos h1]
  simp only [createMultisigScript, map_snd_weightedKeys, htotal, ok_bind, ensure_pos h2, pure_eq,
    scriptOf]

/-- The address is computed exactly for viable validators. -/
theorem multisigAddress_eq_ok {ε : Type} {vs : List SubnetValidator} {t : Txid20} {a : Address} :
    (SubnetValidators.multisigAddress X vs (.fromTxid20 t) : Outcome ε Address) = .ok a ↔
      Viable vs ∧ a = addressOf X t vs := by
  constructor
  · intro h
    obtain ⟨th, hth, h⟩ := bind_eq_ok.mp h
    obtain ⟨hbound, rfl⟩ := threshold_eq_ok.mp hth
    rw [expectOk_eq_ok] at h
    obtain ⟨script, hs, -⟩ := bind_eq_ok.mp h
    obtain ⟨total, htotal, hs'⟩ := bind_eq_ok.mp hs
    obtain ⟨_, hle, -⟩ := bind_eq_ok.mp hs'
    rw [ensure_eq_ok] at hle
    have htot : total = powerSum vs := by
      rw [map_snd_weightedKeys] at htotal
      simp only [sumPower] at htotal
      split at htotal
      · exact (Except.ok.inj htotal).symm
      · exact absurd htotal (panicked_ne_ok _)
    have hpos : 0 < powerSum vs := by
      have hle' : powerSum vs * 2 / 3 + 1 ≤ powerSum vs := htot ▸ hle
      omega
    have hv : Viable vs := ⟨hpos, hbound⟩
    rw [createSubnetMultisigAddress, createMultisigScript_of_viable hv] at h
    simp only [ok_bind, SubnetId.txid20_fromTxid20, pure_eq, Except.ok.injEq] at h
    exact ⟨hv, h.symm⟩
  · rintro ⟨hv, rfl⟩
    simp [SubnetValidators.multisigAddress, threshold_of_viable hv, createSubnetMultisigAddress,
      createMultisigScript_of_viable hv, addressOf, expectOk]

/-- For validators that are not viable the address cannot be computed: the program panics. -/
theorem multisigAddress_of_not_viable {ε : Type} {vs : List SubnetValidator} {t : Txid20}
    (h : ¬ Viable vs) :
    (SubnetValidators.multisigAddress X vs (.fromTxid20 t) : Outcome ε Address) = panicked := by
  by_cases hb : powerSum vs * 2 < powerBound
  · have hth : (SubnetValidators.threshold vs : Outcome ε Power) =
        .ok (powerSum vs * 2 / 3 + 1) := threshold_eq_ok.mpr ⟨hb, rfl⟩
    cases ha : (SubnetValidators.multisigAddress X vs (.fromTxid20 t) : Outcome ε Address) with
    | ok a => exact absurd (multisigAddress_eq_ok.mp ha).1 h
    | error e =>
      simp only [SubnetValidators.multisigAddress, hth, ok_bind, expectOk] at ha
      split at ha
      · cases ha
      · exact ha.symm
  · have hth : (SubnetValidators.threshold vs : Outcome ε Power) = panicked := by
      have hsum : (vs.map (·.power)).sum = powerSum vs := rfl
      simp only [SubnetValidators.threshold, SubnetValidators.totalPower, sumPower, hsum]
      split
      · simp [multisigThreshold, hb]
      · rfl
    simp [SubnetValidators.multisigAddress, hth]

/-- A committee whose threshold and address are those of its validators. -/
structure Derived (X : Library) (t : Txid20) (c : SubnetCommittee) : Prop where
  viable : Viable c.validators
  threshold_eq : c.threshold = powerSum c.validators * 2 / 3 + 1
  address_eq : c.multisigAddress = addressOf X t c.validators

theorem Derived.address_valid {t : Txid20} {c : SubnetCommittee} (h : Derived X t c) :
    c.multisigAddress.isValidForNetwork = true := by
  rw [h.address_eq]
  rfl

theorem toCommittee_eq_ok {ε : Type} {vs : List SubnetValidator} {t : Txid20} {n : Nat}
    {c : SubnetCommittee}
    (h : (SubnetValidators.toCommittee X vs (.fromTxid20 t) n : Outcome ε SubnetCommittee) =
      .ok c) :
    c.validators = vs ∧ c.configurationNumber = n ∧ Derived X t c := by
  obtain ⟨th, hth, h⟩ := bind_eq_ok.mp h
  obtain ⟨a, ha, h⟩ := bind_eq_ok.mp h
  obtain ⟨hb, rfl⟩ := threshold_eq_ok.mp hth
  obtain ⟨hv, rfl⟩ := multisigAddress_eq_ok.mp ha
  cases h
  exact ⟨rfl, rfl, hv, rfl, rfl⟩

theorem toCommittee_of_viable {ε : Type} {vs : List SubnetValidator} (t : Txid20) (n : Nat)
    (h : Viable vs) :
    (SubnetValidators.toCommittee X vs (.fromTxid20 t) n : Outcome ε SubnetCommittee) =
      .ok ⟨n, powerSum vs * 2 / 3 + 1, vs, addressOf X t vs⟩ := by
  simp [SubnetValidators.toCommittee, threshold_of_viable h,
    multisigAddress_eq_ok.mpr ⟨h, rfl⟩]

namespace SubnetCommittee

variable {c c' : SubnetCommittee} {t : Txid20} {v : SubnetValidator} {pubkey : XOnlyPublicKey}

theorem rebuilt_eq_ok {n : Nat} {vs : List SubnetValidator} :
    c.rebuilt X (.fromTxid20 t) n vs = .ok c' ↔
      Viable vs ∧ c' = ⟨n, powerSum vs * 2 / 3 + 1, vs, addressOf X t vs⟩ := by
  constructor
  · intro h
    obtain ⟨th, hth, h⟩ := bind_eq_ok.mp h
    obtain ⟨a, ha, h⟩ := bind_eq_ok.mp h
    obtain ⟨hb, rfl⟩ := threshold_eq_ok.mp hth
    obtain ⟨hv, rfl⟩ := multisigAddress_eq_ok.mp ha
    exact ⟨hv, (Except.ok.inj h).symm⟩
  · rintro ⟨hv, rfl⟩
    simp [rebuilt, threshold_of_viable hv, multisigAddress_eq_ok.mpr ⟨hv, rfl⟩]

/-- What an operation that replaces the validators leaves. -/
structure RebuiltFrom (X : Library) (t : Txid20) (vs : List SubnetValidator) (n : Nat)
    (c : SubnetCommittee) : Prop where
  validators_eq : c.validators = vs
  number_eq : c.configurationNumber = n
  derived : Derived X t c

theorem rebuiltFrom_of_eq_ok {n : Nat} {vs : List SubnetValidator}
    (h : c.rebuilt X (.fromTxid20 t) n vs = .ok c') : RebuiltFrom X t vs n c' := by
  obtain ⟨hv, rfl⟩ := rebuilt_eq_ok.mp h
  exact ⟨rfl, rfl, hv, rfl, rfl⟩

theorem isValidator_iff : c.isValidator pubkey = true ↔ ∃ v ∈ c.validators, v.pubkey = pubkey := by
  simp [isValidator]

theorem findValidator_eq_some (h : c.findValidator pubkey = some v) :
    v ∈ c.validators ∧ v.pubkey = pubkey := by
  refine ⟨List.mem_of_find?_eq_some h, ?_⟩
  simpa using List.find?_some h

theorem joinNewValidator_eq_ok (h : c.joinNewValidator X (.fromTxid20 t) v = .ok c') :
    (∀ w ∈ c.validators, w.pubkey ≠ v.pubkey) ∧
      RebuiltFrom X t (c.validators ++ [v]) (c.configurationNumber + 2) c' := by
  obtain ⟨vs, hvs, h⟩ := bind_eq_ok.mp h
  obtain ⟨_, hnew, hvs⟩ := bind_eq_ok.mp hvs
  cases hvs
  rw [ensure_eq_ok] at hnew
  exact ⟨by simpa using hnew, rebuiltFrom_of_eq_ok h⟩

theorem modifyValidator_eq_ok (h : c.modifyValidator X (.fromTxid20 t) v = .ok c') :
    ∃ i, c.validators.findIdx? (fun w => w.pubkey = v.pubkey) = some i ∧
      RebuiltFrom X t (c.validators.set i v) (c.configurationNumber + 1) c' := by
  obtain ⟨i, hi, h⟩ := bind_eq_ok.mp h
  exact ⟨i, okOr_eq_ok.mp hi, rebuiltFrom_of_eq_ok h⟩

theorem removeValidator_eq_ok (h : c.removeValidator X (.fromTxid20 t) pubkey = .ok c') :
    ∃ i, c.validators.findIdx? (fun w => w.pubkey = pubkey) = some i ∧
      RebuiltFrom X t (c.validators.eraseIdx i) (c.configurationNumber + 1) c' := by
  obtain ⟨vs, hvs, h⟩ := bind_eq_ok.mp h
  obtain ⟨i, hi, hvs⟩ := bind_eq_ok.mp hvs
  cases hvs
  exact ⟨i, okOr_eq_ok.mp hi, rebuiltFrom_of_eq_ok h⟩

end SubnetCommittee

theorem latestCommittee_eq (s : SubnetState) :
    s.latestCommittee = s.waitingCommittee.getD s.committee := rfl

end Db
