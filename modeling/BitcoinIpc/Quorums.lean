import BitcoinIpc.Committee
import BitcoinIpc.IdealCrates
import Mathlib.Data.Finset.Basic

/-!
# Quorums

The threshold of a committee is over two thirds of its power, so that two sets of
validators that reach it share more than a third. The powers are 32-bit integers
and the total is doubled before it is divided: a committee within the limit on its
size can have a total that does not fit.
-/

namespace Db

open Faults Bytes Chain Messages Crates Multisig

/-- The power of the validators with a key of the set. -/
def powerOfKeys (vs : List SubnetValidator) (A : Finset XOnlyPublicKey) : Nat :=
  powerSum (vs.filter (·.pubkey ∈ A))

theorem powerOfKeys_cons (v : SubnetValidator) (vs : List SubnetValidator)
    (A : Finset XOnlyPublicKey) :
    powerOfKeys (v :: vs) A = (if v.pubkey ∈ A then v.power else 0) + powerOfKeys vs A := by
  by_cases h : v.pubkey ∈ A
  · simp [powerOfKeys, powerSum, h]
  · simp [powerOfKeys, powerSum, h]

/-- What two sets have beyond the total they share. -/
theorem powerOfKeys_add_le (vs : List SubnetValidator) (A B : Finset XOnlyPublicKey) :
    powerOfKeys vs A + powerOfKeys vs B ≤ powerSum vs + powerOfKeys vs (A ∩ B) := by
  induction vs with
  | nil => exact le_rfl
  | cons v vs ih =>
    have hsum : powerSum (v :: vs) = v.power + powerSum vs := by
      simp [powerSum]
    rw [powerOfKeys_cons, powerOfKeys_cons, powerOfKeys_cons, hsum]
    by_cases hA : v.pubkey ∈ A
    · by_cases hB : v.pubkey ∈ B
      · rw [if_pos hA, if_pos hB, if_pos (Finset.mem_inter.mpr ⟨hA, hB⟩)]
        omega
      · rw [if_pos hA, if_neg hB, if_neg (fun h => hB (Finset.mem_inter.mp h).2)]
        omega
    · rw [if_neg hA, if_neg (fun h => hA (Finset.mem_inter.mp h).1)]
      split_ifs
      · omega
      · omega

theorem threshold_le_total {total : Nat} (h : 0 < total) : total * 2 / 3 + 1 ≤ total := by
  omega

theorem lt_three_mul_shared {total a b shared : Nat} (ha : total * 2 / 3 + 1 ≤ a)
    (hb : total * 2 / 3 + 1 ≤ b) (h : a + b ≤ total + shared) : total < 3 * shared := by
  omega

/-- The total and the threshold are computed, the validators can reach the threshold, and
two sets that reach it share more than a third of the power. -/
def QuorumsMeet (vs : List SubnetValidator) : Prop :=
  ∃ total t : Power,
    (SubnetValidators.totalPower vs : Outcome DbError Power) = .ok total ∧
    (SubnetValidators.threshold vs : Outcome DbError Power) = .ok t ∧
    (0 < total → t ≤ total) ∧
    ∀ A B : Finset XOnlyPublicKey, t ≤ powerOfKeys vs A → t ≤ powerOfKeys vs B →
      total < 3 * powerOfKeys vs (A ∩ B)

theorem totalPower_eq_ok {ε : Type} {vs : List SubnetValidator} {total : Power} :
    (SubnetValidators.totalPower vs : Outcome ε Power) = .ok total ↔
      powerSum vs < powerBound ∧ powerSum vs = total := by
  have hsum : (vs.map (·.power)).sum = powerSum vs := rfl
  by_cases h : powerSum vs < powerBound
  · simp [SubnetValidators.totalPower, sumPower, hsum, h]
  · simp [SubnetValidators.totalPower, sumPower, hsum, h]

theorem quorumsMeet_iff_powerSum {vs : List SubnetValidator} :
    QuorumsMeet vs ↔ powerSum vs * 2 < powerBound := by
  constructor
  · rintro ⟨total, t, -, ht, -⟩
    exact (threshold_eq_ok.mp ht).1
  · intro h
    refine ⟨powerSum vs, powerSum vs * 2 / 3 + 1, totalPower_eq_ok.mpr ⟨by omega, rfl⟩,
      threshold_eq_ok.mpr ⟨h, rfl⟩, threshold_le_total, ?_⟩
    intro A B hA hB
    exact lt_three_mul_shared hA hB (powerOfKeys_add_le vs A B)

/-- The power of a collateral that was accepted, before any total is taken. -/
theorem powerSum_of_collaterals {vs : List SubnetValidator} {collaterals : List Amount}
    (h : List.Forall₂ (fun v c => ∃ minAmount, collateralToPower c minAmount = .ok v.power)
      vs collaterals) :
    powerSum vs = (collaterals.map (fun c => min c maxPower / powerScaleFactor)).sum := by
  induction h with
  | nil => rfl
  | cons hpower _ ih =>
    obtain ⟨minAmount, hpower⟩ := hpower
    have hv := (collateralToPower_eq_ok.mp hpower).2
    rw [List.map_cons, List.sum_cons, ← ih, powerSum, List.map_cons, List.sum_cons, hv]
    rfl

/-- Quorum arithmetic is right for the validators of a list of collaterals exactly if these,
each capped and in units of the scale factor, sum up to less than half the range of a power. -/
theorem quorumsMeet_iff {vs : List SubnetValidator} {collaterals : List Amount}
    (h : List.Forall₂ (fun v c => ∃ minAmount, collateralToPower c minAmount = .ok v.power)
      vs collaterals) :
    QuorumsMeet vs ↔
      (collaterals.map (fun c => min c maxPower / powerScaleFactor)).sum < 2 ^ 31 := by
  rw [quorumsMeet_iff_powerSum, powerSum_of_collaterals h, powerBound]
  omega

/-- The `i`th of many validators with the greatest power a collateral gives. -/
def wealthy (i : Nat) : SubnetValidator :=
  { Solo.validator 429496 with pubkey := ⟨toBe 32 i, length_toBe 32 i⟩ }

/-- Two of them. -/
theorem quorumsMeet_pair : QuorumsMeet [wealthy 0, wealthy 1] := by
  have hpowers : List.Forall₂ (fun v c => ∃ minAmount, collateralToPower c minAmount = .ok v.power)
      [wealthy 0, wealthy 1] [maxPower, maxPower] :=
    .cons ⟨0, rfl⟩ (.cons ⟨0, rfl⟩ .nil)
  exact (quorumsMeet_iff hpowers).mpr (by decide)

theorem wealthy_pubkey_injective {i j : Nat} (hi : i < 5001) (hj : j < 5001)
    (h : (wealthy i).pubkey = (wealthy j).pubkey) : i = j := by
  have hbound : 5001 < 256 ^ 32 := by decide
  have hbytes : toBe 32 i = toBe 32 j := congrArg FixedBytes.bytes h
  rw [← fromBe_toBe_of_lt (w := 32) (lt_trans hi hbound), hbytes,
    fromBe_toBe_of_lt (lt_trans hj hbound)]

theorem wealthy_keys_nodup : ((List.range 5001).map (fun i => (wealthy i).pubkey)).Nodup := by
  refine List.Nodup.map_on ?_ List.nodup_range
  intro i hi j hj h
  exact wealthy_pubkey_injective (List.mem_range.mp hi) (List.mem_range.mp hj) h

theorem powerSum_wealthy (n : Nat) : powerSum ((List.range n).map wealthy) = n * 429496 := by
  have hpower : ((List.range n).map wealthy).map (·.power) = List.replicate n 429496 := by
    rw [List.map_map]
    exact List.map_eq_replicate_iff.mpr (fun _ _ => rfl) |>.trans (by rw [List.length_range])
  rw [powerSum, hpower, List.sum_replicate_nat]

/-- Validators with distinct keys, few enough for the size of a committee, each with the
power of a collateral, whose doubled total overflows. -/
theorem quorumsMeet_fails : ¬ ∀ vs : List SubnetValidator, (vs.map (·.pubkey)).Nodup →
    (∀ v ∈ vs, ∃ c minAmount, collateralToPower c minAmount = .ok v.power) →
    vs.length < 2 ^ 16 → QuorumsMeet vs := by
  intro h
  have hmeet := h ((List.range 5001).map wealthy)
    (by rw [List.map_map]; exact wealthy_keys_nodup)
    (by
      intro v hv
      obtain ⟨i, -, rfl⟩ := List.mem_map.mp hv
      exact ⟨maxPower, 0, rfl⟩)
    (by rw [List.length_map, List.length_range]; decide)
  rw [quorumsMeet_iff_powerSum, powerSum_wealthy] at hmeet
  exact absurd hmeet (by decide)

end Db
