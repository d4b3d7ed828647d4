import BitcoinIpc.CoinSelection
import BitcoinIpc.Panics

/-!
# Spends that stop the provider

The amounts of a selection, of the outputs and of the fees are added without a
check, and a fee that cannot be computed is expected to exist. A spend ends, with
a transaction or with an error, exactly if every selection that it tries is made
of amounts.
-/

namespace Multisig

open Faults Bytes Chain Messages Crates Greedy Monitor

section Amounts

variable {ε : Type} {a b : Amount}

theorem ends_addAmount : Ends (addAmount a b : Outcome ε Amount) ↔ a + b < amountBound := by
  unfold addAmount
  split_ifs with h
  · exact iff_of_true trivial h
  · exact iff_of_false id h

theorem ends_subAmount : Ends (subAmount a b : Outcome ε Amount) ↔ b ≤ a := by
  unfold subAmount
  split_ifs with h
  · exact iff_of_true trivial h
  · exact iff_of_false id h

theorem ends_sumAmounts {l : List Amount} :
    Ends (sumAmounts l : Outcome ε Amount) ↔ l.sum < amountBound := by
  unfold sumAmounts
  split_ifs with h
  · exact iff_of_true trivial h
  · exact iff_of_false id h

/-- Without errors, what ends has a result. -/
theorem ends_iff_ok {ε α : Type} {x : Outcome ε α} (h : Raises (fun _ => ¬ True) x) :
    Ends x ↔ ∃ a, x = .ok a := h.endures_iff_ok

theorem ends_expect {α : Type} {o : Option α} :
    Ends (expect o : Outcome ε α) ↔ o.isSome = true := by
  cases o with
  | none => exact iff_of_false id (by simp)
  | some a => exact iff_of_true trivial rfl

theorem raises_expect {α : Type} {Q : ε → Prop} (o : Option α) :
    Raises Q (expect o : Outcome ε α) := by
  cases o with
  | none => exact raises_panicked
  | some a => exact raises_ok a

end Amounts

section Selection

variable {X : Library} {target dust : Amount} {feeRate : FeeRate} {perInput : Weight}
  {s : Selection} {l : List Utxo}

/-- The amount of a selection, its fee and what it needs are computed. -/
def Counts (X : Library) (feeRate : FeeRate) (need : Nat) (s : Selection) : Prop :=
  ∃ fee, X.feeWu feeRate s.totalWeight = some fee ∧ s.totalAmount < amountBound ∧
    need + fee < amountBound

/-- A loop over the entries computes every selection that it tries. It tries a selection when
those before it meet the condition to go on. -/
def Tries (X : Library) (goOn : Selection → Prop) (feeRate : FeeRate) (perInput : Weight)
    (need : Nat) (s : Selection) (l : List Utxo) : Prop :=
  ∀ p, p <+: l → p ≠ [] → (∀ q, q <+: p → q ≠ [] → q ≠ p → goOn (s.with perInput q)) →
    Counts X feeRate need (s.with perInput p)

theorem tries_nil {goOn : Selection → Prop} {need : Nat} :
    Tries X goOn feeRate perInput need s [] := by
  intro p hp hne
  exact absurd (List.prefix_nil.mp hp) hne

theorem tries_cons {goOn : Selection → Prop} {need : Nat} {u : Utxo} :
    Tries X goOn feeRate perInput need s (u :: l) ↔
      Counts X feeRate need (s.with perInput [u]) ∧
      (goOn (s.with perInput [u]) → Tries X goOn feeRate perInput need (s.with perInput [u]) l) := by
  constructor
  · intro h
    refine ⟨?_, ?_⟩
    · refine h [u] ⟨l, rfl⟩ (List.cons_ne_nil _ _) ?_
      intro q hq hne hne'
      rcases List.prefix_cons_iff.mp hq with rfl | ⟨q', rfl, hq'⟩
      · exact absurd rfl hne
      · rw [List.prefix_nil.mp hq'] at hne'
        exact absurd rfl hne'
    · intro hgo p hp hne hbefore
      rw [← Selection.with_cons]
      refine h (u :: p) (prefix_cons_of hp) (List.cons_ne_nil _ _) ?_
      intro q hq hqne hqne'
      rcases List.prefix_cons_iff.mp hq with rfl | ⟨q', rfl, hq'⟩
      · exact absurd rfl hqne
      · rw [Selection.with_cons]
        by_cases hnil : q' = []
        · rw [hnil, Selection.with_nil]
          exact hgo
        · exact hbefore q' hq' hnil (fun heq => hqne' (by rw [heq]))
  · rintro ⟨hcounts, hrest⟩ p hp hne hbefore
    rcases List.prefix_cons_iff.mp hp with rfl | ⟨p', rfl, hp'⟩
    · exact absurd rfl hne
    · by_cases hnil : p' = []
      · rw [hnil]
        exact hcounts
      · have hgo : goOn (s.with perInput [u]) :=
          hbefore [u] ⟨p', rfl⟩ (List.cons_ne_nil _ _) (fun h => hnil (List.cons.inj h).2.symm)
        rw [Selection.with_cons]
        refine hrest hgo p' hp' hnil ?_
        intro q hq hqne hqne'
        rw [← Selection.with_cons]
        exact hbefore (u :: q) (prefix_cons_of hq) (List.cons_ne_nil _ _)
          (fun heq => hqne' (List.cons.inj heq).2)

theorem ends_selectLargest :
    Ends (selectLargest X target feeRate perInput l s) ↔
      Tries X (Misses X feeRate target) feeRate perInput target s l := by
  induction l generalizing s with
  | nil => exact iff_of_true trivial tries_nil
  | cons u rest ih =>
    rw [tries_cons, ← ih, selectLargest, Selection.with_one]
    constructor
    · intro h
      obtain ⟨htotal, h⟩ := endures_bind.mp h
      have htotal := ends_addAmount.mp htotal
      obtain ⟨hfee, h⟩ := endures_bind.mp (h _ (addAmount_eq_ok.mpr ⟨htotal, rfl⟩))
      obtain ⟨fee, hfee⟩ := Option.isSome_iff_exists.mp (ends_expect.mp hfee)
      obtain ⟨hneed, h⟩ := endures_bind.mp (h fee (expect_eq_ok.mpr hfee))
      have hneed := ends_addAmount.mp hneed
      have hturn := h _ (addAmount_eq_ok.mpr ⟨hneed, rfl⟩)
      refine ⟨⟨fee, hfee, htotal, hneed⟩, ?_⟩
      rintro ⟨fee', hfee', -, -, hlt⟩
      obtain rfl : fee = fee' := Option.some.inj (hfee.symm.trans hfee')
      dsimp only at hturn
      rw [if_neg (not_le.mpr hlt)] at hturn
      exact hturn
    · rintro ⟨⟨fee, hfee, htotal, hneed⟩, hrest⟩
      refine Endures.bind (ends_addAmount.mpr htotal) (fun total hadd => ?_)
      obtain ⟨-, rfl⟩ := addAmount_eq_ok.mp hadd
      dsimp only at hfee ⊢
      rw [hfee, expect_eq_ok.mpr rfl, ok_bind]
      refine Endures.bind (ends_addAmount.mpr hneed) (fun need hadd => ?_)
      obtain ⟨-, rfl⟩ := addAmount_eq_ok.mp hadd
      split_ifs with hle
      · trivial
      · exact hrest ⟨fee, hfee, htotal, hneed, not_le.mp hle⟩

theorem ends_consolidate :
    Ends (consolidate X target feeRate perInput dust l s) ↔
      Tries X (Reaches X feeRate (target + dust)) feeRate perInput (target + dust) s l := by
  induction l generalizing s with
  | nil => exact iff_of_true trivial tries_nil
  | cons u rest ih =>
    have hcomm : ∀ fee, target + dust + fee = target + fee + dust := fun fee =>
      Nat.add_right_comm target dust fee
    rw [tries_cons, ← ih, consolidate, Selection.with_one]
    constructor
    · intro h
      obtain ⟨htotal, h⟩ := endures_bind.mp h
      have htotal := ends_addAmount.mp htotal
      obtain ⟨hfee, h⟩ := endures_bind.mp (h _ (addAmount_eq_ok.mpr ⟨htotal, rfl⟩))
      obtain ⟨fee, hfee⟩ := Option.isSome_iff_exists.mp (ends_expect.mp hfee)
      obtain ⟨hneed, h⟩ := endures_bind.mp (h fee (expect_eq_ok.mpr hfee))
      have hneed := ends_addAmount.mp hneed
      obtain ⟨hbound, h⟩ := endures_bind.mp (h _ (addAmount_eq_ok.mpr ⟨hneed, rfl⟩))
      have hbound := ends_addAmount.mp hbound
      have hturn := h _ (addAmount_eq_ok.mpr ⟨hbound, rfl⟩)
      rw [← hcomm] at hbound hturn
      refine ⟨⟨fee, hfee, htotal, hbound⟩, ?_⟩
      rintro ⟨fee', hfee', -, -, hle⟩
      obtain rfl : fee = fee' := Option.some.inj (hfee.symm.trans hfee')
      rw [if_neg (not_lt.mpr hle)] at hturn
      exact hturn
    · rintro ⟨⟨fee, hfee, htotal, hbound⟩, hrest⟩
      have hbound' : target + fee + dust < amountBound := by
        rw [← hcomm]
        exact hbound
      refine Endures.bind (ends_addAmount.mpr htotal) (fun total hadd => ?_)
      obtain ⟨-, rfl⟩ := addAmount_eq_ok.mp hadd
      dsimp only at hfee
      rw [hfee, expect_eq_ok.mpr rfl, ok_bind,
        addAmount_eq_ok.mpr ⟨lt_of_le_of_lt (Nat.le_add_right _ _) hbound', rfl⟩, ok_bind,
        addAmount_eq_ok.mpr ⟨hbound', rfl⟩, ok_bind, ← hcomm]
      split_ifs with hlt
      · trivial
      · exact hrest ⟨fee, hfee, htotal, hbound, not_lt.mp hlt⟩

/-- Every selection that the two loops try is computed. -/
structure SelectionFits (X : Library) (target dust : Amount) (feeRate : FeeRate)
    (baseTxWeight perInput : Weight) (limit : Nat) (utxos : List Utxo) : Prop where
  largest : Tries X (Misses X feeRate target) feeRate perInput target (noInputs baseTxWeight)
    (sortUtxos utxos)
  smallest : ∀ taken rest,
    Taken X feeRate perInput target (noInputs baseTxWeight) (sortUtxos utxos) taken rest →
    Tries X (Reaches X feeRate (target + dust)) feeRate perInput (target + dust)
      ((noInputs baseTxWeight).with perInput taken) (rest.reverse.take limit)

theorem ends_selectCoins {utxos : List Utxo} {baseTxWeight : Weight} {changeAddress : Address}
    {limit : Nat} :
    Ends (selectCoins X target utxos feeRate baseTxWeight perInput changeAddress limit) ↔
      SelectionFits X target (X.minimalNonDust changeAddress.scriptPubkey) feeRate baseTxWeight
        perInput limit utxos := by
  unfold selectCoins
  constructor
  · intro h
    obtain ⟨hlargest, h⟩ := endures_bind.mp h
    refine ⟨ends_selectLargest.mp hlargest, ?_⟩
    intro taken rest htaken
    have hsmallest := h _ (selectLargest_eq_ok.mpr ⟨taken, htaken, rfl⟩)
    exact ends_consolidate.mp (endures_bind.mp hsmallest).1
  · rintro ⟨hlargest, hsmallest⟩
    refine Endures.bind (ends_selectLargest.mpr hlargest) (fun r hr => ?_)
    obtain ⟨s₁, rest⟩ := r
    obtain ⟨taken, htaken, rfl⟩ := selectLargest_eq_ok.mp hr
    refine Endures.bind (ends_consolidate.mpr (hsmallest taken rest htaken)) (fun s₂ hs₂ => ?_)
    obtain ⟨extra, left, hswept, rfl⟩ := consolidate_eq_ok.mp hs₂
    obtain ⟨fee, hfee, -⟩ := hswept.reaches_target htaken.reaches
    dsimp only
    rw [hfee, expect_eq_ok.mpr rfl, ok_bind]
    refine Endures.bind (ends_ensure _) (fun _ _ => ?_)
    split_ifs <;> trivial

theorem raises_consolidate {Q : MultisigError → Prop} :
    Raises Q (consolidate X target feeRate perInput dust l s) := by
  induction l generalizing s with
  | nil => exact raises_ok _
  | cons u rest ih =>
    unfold consolidate
    refine (raises_addAmount _ _).bind (fun _ => (raises_expect _).bind (fun _ =>
      (raises_addAmount _ _).bind (fun _ => (raises_addAmount _ _).bind (fun _ => ?_))))
    split_ifs
    · exact raises_ok _
    · exact ih

/-- A selection that is computed succeeds if the first loop reaches the target. -/
theorem selects_iff {utxos : List Utxo} {baseTxWeight : Weight} {changeAddress : Address}
    {limit : Nat} (hfits : SelectionFits X target
      (X.minimalNonDust changeAddress.scriptPubkey) feeRate baseTxWeight perInput limit utxos) :
    (∃ r, selectCoins X target utxos feeRate baseTxWeight perInput changeAddress limit = .ok r) ↔
      ∃ taken rest,
        Taken X feeRate perInput target (noInputs baseTxWeight) (sortUtxos utxos) taken rest := by
  constructor
  · rintro ⟨⟨selected, change⟩, h⟩
    obtain ⟨taken, rest, -, -, -, htaken, -⟩ := selectCoins_eq_ok.mp h
    exact ⟨taken, rest, htaken⟩
  · rintro ⟨taken, rest, htaken⟩
    obtain ⟨s, hs⟩ := (ends_iff_ok raises_consolidate).mp
      (ends_consolidate.mpr (hfits.smallest taken rest htaken))
    obtain ⟨extra, left, hswept, rfl⟩ := consolidate_eq_ok.mp hs
    exact selectCoins_of_swept htaken hswept

end Selection

section Spending

variable {X : Library} {keys : List WeightedKey} {threshold : Power} {changeAddress : Address}
  {unspent : List Utxo} {exhaust : Bool} {outs : List TxOut} {feeRate : FeeRate} {limit : Nat}
  {tx : Transaction}

/-- The amounts and the fee of a sweep are computed. -/
def SweepFits (X : Library) (size : Nat) (changeAddress : Address) (unspent : List Utxo)
    (outs : List TxOut) (feeRate : FeeRate) : Prop :=
  unspent ≠ [] → worth unspent < amountBound ∧ valueOf outs < amountBound ∧
    (valueOf outs ≤ worth unspent →
      (sweepFee X size changeAddress unspent outs feeRate).isSome = true)

theorem ends_sweepTransaction {size : Nat} :
    Ends (sweepTransaction X size changeAddress unspent outs feeRate) ↔
      SweepFits X size changeAddress unspent outs feeRate := by
  unfold sweepTransaction
  constructor
  · intro h hne
    rw [ensure_pos hne, ok_bind] at h
    obtain ⟨htotal, h⟩ := endures_bind.mp h
    have htotal := ends_sumAmounts.mp htotal
    obtain ⟨hout, h⟩ := endures_bind.mp (h _ (sumAmounts_eq_ok.mpr ⟨htotal, rfl⟩))
    have hout := ends_sumAmounts.mp hout
    have h := h _ (sumAmounts_eq_ok.mpr ⟨hout, rfl⟩)
    refine ⟨htotal, hout, ?_⟩
    intro hle
    have hfee := (endures_bind.mp ((endures_bind.mp h).2 () (ensure_pos hle))).1
    exact ends_expect.mp hfee
  · intro h
    refine Endures.bind (ends_ensure _) (fun _ hne => ?_)
    obtain ⟨htotal, hout, hfee⟩ := h (ensure_eq_ok.mp hne)
    rw [sumAmounts_eq_ok.mpr ⟨htotal, rfl⟩, ok_bind, sumAmounts_eq_ok.mpr ⟨hout, rfl⟩, ok_bind]
    refine Endures.bind (ends_ensure _) (fun _ hle => ?_)
    refine Endures.bind (ends_expect.mpr (hfee (ensure_eq_ok.mp hle))) (fun fee _ => ?_)
    refine Endures.bind (ends_ensure _) (fun _ _ => ?_)
    dsimp only
    split_ifs <;> trivial

/-- The amounts and the fees of a spend are computed. -/
def SpendFits (X : Library) (keys : List WeightedKey) (threshold : Power)
    (changeAddress : Address) (unspent : List Utxo) (exhaust : Bool) (outs : List TxOut)
    (feeRate : FeeRate) (limit : Nat) : Prop :=
  if exhaust = true then
    SweepFits X (multisigSpendMaxWitnessSize keys threshold) changeAddress unspent outs feeRate
  else
    valueOf outs < amountBound ∧
    SelectionFits X (valueOf outs) (X.minimalNonDust changeAddress.scriptPubkey) feeRate
      (X.weight (spendTransaction [] (outs ++
        [⟨X.minimalNonDust changeAddress.scriptPubkey, changeAddress.scriptPubkey⟩])))
      (4 * txInBaseSize + multisigSpendMaxWitnessSize keys threshold) limit unspent

theorem ends_constructSpendUnsignedTransaction :
    Ends (constructSpendUnsignedTransaction X keys threshold changeAddress unspent exhaust outs
      feeRate limit) ↔
      SpendFits X keys threshold changeAddress unspent exhaust outs feeRate limit := by
  unfold constructSpendUnsignedTransaction SpendFits
  dsimp only
  split_ifs
  · exact ends_sweepTransaction
  · constructor
    · intro h
      obtain ⟨hout, h⟩ := endures_bind.mp h
      have hout := ends_sumAmounts.mp hout
      have h := h _ (sumAmounts_eq_ok.mpr ⟨hout, rfl⟩)
      exact ⟨hout, ends_selectCoins.mp (endures_bind.mp h).1⟩
    · rintro ⟨hout, hfits⟩
      have hout' : (outs.map TxOut.value).sum < amountBound := hout
      rw [sumAmounts_eq_ok.mpr ⟨hout', rfl⟩, ok_bind]
      exact Endures.bind (ends_selectCoins.mpr hfits) (fun _ _ => trivial)

theorem ends_findUtxo (unspent : List Utxo) (i : TxIn) : Ends (findUtxo unspent i) :=
  (ends_okOr _ _).bind (fun _ _ => trivial)

/-- The psbt of a committee with a script. -/
theorem ends_constructSpendPsbt {id : SubnetId} {t : Txid20} {script : Script}
    (hscript : createMultisigScript keys threshold = .ok script)
    (hid : (id.txid20 : Outcome MultisigError Txid20) = .ok t) :
    Ends (constructSpendPsbt X id keys threshold changeAddress unspent exhaust outs feeRate
      limit) ↔ SpendFits X keys threshold changeAddress unspent exhaust outs feeRate limit := by
  rw [← ends_constructSpendUnsignedTransaction]
  constructor
  · intro h
    exact (endures_bind.mp h).1
  · intro h
    refine Endures.bind h (fun tx _ => ?_)
    rw [hscript, ok_bind, createSubnetMultisigAddress, hscript, ok_bind, hid]
    exact (endures_traverseList (fun i _ => ends_findUtxo unspent i)).bind (fun _ _ => trivial)

end Spending

end Multisig
