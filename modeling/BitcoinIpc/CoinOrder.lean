import BitcoinIpc.Multisig

/-!
# The order of the unspent outputs

The transaction that spends a committee's outputs does not depend on the order in
which the wallet lists them: coin selection sorts the entries, and of an entry it
uses the amount and the outpoint only.
-/

namespace Multisig

open Faults Bytes Chain Messages Crates

/-- An entry without its script. -/
def Utxo.bare (u : Utxo) : Utxo := { u with scriptPubkey := [] }

def Selection.bare (s : Selection) : Selection := { s with selected := s.selected.map Utxo.bare }

@[simp] theorem spendInput_bare (u : Utxo) : spendInput u.bare = spendInput u := rfl

theorem utxoBefore_total (a b : Utxo) : utxoBefore a b ∨ utxoBefore b a := by
  unfold utxoBefore
  rcases lt_trichotomy a.amount b.amount with h | h | h
  · exact Or.inr (Or.inl h)
  · rcases lt_trichotomy a.txid.num b.txid.num with h' | h' | h'
    · exact Or.inl (Or.inr ⟨h, Or.inl h'⟩)
    · rcases le_total a.vout b.vout with hv | hv
      · exact Or.inl (Or.inr ⟨h, Or.inr ⟨h', hv⟩⟩)
      · exact Or.inr (Or.inr ⟨h.symm, Or.inr ⟨h'.symm, hv⟩⟩)
    · exact Or.inr (Or.inr ⟨h.symm, Or.inl h'⟩)
  · exact Or.inl (Or.inl h)

theorem utxoBefore_trans {a b c : Utxo} (hab : utxoBefore a b) (hbc : utxoBefore b c) :
    utxoBefore a c := by
  unfold utxoBefore at *
  rcases hab with hab | ⟨hab, hab'⟩
  · rcases hbc with hbc | ⟨hbc, -⟩
    · exact Or.inl (lt_trans hbc hab)
    · exact Or.inl (hbc ▸ hab)
  · rcases hbc with hbc | ⟨hbc, hbc'⟩
    · exact Or.inl (hab ▸ hbc)
    · refine Or.inr ⟨hab.trans hbc, ?_⟩
      omega

/-- Entries that come before each other differ at most in their script. -/
theorem bare_eq_of_before {a b : Utxo} (hab : utxoBefore a b) (hba : utxoBefore b a) :
    a.bare = b.bare := by
  unfold utxoBefore at *
  have hamount : a.amount = b.amount := by
    rcases hab with h | ⟨h, -⟩
    · rcases hba with h' | ⟨h', -⟩
      · exact absurd h (lt_asymm h')
      · exact h'.symm
    · exact h
  have hrest : a.txid.num = b.txid.num ∧ a.vout = b.vout := by
    have h1 : ¬ b.amount < a.amount := by rw [hamount]; exact lt_irrefl _
    have h2 : ¬ a.amount < b.amount := by rw [hamount]; exact lt_irrefl _
    have h3 := (hab.resolve_left h1).2
    have h4 := (hba.resolve_left h2).2
    omega
  have htxid := FixedBytes.num_injective 32 hrest.1
  obtain ⟨at', av, aa, as⟩ := a
  obtain ⟨bt, bv, ba, bs⟩ := b
  simp only at hamount htxid hrest
  simp only [Utxo.bare, hamount, htxid, hrest.2]

instance : Std.Total utxoBefore := ⟨utxoBefore_total⟩
instance : IsTrans Utxo utxoBefore := ⟨fun _ _ _ => utxoBefore_trans⟩

theorem sortUtxos_bare_of_perm {l l' : List Utxo} (h : l.Perm l') :
    (sortUtxos l).map Utxo.bare = (sortUtxos l').map Utxo.bare := by
  have hperm : (sortUtxos l).Perm (sortUtxos l') :=
    (List.perm_insertionSort _ l).trans (h.trans (List.perm_insertionSort _ l').symm)
  have hs := List.pairwise_insertionSort utxoBefore l
  have hs' := List.pairwise_insertionSort utxoBefore l'
  have hb : ((sortUtxos l).map Utxo.bare).Pairwise utxoBefore := List.pairwise_map.mpr hs
  have hb' : ((sortUtxos l').map Utxo.bare).Pairwise utxoBefore := List.pairwise_map.mpr hs'
  refine (hperm.map Utxo.bare).eq_of_pairwise ?_ hb hb'
  intro a b ha hb hab hba
  obtain ⟨a', -, rfl⟩ := List.mem_map.mp ha
  obtain ⟨b', -, rfl⟩ := List.mem_map.mp hb
  exact bare_eq_of_before (a := a') (b := b') hab hba

section Selecting

variable (X : Library) (target dust : Amount) (feeRate : FeeRate) (perInput : Weight)

/-- The scripts of the entries pass through the selection of the largest. -/
theorem selectLargest_bare (l : List Utxo) (s : Selection) :
    selectLargest X target feeRate perInput (l.map Utxo.bare) s.bare =
      (selectLargest X target feeRate perInput l s).map
        (fun r => (r.1.bare, r.2.map Utxo.bare)) := by
  induction l generalizing s with
  | nil => rfl
  | cons u rest ih =>
    rw [List.map_cons, selectLargest, selectLargest]
    change (addAmount s.totalAmount u.amount >>= _) = _
    cases addAmount (ε := MultisigError) s.totalAmount u.amount with
    | error e => rfl
    | ok total =>
      simp only [ok_bind]
      change (expect (X.feeWu feeRate (s.totalWeight + perInput)) >>= _) = _
      cases expect (ε := MultisigError) (X.feeWu feeRate (s.totalWeight + perInput)) with
      | error e => rfl
      | ok fee =>
        simp only [ok_bind]
        cases addAmount (ε := MultisigError) target fee with
        | error e => rfl
        | ok need =>
          have hs : (⟨s.bare.selected ++ [u.bare], total, s.bare.totalWeight + perInput⟩ :
              Selection) = Selection.bare ⟨s.selected ++ [u], total, s.totalWeight + perInput⟩ := by
            simp [Selection.bare]
          simp only [ok_bind, hs]
          split_ifs
          · rfl
          · exact ih _

theorem consolidate_bare (l : List Utxo) (s : Selection) :
    consolidate X target feeRate perInput dust (l.map Utxo.bare) s.bare =
      (consolidate X target feeRate perInput dust l s).map Selection.bare := by
  induction l generalizing s with
  | nil => rfl
  | cons u rest ih =>
    rw [List.map_cons, consolidate, consolidate]
    change (addAmount s.totalAmount u.amount >>= _) = _
    cases addAmount (ε := MultisigError) s.totalAmount u.amount with
    | error e => rfl
    | ok total =>
      simp only [ok_bind]
      change (expect (X.feeWu feeRate (s.totalWeight + perInput)) >>= _) = _
      cases expect (ε := MultisigError) (X.feeWu feeRate (s.totalWeight + perInput)) with
      | error e => rfl
      | ok fee =>
        simp only [ok_bind]
        cases addAmount (ε := MultisigError) target fee with
        | error e => rfl
        | ok need =>
          simp only [ok_bind]
          cases addAmount (ε := MultisigError) need dust with
          | error e => rfl
          | ok bound =>
            have hs : (⟨s.bare.selected ++ [u.bare], total, s.bare.totalWeight + perInput⟩ :
                Selection) =
                Selection.bare ⟨s.selected ++ [u], total, s.totalWeight + perInput⟩ := by
              simp [Selection.bare]
            simp only [ok_bind, hs]
            split_ifs
            · rfl
            · exact ih _

/-- The inputs and the change do not depend on the order of the entries. -/
theorem selectCoins_of_perm {l l' : List Utxo} (h : l.Perm l') (baseTxWeight : Weight)
    (changeAddress : Address) (limit : Nat) :
    (selectCoins X target l feeRate baseTxWeight perInput changeAddress limit).map
        (fun r => (r.1.map spendInput, r.2)) =
      (selectCoins X target l' feeRate baseTxWeight perInput changeAddress limit).map
        (fun r => (r.1.map spendInput, r.2)) := by
  have hlargest : (selectLargest X target feeRate perInput (sortUtxos l)
      ⟨[], 0, baseTxWeight⟩).map (fun r => (r.1.bare, r.2.map Utxo.bare)) =
      (selectLargest X target feeRate perInput (sortUtxos l')
        ⟨[], 0, baseTxWeight⟩).map (fun r => (r.1.bare, r.2.map Utxo.bare)) := by
    rw [← selectLargest_bare, ← selectLargest_bare, sortUtxos_bare_of_perm h]
  unfold selectCoins
  rcases map_eq_map_iff.mp hlargest with ⟨e, he, he'⟩ | ⟨⟨s, rest⟩, ⟨s', rest'⟩, hs, hs', heq⟩
  · rw [he, he']
  · obtain ⟨hsel, hrest⟩ := Prod.mk.inj heq
    rw [hs, hs']
    simp only [ok_bind]
    have htake : (rest.reverse.take limit).map Utxo.bare =
        (rest'.reverse.take limit).map Utxo.bare := by
      rw [List.map_take, List.map_take, List.map_reverse, List.map_reverse, hrest]
    have hcons : (consolidate X target feeRate perInput
        (X.minimalNonDust changeAddress.scriptPubkey) (rest.reverse.take limit) s).map
          Selection.bare =
        (consolidate X target feeRate perInput (X.minimalNonDust changeAddress.scriptPubkey)
          (rest'.reverse.take limit) s').map Selection.bare := by
      rw [← consolidate_bare, ← consolidate_bare, htake, hsel]
    rcases map_eq_map_iff.mp hcons with ⟨e, he, he'⟩ | ⟨c, c', hc, hc', hbare⟩
    · rw [he, he']
    · have hamount : c.bare.totalAmount = c'.bare.totalAmount := by rw [hbare]
      have hweight : c.bare.totalWeight = c'.bare.totalWeight := by rw [hbare]
      simp only [Selection.bare] at hamount hweight
      have hselected : c.selected.map spendInput = c'.selected.map spendInput := by
        have hbares : c.selected.map Utxo.bare = c'.selected.map Utxo.bare :=
          congrArg Selection.selected hbare
        have := congrArg (List.map spendInput) hbares
        simpa only [List.map_map, Function.comp_def, spendInput_bare] using this
      rw [hc, hc']
      simp only [ok_bind, hamount, hweight]
      cases expect (ε := MultisigError) (X.feeWu feeRate c'.totalWeight) with
      | error e => rfl
      | ok fee =>
        simp only [ok_bind]
        by_cases hcover : target + fee ≤ c'.totalAmount
        · rw [ensure_pos hcover]
          simp only [ok_bind]
          split_ifs
          · simp [Except.map, hselected]
          · simp [Except.map, hselected]
        · rw [ensure_neg hcover]
          rfl

/-- So does the whole spending transaction. -/
theorem constructSpendUnsignedTransaction_of_perm {l l' : List Utxo} (h : l.Perm l')
    (keys : List WeightedKey) (threshold : Power) (changeAddress : Address) (exhaust : Bool)
    (outs : List TxOut) (limit : Nat) :
    constructSpendUnsignedTransaction X keys threshold changeAddress l exhaust outs feeRate limit =
      constructSpendUnsignedTransaction X keys threshold changeAddress l' exhaust outs feeRate
        limit := by
  unfold constructSpendUnsignedTransaction
  split_ifs
  · unfold sweepTransaction
    have hinputs : (sortUtxos l).map spendInput = (sortUtxos l').map spendInput := by
      have := congrArg (List.map spendInput) (sortUtxos_bare_of_perm h)
      simpa only [List.map_map, Function.comp_def, spendInput_bare] using this
    have hsum : (l.map (·.amount)).sum = (l'.map (·.amount)).sum :=
      (h.map (fun u : Utxo => u.amount)).sum_nat
    have hsums : (sumAmounts (l.map (·.amount)) : Outcome MultisigError Amount) =
        sumAmounts (l'.map (·.amount)) := by
      rw [sumAmounts, sumAmounts, hsum]
    have hensure : (ensure (l ≠ []) (.coinSelectionFailed "No UTXOs available") :
        Outcome MultisigError Unit) =
        ensure (l' ≠ []) (.coinSelectionFailed "No UTXOs available") := by
      by_cases hl : l = []
      · subst hl
        rw [h.symm.eq_nil]
      · have hl' : l' ≠ [] := by
          rintro rfl
          exact hl h.eq_nil
        rw [ensure_pos hl, ensure_pos hl']
    rw [hensure, hsums, hinputs, h.length_eq]
  · cases sumAmounts (ε := MultisigError) (outs.map (·.value)) with
    | error e => rfl
    | ok amount =>
      simp only [ok_bind]
      rcases map_eq_map_iff.mp (selectCoins_of_perm X amount feeRate
        (4 * txInBaseSize + multisigSpendMaxWitnessSize keys threshold) h
        (X.weight (spendTransaction [] (outs ++ [⟨X.minimalNonDust changeAddress.scriptPubkey,
          changeAddress.scriptPubkey⟩]))) changeAddress limit) with
        ⟨e, he, he'⟩ | ⟨⟨s, c⟩, ⟨s', c'⟩, hs, hs', heq⟩
      · rw [he, he']
      · obtain ⟨hinputs, rfl⟩ := Prod.mk.inj heq
        simp only [hs, hs', ok_bind, hinputs]

theorem findUtxo_of_perm {l l' : List Utxo} (h : l.Perm l') (i : TxIn) :
    (findUtxo l i).map (fun _ => ()) = (findUtxo l' i).map (fun _ => ()) := by
  have hsome : (l.find? (fun u => u.txid = i.previousOutput.txid ∧
      u.vout = i.previousOutput.vout)).isSome =
      (l'.find? (fun u => u.txid = i.previousOutput.txid ∧
        u.vout = i.previousOutput.vout)).isSome := by
    rw [Bool.eq_iff_iff, List.find?_isSome, List.find?_isSome]
    simp only [h.mem_iff]
  unfold findUtxo
  cases hl : l.find? (fun u => u.txid = i.previousOutput.txid ∧
      u.vout = i.previousOutput.vout) with
  | none =>
    rw [hl] at hsome
    have hl' := Option.isSome_eq_false_iff.mp hsome.symm
    rw [Option.isNone_iff_eq_none.mp hl']
  | some u =>
    rw [hl] at hsome
    obtain ⟨u', hu'⟩ := Option.isSome_iff_exists.mp hsome.symm
    rw [hu']
    rfl

theorem constructSpendPsbt_of_perm {l l' : List Utxo} (h : l.Perm l') (subnetId : SubnetId)
    (keys : List WeightedKey) (threshold : Power) (changeAddress : Address) (exhaust : Bool)
    (outs : List TxOut) (limit : Nat) :
    (constructSpendPsbt X subnetId keys threshold changeAddress l exhaust outs feeRate limit).map
        Psbt.unsignedTx =
      (constructSpendPsbt X subnetId keys threshold changeAddress l' exhaust outs feeRate
        limit).map Psbt.unsignedTx := by
  unfold constructSpendPsbt
  rw [constructSpendUnsignedTransaction_of_perm X feeRate h]
  cases constructSpendUnsignedTransaction X keys threshold changeAddress l' exhaust outs feeRate
    limit with
  | error e => rfl
  | ok tx =>
    simp only [ok_bind]
    cases createMultisigScript keys threshold with
    | error e => rfl
    | ok script =>
      simp only [ok_bind]
      cases createSubnetMultisigAddress X subnetId keys threshold with
      | error e => rfl
      | ok a =>
        simp only [ok_bind]
        rcases map_eq_map_iff.mp (traverse_map_unit (l := tx.input)
          (fun i _ => findUtxo_of_perm h i)) with ⟨e, hl, hl'⟩ | ⟨us, us', hl, hl', -⟩
        · rw [hl, hl']
        · rw [hl, hl']
          rfl

end Selecting

end Multisig
