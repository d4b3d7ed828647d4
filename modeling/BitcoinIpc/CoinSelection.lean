import BitcoinIpc.CoinOrder
import BitcoinIpc.IdealCrates
import BitcoinIpc.Lib.Greedy

/-!
# Coin selection

What the two loops of `select_coins` choose: the shortest prefix of the entries,
largest first, that covers the target and the fee, and then the smallest of the
others as long as the change stays at the dust limit or above it.
-/

namespace Multisig

open Faults Bytes Chain Messages Crates Greedy

/-- Amount of some entries. -/
abbrev worth (l : List Utxo) : Nat := weigh Utxo.amount l

/-- The selection with further inputs. -/
def Selection.with (perInput : Weight) (s : Selection) (l : List Utxo) : Selection :=
  ⟨s.selected ++ l, s.totalAmount + worth l, s.totalWeight + l.length * perInput⟩

section Loops

variable (X : Library) {target dust : Amount} {feeRate : FeeRate} {perInput : Weight}

@[simp] theorem Selection.with_nil (s : Selection) : s.with perInput [] = s := by
  simp [Selection.with]

theorem Selection.with_append (s : Selection) (l l' : List Utxo) :
    s.with perInput (l ++ l') = (s.with perInput l).with perInput l' := by
  simp only [Selection.with, List.append_assoc, weigh_append, List.length_append, Nat.add_mul]
  rw [Nat.add_assoc, Nat.add_assoc]

theorem Selection.with_cons (s : Selection) (u : Utxo) (l : List Utxo) :
    s.with perInput (u :: l) = (s.with perInput [u]).with perInput l :=
  s.with_append [u] l

/-- The amount reaches the need and the fee, and nothing overflows on the way. -/
def Reaches (feeRate : FeeRate) (need : Nat) (s : Selection) : Prop :=
  ∃ fee, X.feeWu feeRate s.totalWeight = some fee ∧ s.totalAmount < amountBound ∧
    need + fee < amountBound ∧ need + fee ≤ s.totalAmount

/-- The amount misses the need and the fee, and nothing overflows on the way. -/
def Misses (feeRate : FeeRate) (need : Nat) (s : Selection) : Prop :=
  ∃ fee, X.feeWu feeRate s.totalWeight = some fee ∧ s.totalAmount < amountBound ∧
    need + fee < amountBound ∧ s.totalAmount < need + fee

variable {X}

theorem Reaches.not_misses {need : Nat} {s : Selection} (h : Reaches X feeRate need s) :
    ¬ Misses X feeRate need s := by
  rintro ⟨fee', hfee', -, -, hlt⟩
  obtain ⟨fee, hfee, -, -, hle⟩ := h
  obtain rfl : fee = fee' := Option.some.inj (hfee.symm.trans hfee')
  exact absurd hle (not_le.mpr hlt)

theorem Selection.with_one (s : Selection) (u : Utxo) :
    s.with perInput [u] =
      ⟨s.selected ++ [u], s.totalAmount + u.amount, s.totalWeight + perInput⟩ := by
  simp [Selection.with]

/-- One turn of the first loop. -/
theorem selectLargest_cons {u : Utxo} {rest : List Utxo} {s : Selection}
    {r : Selection × List Utxo} :
    selectLargest X target feeRate perInput (u :: rest) s = .ok r ↔
      (Reaches X feeRate target (s.with perInput [u]) ∧ r = (s.with perInput [u], rest)) ∨
      (Misses X feeRate target (s.with perInput [u]) ∧
        selectLargest X target feeRate perInput rest (s.with perInput [u]) = .ok r) := by
  rw [selectLargest, Selection.with_one]
  constructor
  · intro h
    obtain ⟨total, htotal, h⟩ := bind_eq_ok.mp h
    obtain ⟨fee, hfee, h⟩ := bind_eq_ok.mp h
    obtain ⟨need, hneed, h⟩ := bind_eq_ok.mp h
    obtain ⟨hlt, rfl⟩ := addAmount_eq_ok.mp htotal
    obtain ⟨hlt', rfl⟩ := addAmount_eq_ok.mp hneed
    rw [expect_eq_ok] at hfee
    dsimp only at h
    split_ifs at h with hle
    · cases h
      exact Or.inl ⟨⟨fee, hfee, hlt, hlt', hle⟩, rfl⟩
    · exact Or.inr ⟨⟨fee, hfee, hlt, hlt', not_le.mp hle⟩, h⟩
  · rintro (⟨⟨fee, hfee, hlt, hlt', hle⟩, rfl⟩ | ⟨⟨fee, hfee, hlt, hlt', hle⟩, h⟩)
    all_goals
      dsimp only at hfee hlt hle ⊢
      rw [addAmount_eq_ok.mpr ⟨hlt, rfl⟩, ok_bind, hfee, expect_eq_ok.mpr rfl, ok_bind,
        addAmount_eq_ok.mpr ⟨hlt', rfl⟩, ok_bind]
    · exact if_pos hle
    · rw [if_neg (not_le.mpr hle)]
      exact h

/-- One turn of the second loop. -/
theorem consolidate_cons {u : Utxo} {rest : List Utxo} {s s' : Selection} :
    consolidate X target feeRate perInput dust (u :: rest) s = .ok s' ↔
      (Misses X feeRate (target + dust) (s.with perInput [u]) ∧ s' = s) ∨
      (Reaches X feeRate (target + dust) (s.with perInput [u]) ∧
        consolidate X target feeRate perInput dust rest (s.with perInput [u]) = .ok s') := by
  have hcomm : ∀ fee, target + dust + fee = target + fee + dust := fun fee =>
    Nat.add_right_comm target dust fee
  rw [consolidate, Selection.with_one]
  constructor
  · intro h
    obtain ⟨total, htotal, h⟩ := bind_eq_ok.mp h
    obtain ⟨fee, hfee, h⟩ := bind_eq_ok.mp h
    obtain ⟨need, hneed, h⟩ := bind_eq_ok.mp h
    obtain ⟨bound, hbound, h⟩ := bind_eq_ok.mp h
    obtain ⟨hlt, rfl⟩ := addAmount_eq_ok.mp htotal
    obtain ⟨-, rfl⟩ := addAmount_eq_ok.mp hneed
    obtain ⟨hlt', rfl⟩ := addAmount_eq_ok.mp hbound
    rw [expect_eq_ok] at hfee
    rw [← hcomm] at h hlt'
    split_ifs at h with hle
    · cases h
      exact Or.inl ⟨⟨fee, hfee, hlt, hlt', hle⟩, rfl⟩
    · exact Or.inr ⟨⟨fee, hfee, hlt, hlt', not_lt.mp hle⟩, h⟩
  · rintro (⟨⟨fee, hfee, hlt, hlt', hle⟩, rfl⟩ | ⟨⟨fee, hfee, hlt, hlt', hle⟩, h⟩)
    all_goals
      dsimp only at hfee hlt hle ⊢
      rw [hcomm] at hlt' hle
      rw [hfee, addAmount_eq_ok.mpr ⟨hlt, rfl⟩, ok_bind, expect_eq_ok.mpr rfl, ok_bind,
        addAmount_eq_ok.mpr ⟨lt_of_le_of_lt (Nat.le_add_right _ _) hlt', rfl⟩, ok_bind,
        addAmount_eq_ok.mpr ⟨hlt', rfl⟩, ok_bind]
    · exact if_pos hle
    · rw [if_neg (not_lt.mpr hle)]
      exact h

/-- The entries that the first loop takes of a list. -/
structure Taken (X : Library) (feeRate : FeeRate) (perInput : Weight) (need : Nat) (s : Selection)
    (l taken rest : List Utxo) : Prop where
  split : l = taken ++ rest
  reaches : Reaches X feeRate need (s.with perInput taken)
  nonempty : taken ≠ []
  misses : ∀ p, p <+: taken → p ≠ [] → p ≠ taken → Misses X feeRate need (s.with perInput p)

theorem prefix_cons_of {u : Utxo} {p l : List Utxo} (h : p <+: l) : u :: p <+: u :: l :=
  List.prefix_cons_iff.mpr (Or.inr ⟨p, rfl, h⟩)

/-- A prefix of a list with a first entry: none of it, that entry, or more. -/
theorem prefix_cons_cases {u : Utxo} {p l : List Utxo} (hp : p <+: u :: l) :
    p = [] ∨ p = [u] ∨ ∃ q, p = u :: q ∧ q <+: l ∧ q ≠ [] := by
  rcases List.prefix_cons_iff.mp hp with rfl | ⟨q, rfl, hq⟩
  · exact Or.inl rfl
  · by_cases hnil : q = []
    · rw [hnil]
      exact Or.inr (Or.inl rfl)
    · exact Or.inr (Or.inr ⟨q, rfl, hq, hnil⟩)

theorem taken_one {need : Nat} {s : Selection} {u : Utxo} {l : List Utxo}
    (hreach : Reaches X feeRate need (s.with perInput [u])) :
    Taken X feeRate perInput need s (u :: l) [u] l := by
  refine ⟨rfl, hreach, List.cons_ne_nil _ _, ?_⟩
  intro p hp hne hne'
  rcases prefix_cons_cases hp with rfl | rfl | ⟨q, rfl, hq, hqn⟩
  · exact absurd rfl hne
  · exact absurd rfl hne'
  · exact absurd (List.prefix_nil.mp hq) hqn

theorem Taken.cons {need : Nat} {s : Selection} {u : Utxo} {l taken rest : List Utxo}
    (hmiss : Misses X feeRate need (s.with perInput [u]))
    (h : Taken X feeRate perInput need (s.with perInput [u]) l taken rest) :
    Taken X feeRate perInput need s (u :: l) (u :: taken) rest := by
  refine ⟨congrArg (List.cons u) h.split, ?_, List.cons_ne_nil _ _, ?_⟩
  · rw [Selection.with_cons]
    exact h.reaches
  · intro p hp hne hne'
    rcases prefix_cons_cases hp with rfl | rfl | ⟨q, rfl, hq, hqn⟩
    · exact absurd rfl hne
    · exact hmiss
    · rw [Selection.with_cons]
      exact h.misses q hq hqn (fun heq => hne' (congrArg (List.cons u) heq))

/-- What is taken with a first entry is that entry alone, or goes on after it. -/
theorem Taken.uncons {need : Nat} {s : Selection} {u : Utxo} {l taken rest : List Utxo}
    (h : Taken X feeRate perInput need s (u :: l) (u :: taken) rest) (hne : taken ≠ []) :
    Misses X feeRate need (s.with perInput [u]) ∧
      Taken X feeRate perInput need (s.with perInput [u]) l taken rest := by
  have hmiss : Misses X feeRate need (s.with perInput [u]) :=
    h.misses [u] ⟨taken, rfl⟩ (List.cons_ne_nil _ _) (fun heq => hne (List.cons.inj heq).2.symm)
  refine ⟨hmiss, (List.cons.inj h.split).2, ?_, hne, ?_⟩
  · rw [← Selection.with_cons]
    exact h.reaches
  · intro p hp hpn hp'
    rw [← Selection.with_cons]
    exact h.misses (u :: p) (prefix_cons_of hp)
      (List.cons_ne_nil _ _) (fun heq => hp' (List.cons.inj heq).2)

theorem selectLargest_eq_ok {l rest : List Utxo} {s s' : Selection} :
    selectLargest X target feeRate perInput l s = .ok (s', rest) ↔
      ∃ taken, Taken X feeRate perInput target s l taken rest ∧ s' = s.with perInput taken := by
  induction l generalizing s with
  | nil =>
    constructor
    · intro h
      cases h
    · rintro ⟨taken, htaken, -⟩
      exact absurd (List.append_eq_nil_iff.mp htaken.split.symm).1 htaken.nonempty
  | cons u l ih =>
    rw [selectLargest_cons]
    constructor
    · rintro (⟨hreach, heq⟩ | ⟨hmiss, hrest⟩)
      · obtain ⟨rfl, rfl⟩ := Prod.mk.inj heq
        exact ⟨[u], taken_one hreach, rfl⟩
      · obtain ⟨taken, htaken, rfl⟩ := ih.mp hrest
        exact ⟨u :: taken, htaken.cons hmiss, (s.with_cons u taken).symm⟩
    · rintro ⟨taken, htaken, rfl⟩
      obtain ⟨v, taken, rfl⟩ := List.exists_cons_of_ne_nil htaken.nonempty
      obtain ⟨rfl, hsplit⟩ := List.cons.inj htaken.split
      by_cases hnil : taken = []
      · subst hnil
        exact Or.inl ⟨htaken.reaches, by rw [hsplit]; rfl⟩
      · obtain ⟨hmiss, htail⟩ := htaken.uncons hnil
        exact Or.inr ⟨hmiss, ih.mpr ⟨taken, htail, s.with_cons u taken⟩⟩

/-- The entries that the second loop takes of a list. -/
structure Swept (X : Library) (feeRate : FeeRate) (perInput : Weight) (need : Nat) (s : Selection)
    (l taken rest : List Utxo) : Prop where
  split : l = taken ++ rest
  reaches : ∀ p, p <+: taken → p ≠ [] → Reaches X feeRate need (s.with perInput p)
  misses : ∀ u ∈ rest.head?, Misses X feeRate need (s.with perInput (taken ++ [u]))

theorem swept_nil {need : Nat} {s : Selection} {l : List Utxo}
    (hmiss : ∀ u ∈ l.head?, Misses X feeRate need (s.with perInput [u])) :
    Swept X feeRate perInput need s l [] l := by
  refine ⟨rfl, ?_, hmiss⟩
  intro p hp hne
  exact absurd (List.prefix_nil.mp hp) hne

/-- The second loop goes on after an entry exactly when that one leaves enough. -/
theorem swept_cons_iff {need : Nat} {s : Selection} {u : Utxo} {l taken rest : List Utxo} :
    Swept X feeRate perInput need s (u :: l) (u :: taken) rest ↔
      Reaches X feeRate need (s.with perInput [u]) ∧
        Swept X feeRate perInput need (s.with perInput [u]) l taken rest := by
  constructor
  · intro h
    refine ⟨h.reaches [u] ⟨taken, rfl⟩ (List.cons_ne_nil _ _), (List.cons.inj h.split).2, ?_, ?_⟩
    · intro p hp _
      rw [← Selection.with_cons]
      exact h.reaches (u :: p) (prefix_cons_of hp)
        (List.cons_ne_nil _ _)
    · intro v hv
      rw [← Selection.with_cons]
      exact h.misses v hv
  · rintro ⟨hreach, h⟩
    refine ⟨congrArg (List.cons u) h.split, ?_, ?_⟩
    · intro p hp hne
      rcases prefix_cons_cases hp with rfl | rfl | ⟨q, rfl, hq, hqn⟩
      · exact absurd rfl hne
      · exact hreach
      · rw [Selection.with_cons]
        exact h.reaches q hq hqn
    · intro v hv
      rw [List.cons_append, Selection.with_cons]
      exact h.misses v hv

theorem consolidate_eq_ok {l : List Utxo} {s s' : Selection} :
    consolidate X target feeRate perInput dust l s = .ok s' ↔
      ∃ taken rest, Swept X feeRate perInput (target + dust) s l taken rest ∧
        s' = s.with perInput taken := by
  induction l generalizing s with
  | nil =>
    constructor
    · intro h
      cases h
      refine ⟨[], [], swept_nil ?_, (Selection.with_nil _).symm⟩
      intro u hu
      cases hu
    · rintro ⟨taken, rest, hswept, rfl⟩
      rw [(List.append_eq_nil_iff.mp hswept.split.symm).1, Selection.with_nil]
      rfl
  | cons u l ih =>
    rw [consolidate_cons]
    constructor
    · rintro (⟨hmiss, rfl⟩ | ⟨hreach, hrest⟩)
      · refine ⟨[], u :: l, swept_nil ?_, (Selection.with_nil _).symm⟩
        intro v hv
        cases hv
        exact hmiss
      · obtain ⟨taken, rest, hswept, rfl⟩ := ih.mp hrest
        exact ⟨u :: taken, rest, swept_cons_iff.mpr ⟨hreach, hswept⟩, (s.with_cons u taken).symm⟩
    · rintro ⟨taken, rest, hswept, rfl⟩
      cases taken with
      | nil =>
        obtain rfl : u :: l = rest := hswept.split
        rw [Selection.with_nil]
        exact Or.inl ⟨hswept.misses u rfl, rfl⟩
      | cons v taken =>
        obtain ⟨rfl, -⟩ := List.cons.inj hswept.split
        obtain ⟨hreach, htail⟩ := swept_cons_iff.mp hswept
        exact Or.inr ⟨hreach, ih.mpr ⟨taken, rest, htail, s.with_cons u taken⟩⟩

/-- The selection that the loops start from. -/
abbrev noInputs (baseTxWeight : Weight) : Selection := ⟨[], 0, baseTxWeight⟩

/-- What is swept keeps the target and the fee covered. -/
theorem Swept.reaches_target {l taken rest : List Utxo} {s : Selection}
    (hreach : Reaches X feeRate target s)
    (h : Swept X feeRate perInput (target + dust) s l taken rest) :
    Reaches X feeRate target (s.with perInput taken) := by
  by_cases hnil : taken = []
  · rw [hnil, Selection.with_nil]
    exact hreach
  · obtain ⟨fee, hfee, hlt, hlt', hle⟩ := h.reaches taken (List.prefix_refl _) hnil
    have hsmaller : target + fee ≤ target + dust + fee := by
      rw [Nat.add_right_comm]
      exact Nat.le_add_right _ _
    exact ⟨fee, hfee, hlt, lt_of_le_of_lt hsmaller hlt', le_trans hsmaller hle⟩

/-- The change that an amount leaves, when it is worth an output. -/
def changeOf (X : Library) (changeAddress : Address) (change : Amount) : Option TxOut :=
  if X.minimalNonDust changeAddress.scriptPubkey < change then
    some ⟨change, changeAddress.scriptPubkey⟩
  else none

theorem selectCoins_eq_ok {utxos selected : List Utxo} {baseTxWeight : Weight}
    {changeAddress : Address} {limit : Nat} {change : Option TxOut} :
    selectCoins X target utxos feeRate baseTxWeight perInput changeAddress limit =
        .ok (selected, change) ↔
      ∃ taken rest extra left fee,
        Taken X feeRate perInput target (noInputs baseTxWeight) (sortUtxos utxos) taken rest ∧
        Swept X feeRate perInput (target + X.minimalNonDust changeAddress.scriptPubkey)
          ((noInputs baseTxWeight).with perInput taken) (rest.reverse.take limit) extra left ∧
        selected = taken ++ extra ∧
        X.feeWu feeRate (baseTxWeight + selected.length * perInput) = some fee ∧
        target + fee ≤ worth selected ∧
        change = changeOf X changeAddress (worth selected - target - fee) := by
  have hwith : ∀ taken extra : List Utxo,
      ((noInputs baseTxWeight).with perInput taken).with perInput extra =
        ⟨taken ++ extra, worth (taken ++ extra),
          baseTxWeight + (taken ++ extra).length * perInput⟩ := by
    intro taken extra
    rw [← Selection.with_append, Selection.with, List.nil_append, Nat.zero_add]
  unfold selectCoins
  constructor
  · intro h
    obtain ⟨⟨s, rest⟩, hs, h⟩ := bind_eq_ok.mp h
    obtain ⟨s', hs', h⟩ := bind_eq_ok.mp h
    obtain ⟨fee, hfee, h⟩ := bind_eq_ok.mp h
    obtain ⟨_, hle, h⟩ := bind_eq_ok.mp h
    obtain ⟨taken, htaken, rfl⟩ := selectLargest_eq_ok.mp hs
    obtain ⟨extra, left, hswept, rfl⟩ := consolidate_eq_ok.mp hs'
    rw [hwith] at hfee hle h
    rw [expect_eq_ok] at hfee
    rw [ensure_eq_ok] at hle
    refine ⟨taken, rest, extra, left, fee, htaken, hswept, ?_⟩
    dsimp only at h hfee hle
    unfold changeOf
    split_ifs at h with hdust
    · cases h
      exact ⟨rfl, hfee, hle, (if_pos hdust).symm⟩
    · cases h
      exact ⟨rfl, hfee, hle, (if_neg hdust).symm⟩
  · rintro ⟨taken, rest, extra, left, fee, htaken, hswept, rfl, hfee, hle, rfl⟩
    rw [selectLargest_eq_ok.mpr ⟨taken, htaken, rfl⟩, ok_bind]
    dsimp only
    rw [consolidate_eq_ok.mpr ⟨extra, left, hswept, rfl⟩, ok_bind, hwith]
    dsimp only
    rw [hfee, expect_eq_ok.mpr rfl, ok_bind, ensure_pos hle, ok_bind]
    unfold changeOf
    split_ifs <;> rfl

end Loops

section Complete

variable {X : Library} {target dust : Amount} {feeRate : FeeRate} {perInput : Weight}

/-- Whether the need is reached is computed for every prefix of the list. -/
def Decided (X : Library) (feeRate : FeeRate) (perInput : Weight) (need : Nat) (s : Selection)
    (l : List Utxo) : Prop :=
  ∀ p, p <+: l → p ≠ [] →
    Reaches X feeRate need (s.with perInput p) ∨ Misses X feeRate need (s.with perInput p)

theorem Decided.tail {need : Nat} {s : Selection} {u : Utxo} {l : List Utxo}
    (h : Decided X feeRate perInput need s (u :: l)) :
    Decided X feeRate perInput need (s.with perInput [u]) l := by
  intro p hp hne
  have := h (u :: p) (prefix_cons_of hp) (List.cons_ne_nil _ _)
  rwa [Selection.with_cons] at this

/-- The first loop ends well when some prefix reaches the target. -/
theorem selectLargest_ok_iff {l : List Utxo} {s : Selection}
    (h : Decided X feeRate perInput target s l) :
    (∃ r, selectLargest X target feeRate perInput l s = .ok r) ↔
      ∃ p, p <+: l ∧ p ≠ [] ∧ Reaches X feeRate target (s.with perInput p) := by
  induction l generalizing s with
  | nil =>
    refine iff_of_false ?_ ?_
    · rintro ⟨r, hr⟩
      cases hr
    · rintro ⟨p, hp, hne, -⟩
      exact hne (List.prefix_nil.mp hp)
  | cons u l ih =>
    have hfirst := h [u] ⟨l, rfl⟩ (List.cons_ne_nil _ _)
    simp only [selectLargest_cons]
    constructor
    · rintro ⟨r, ⟨hreach, -⟩ | ⟨-, hrest⟩⟩
      · exact ⟨[u], ⟨l, rfl⟩, List.cons_ne_nil _ _, hreach⟩
      · obtain ⟨p, hp, -, hreach⟩ := (ih h.tail).mp ⟨r, hrest⟩
        exact ⟨u :: p, prefix_cons_of hp, List.cons_ne_nil _ _,
          by rw [Selection.with_cons]; exact hreach⟩
    · rintro ⟨p, hp, hne, hreach⟩
      rcases hfirst with hfirst | hfirst
      · exact ⟨_, Or.inl ⟨hfirst, rfl⟩⟩
      · rcases prefix_cons_cases hp with rfl | rfl | ⟨q, rfl, hq, hqn⟩
        · exact absurd rfl hne
        · exact absurd hfirst hreach.not_misses
        · rw [Selection.with_cons] at hreach
          obtain ⟨r, hr⟩ := (ih h.tail).mpr ⟨q, hq, hqn, hreach⟩
          exact ⟨r, Or.inr ⟨hfirst, hr⟩⟩

theorem consolidate_ok {l : List Utxo} {s : Selection}
    (h : Decided X feeRate perInput (target + dust) s l) :
    ∃ s', consolidate X target feeRate perInput dust l s = .ok s' := by
  induction l generalizing s with
  | nil => exact ⟨s, rfl⟩
  | cons u l ih =>
    rcases h [u] ⟨l, rfl⟩ (List.cons_ne_nil _ _) with hreach | hmiss
    · obtain ⟨s', hs'⟩ := ih h.tail
      exact ⟨s', consolidate_cons.mpr (Or.inr ⟨hreach, hs'⟩)⟩
    · exact ⟨s, consolidate_cons.mpr (Or.inl ⟨hmiss, rfl⟩)⟩

/-- No amount and no fee of a selection overflows. -/
structure Fits (X : Library) (target dust : Amount) (feeRate : FeeRate)
    (baseTxWeight perInput : Weight) (utxos : List Utxo) : Prop where
  amounts : worth utxos < amountBound
  fees : ∀ n ≤ utxos.length, ∃ fee, X.feeWu feeRate (baseTxWeight + n * perInput) = some fee ∧
    target + dust + fee < amountBound

/-- The entries cover the target and the fee of the inputs that they become. -/
def Covers (X : Library) (target : Amount) (feeRate : FeeRate) (baseTxWeight perInput : Weight)
    (l : List Utxo) : Prop :=
  ∃ fee, X.feeWu feeRate (baseTxWeight + l.length * perInput) = some fee ∧
    target + fee ≤ worth l

variable {baseTxWeight : Weight} {utxos : List Utxo}

theorem Fits.decides (h : Fits X target dust feeRate baseTxWeight perInput utxos)
    {l : List Utxo} (hl : l.Subperm utxos) {need : Nat} (hneed : need ≤ target + dust) :
    Reaches X feeRate need ((noInputs baseTxWeight).with perInput l) ∨
      Misses X feeRate need ((noInputs baseTxWeight).with perInput l) := by
  obtain ⟨fee, hfee, hlt⟩ := h.fees l.length hl.length_le
  have hworth : 0 + worth l < amountBound := by
    rw [Nat.zero_add]
    exact lt_of_le_of_lt (weigh_subperm hl) h.amounts
  have hsum : need + fee < amountBound := lt_of_le_of_lt (Nat.add_le_add_right hneed _) hlt
  rcases le_or_gt (need + fee) (0 + worth l) with hle | hgt
  · exact Or.inl ⟨fee, hfee, hworth, hsum, hle⟩
  · exact Or.inr ⟨fee, hfee, hworth, hsum, hgt⟩

theorem Fits.covers_iff (h : Fits X target dust feeRate baseTxWeight perInput utxos)
    {l : List Utxo} (hl : l.Subperm utxos) :
    Reaches X feeRate target ((noInputs baseTxWeight).with perInput l) ↔
      Covers X target feeRate baseTxWeight perInput l := by
  constructor
  · rintro ⟨fee, hfee, -, -, hle⟩
    exact ⟨fee, hfee, by rwa [Selection.with, Nat.zero_add] at hle⟩
  · rintro ⟨fee, hfee, hle⟩
    rcases h.decides hl (Nat.le_add_right target dust) with hreach | ⟨fee', hfee', -, -, hgt⟩
    · exact hreach
    · obtain rfl : fee = fee' := Option.some.inj (hfee.symm.trans hfee')
      rw [Selection.with, Nat.zero_add] at hgt
      exact absurd hle (not_le.mpr hgt)

theorem sortUtxos_perm (l : List Utxo) : (sortUtxos l).Perm l := List.perm_insertionSort _ l

theorem descending_sortUtxos (l : List Utxo) : Descending Utxo.amount (sortUtxos l) := by
  refine (List.pairwise_insertionSort utxoBefore l).imp (fun {a b} hab => ?_)
  rcases hab with hlt | ⟨heq, -⟩
  · exact le_of_lt hlt
  · exact le_of_eq heq.symm

/-- The exchange argument: where some entries cover the target, so do as many of the largest. -/
theorem covers_largest {t : List Utxo} (ht : t.Subperm utxos)
    (h : Covers X target feeRate baseTxWeight perInput t) :
    Covers X target feeRate baseTxWeight perInput ((sortUtxos utxos).take t.length) := by
  obtain ⟨fee, hfee, hle⟩ := h
  have hsorted : t.Subperm (sortUtxos utxos) := ht.trans (sortUtxos_perm utxos).symm.subperm
  have hlen : ((sortUtxos utxos).take t.length).length = t.length :=
    List.length_take_of_le hsorted.length_le
  refine ⟨fee, by rw [hlen]; exact hfee, le_trans hle ?_⟩
  exact weigh_subperm_le_take (descending_sortUtxos utxos) hsorted

/-- What is swept are the smallest of the entries that the first loop leaves. -/
theorem swept_smallest {taken rest extra left : List Utxo} {limit : Nat}
    (htaken : sortUtxos utxos = taken ++ rest) (hswept : rest.reverse.take limit = extra ++ left) :
    (taken ++ extra ++ (left ++ rest.reverse.drop limit)).Perm utxos ∧
      ∀ u ∈ extra, ∀ v ∈ left ++ rest.reverse.drop limit, u.amount ≤ v.amount := by
  have hrest : rest.reverse = extra ++ (left ++ rest.reverse.drop limit) := by
    rw [← List.append_assoc, ← hswept, List.take_append_drop]
  constructor
  · rw [List.append_assoc, ← hrest]
    refine (List.Perm.append_left taken (List.reverse_perm rest)).trans ?_
    rw [← htaken]
    exact sortUtxos_perm utxos
  · have hdesc := descending_sortUtxos utxos
    rw [htaken] at hdesc
    have hasc := List.pairwise_reverse.mpr (List.pairwise_append.mp hdesc).2.1
    rw [hrest] at hasc
    exact (List.pairwise_append.mp hasc).2.2

variable {changeAddress : Address} {limit : Nat}

/-- What is selected covers the target, the fee of the selection and the change. -/
theorem covers_of_selectCoins {selected : List Utxo} {change : Option TxOut}
    (h : selectCoins X target utxos feeRate baseTxWeight perInput changeAddress limit =
      .ok (selected, change)) :
    selected.Subperm utxos ∧ selected ≠ [] ∧
      ∃ fee, X.feeWu feeRate (baseTxWeight + selected.length * perInput) = some fee ∧
        target + fee + (change.map TxOut.value).getD 0 ≤ worth selected := by
  obtain ⟨taken, rest, extra, left, fee, htaken, hswept, rfl, hfee, hle, rfl⟩ :=
    selectCoins_eq_ok.mp h
  have hperm := (swept_smallest htaken.split hswept.split).1
  refine ⟨(List.sublist_append_left _ _).subperm.trans hperm.subperm,
    fun hnil => htaken.nonempty (List.append_eq_nil_iff.mp hnil).1, fee, hfee, ?_⟩
  unfold changeOf
  split_ifs
  · rw [Option.map_some, Option.getD_some, Nat.sub_sub, Nat.add_sub_cancel' hle]
  · exact hle

/-- After the two loops the last check succeeds. -/
theorem selectCoins_of_swept {baseTxWeight : Weight} {taken rest extra left : List Utxo}
    (htaken : Taken X feeRate perInput target (noInputs baseTxWeight) (sortUtxos utxos) taken rest)
    (hswept : Swept X feeRate perInput (target + X.minimalNonDust changeAddress.scriptPubkey)
      ((noInputs baseTxWeight).with perInput taken) (rest.reverse.take limit) extra left) :
    ∃ r, selectCoins X target utxos feeRate baseTxWeight perInput changeAddress limit = .ok r := by
  obtain ⟨fee, hfee, -, -, hle⟩ := hswept.reaches_target htaken.reaches
  rw [← Selection.with_append, Selection.with] at hfee hle
  dsimp only at hfee hle
  rw [Nat.zero_add] at hle
  exact ⟨_, selectCoins_eq_ok.mpr
    ⟨taken, rest, extra, left, fee, htaken, hswept, rfl, hfee, hle, rfl⟩⟩

section Fitting

variable (h : Fits X target (X.minimalNonDust changeAddress.scriptPubkey) feeRate baseTxWeight
  perInput utxos)
include h

/-- After the first loop, the second one and the last check succeed. -/
theorem Fits.selectCoins_of_largest {r : Selection × List Utxo}
    (hr : selectLargest X target feeRate perInput (sortUtxos utxos) (noInputs baseTxWeight) =
      .ok r) :
    ∃ r', selectCoins X target utxos feeRate baseTxWeight perInput changeAddress limit = .ok r' := by
  obtain ⟨s, rest⟩ := r
  obtain ⟨taken, htaken, rfl⟩ := selectLargest_eq_ok.mp hr
  have hdecided : Decided X feeRate perInput
      (target + X.minimalNonDust changeAddress.scriptPubkey)
      ((noInputs baseTxWeight).with perInput taken) (rest.reverse.take limit) := by
    intro p ⟨q, hq⟩ _
    rw [← Selection.with_append]
    refine h.decides ?_ (le_refl _)
    have hperm := (swept_smallest htaken.split hq.symm).1
    exact (List.sublist_append_left _ _).subperm.trans hperm.subperm
  obtain ⟨s', hs'⟩ := consolidate_ok hdecided
  obtain ⟨extra, left, hswept, rfl⟩ := consolidate_eq_ok.mp hs'
  exact selectCoins_of_swept htaken hswept

theorem Fits.selectCoins_of_covers {t : List Utxo} (ht : t.Subperm utxos) (hne : t ≠ [])
    (hcovers : Covers X target feeRate baseTxWeight perInput t) :
    ∃ r, selectCoins X target utxos feeRate baseTxWeight perInput changeAddress limit = .ok r := by
  have hprefix := List.take_prefix t.length (sortUtxos utxos)
  have hlen : ((sortUtxos utxos).take t.length).length = t.length :=
    List.length_take_of_le (ht.length_le.trans (sortUtxos_perm utxos).symm.length_eq.le)
  have hpart : ∀ p, p <+: sortUtxos utxos → p.Subperm utxos := fun p hp =>
    hp.sublist.subperm.trans (sortUtxos_perm utxos).subperm
  have hdecided : Decided X feeRate perInput target (noInputs baseTxWeight) (sortUtxos utxos) :=
    fun p hp _ => h.decides (hpart p hp) (Nat.le_add_right _ _)
  have hreach := (h.covers_iff (hpart _ hprefix)).mpr (covers_largest ht hcovers)
  have hne' : (sortUtxos utxos).take t.length ≠ [] := by
    rw [← List.length_pos_iff, hlen]
    exact List.length_pos_iff.mpr hne
  obtain ⟨r, hr⟩ := (selectLargest_ok_iff hdecided).mpr ⟨_, hprefix, hne', hreach⟩
  exact h.selectCoins_of_largest hr

/-- Coin selection succeeds exactly when some entries cover the target and their fee, and what it
selects covers the target, the fee of the selection and the change. -/
theorem selectCoins_complete (limit : Nat) :
    ((∃ r, selectCoins X target utxos feeRate baseTxWeight perInput changeAddress limit = .ok r) ↔
      ∃ t, t.Subperm utxos ∧ t ≠ [] ∧ Covers X target feeRate baseTxWeight perInput t) ∧
    ∀ selected change, selectCoins X target utxos feeRate baseTxWeight perInput changeAddress
        limit = .ok (selected, change) →
      selected.Subperm utxos ∧ selected ≠ [] ∧
      ∃ fee, X.feeWu feeRate (baseTxWeight + selected.length * perInput) = some fee ∧
        target + fee + (change.map TxOut.value).getD 0 ≤ worth selected := by
  refine ⟨⟨?_, ?_⟩, fun selected change hr => covers_of_selectCoins hr⟩
  · rintro ⟨⟨selected, change⟩, hr⟩
    obtain ⟨hsub, hne, fee, hfee, hle⟩ := covers_of_selectCoins hr
    exact ⟨selected, hsub, hne, fee, hfee, le_trans (Nat.le_add_right _ _) hle⟩
  · rintro ⟨t, ht, hne, hcovers⟩
    exact h.selectCoins_of_covers ht hne hcovers

end Fitting

open Solo in
/-- Two entries, of which the larger one covers the target. -/
def twoEntries (smaller : Amount) : List Utxo :=
  [⟨bytes32 1, 0, smaller, []⟩, ⟨bytes32 2, 0, 1200, []⟩]

open Solo in
theorem selectCoins_complete_two :
    ∃ r, selectCoins (library 1 []) 1000 (twoEntries 430) 1000 100 100 backup 1 = .ok r := by
  have hfits : Fits (library 1 []) 1000 ((library 1 []).minimalNonDust backup.scriptPubkey) 1000
      100 100 (twoEntries 430) := by
    refine ⟨by decide, fun n hn => ⟨_, rfl, ?_⟩⟩
    have hlen : n ≤ 2 := hn
    have hfee : 1000 * (100 + n * 100) / 1000 ≤ 300 := by omega
    exact lt_of_le_of_lt (Nat.add_le_add_left hfee _) (by decide)
  refine (selectCoins_complete hfits 1).1.mpr ⟨[⟨bytes32 2, 0, 1200, []⟩], ?_, by simp, ?_⟩
  · exact ((List.Sublist.refl _).cons _).subperm
  · exact ⟨200, rfl, by decide⟩

end Complete

section Consolidation

variable {X : Library} {target : Amount} {feeRate : FeeRate} {baseTxWeight perInput : Weight}
variable {utxos : List Utxo} {changeAddress : Address} {limit : Nat}

/-- The first result, with the smallest of the other entries folded into its change. -/
def FoldsIntoChange (utxos : List Utxo) (limit : Nat) (r₀ r : List Utxo × Option TxOut) : Prop :=
  ∃ extra left, r.1 = r₀.1 ++ extra ∧ extra.length ≤ limit ∧
    (r₀.1 ++ extra ++ left).Perm utxos ∧ (∀ u ∈ extra, ∀ v ∈ left, u.amount ≤ v.amount) ∧
    (extra ≠ [] → r.2.isSome = true)

/-- The last entry that can be swept leaves exactly the dust limit. -/
def SweepsToDust (X : Library) (target : Amount) (utxos : List Utxo) (feeRate : FeeRate)
    (baseTxWeight perInput : Weight) (changeAddress : Address) (limit : Nat) : Prop :=
  ∃ taken rest extra left fee,
    Taken X feeRate perInput target (noInputs baseTxWeight) (sortUtxos utxos) taken rest ∧
    Swept X feeRate perInput (target + X.minimalNonDust changeAddress.scriptPubkey)
      ((noInputs baseTxWeight).with perInput taken) (rest.reverse.take limit) extra left ∧
    extra ≠ [] ∧ X.feeWu feeRate (baseTxWeight + (taken ++ extra).length * perInput) = some fee ∧
    worth (taken ++ extra) = target + X.minimalNonDust changeAddress.scriptPubkey + fee

theorem Taken.unique {need : Nat} {s : Selection} {l taken rest taken' rest' : List Utxo}
    (h : Taken X feeRate perInput need s l taken rest)
    (h' : Taken X feeRate perInput need s l taken' rest') : taken = taken' ∧ rest = rest' := by
  have hok := selectLargest_eq_ok.mpr ⟨taken, h, rfl⟩
  rw [selectLargest_eq_ok.mpr ⟨taken', h', rfl⟩] at hok
  have hrest : rest' = rest := (Prod.mk.inj (Except.ok.inj hok)).2
  subst hrest
  exact ⟨List.append_cancel_right (h.split.symm.trans h'.split), rfl⟩

theorem selectCoins_zero {r : List Utxo × Option TxOut} {taken rest : List Utxo}
    (htaken : Taken X feeRate perInput target (noInputs baseTxWeight) (sortUtxos utxos) taken rest)
    (h : selectCoins X target utxos feeRate baseTxWeight perInput changeAddress 0 = .ok r) :
    r.1 = taken := by
  obtain ⟨selected, change⟩ := r
  obtain ⟨taken', rest', extra, left, fee, htaken', hswept, rfl, -⟩ := selectCoins_eq_ok.mp h
  obtain ⟨rfl, rfl⟩ := htaken.unique htaken'
  rw [(List.append_eq_nil_iff.mp hswept.split.symm).1, List.append_nil]

/-- Consolidation only folds small entries into the change, unless it ends at the dust limit. -/
theorem consolidation_iff :
    (∀ r, selectCoins X target utxos feeRate baseTxWeight perInput changeAddress limit = .ok r →
      ∃ r₀, selectCoins X target utxos feeRate baseTxWeight perInput changeAddress 0 = .ok r₀ ∧
        FoldsIntoChange utxos limit r₀ r) ↔
      ¬ SweepsToDust X target utxos feeRate baseTxWeight perInput changeAddress limit := by
  constructor
  · rintro h ⟨taken, rest, extra, left, fee, htaken, hswept, hne, hfee, hworth⟩
    have hle : target + fee ≤ worth (taken ++ extra) := by
      rw [hworth, Nat.add_right_comm]
      exact Nat.le_add_right _ _
    obtain ⟨r₀, hr₀, extra', left', hextra, -, -, -, hchange⟩ := h _ (selectCoins_eq_ok.mpr
      ⟨taken, rest, extra, left, fee, htaken, hswept, rfl, hfee, hle, rfl⟩)
    rw [selectCoins_zero htaken hr₀] at hextra
    obtain rfl : extra = extra' := List.append_cancel_left hextra
    have hdust : worth (taken ++ extra) - target - fee =
        X.minimalNonDust changeAddress.scriptPubkey := by
      rw [hworth, Nat.add_assoc, Nat.add_sub_cancel_left, Nat.add_sub_cancel]
    have hsome := hchange hne
    rw [changeOf, hdust, if_neg (lt_irrefl _)] at hsome
    cases hsome
  · rintro h ⟨selected, change⟩ hr
    obtain ⟨taken, rest, extra, left, fee, htaken, hswept, rfl, hfee, hle, rfl⟩ :=
      selectCoins_eq_ok.mp hr
    obtain ⟨hperm, hsmall⟩ := swept_smallest htaken.split hswept.split
    obtain ⟨fee₀, hfee₀, -, -, hle₀⟩ := htaken.reaches
    rw [Selection.with, Nat.zero_add] at hle₀
    have hnone : Swept X feeRate perInput (target + X.minimalNonDust changeAddress.scriptPubkey)
        ((noInputs baseTxWeight).with perInput taken) (rest.reverse.take 0) [] [] := by
      refine swept_nil ?_
      intro u hu
      cases hu
    refine ⟨(taken, _), selectCoins_eq_ok.mpr ⟨taken, rest, [], [], fee₀, htaken, hnone,
      (List.append_nil _).symm, hfee₀, hle₀, rfl⟩, extra, _, rfl, ?_, hperm, hsmall, ?_⟩
    · have hlen := congrArg List.length hswept.split
      rw [List.length_append] at hlen
      have := List.length_take_le limit rest.reverse
      omega
    · intro hne
      obtain ⟨fee', hfee', -, -, hdust⟩ := hswept.reaches extra (List.prefix_refl _) hne
      rw [← Selection.with_append, Selection.with] at hfee' hdust
      obtain rfl : fee = fee' := Option.some.inj (hfee.symm.trans hfee')
      rw [Nat.zero_add] at hdust
      have hlt := lt_of_le_of_ne hdust (fun heq => h
        ⟨taken, rest, extra, left, fee, htaken, hswept, hne, hfee, heq.symm⟩)
      unfold changeOf
      rw [if_pos]
      · rfl
      · rw [Nat.sub_sub]
        refine Nat.lt_sub_of_add_lt ?_
        rw [← Nat.add_assoc, Nat.add_comm _ target]
        exact hlt

end Consolidation

open Solo in
/-- The smaller entry is spent and the change is exactly at the dust limit, so that it is left to
the miner. -/
theorem sweep_without_change :
    ¬ ∀ r, selectCoins (library 1 []) 1000 (twoEntries 430) 1000 100 100 backup 1 = .ok r →
      ∃ r₀, selectCoins (library 1 []) 1000 (twoEntries 430) 1000 100 100 backup 0 = .ok r₀ ∧
        FoldsIntoChange (twoEntries 430) 1 r₀ r := by
  intro h
  have hone : selectCoins (library 1 []) 1000 (twoEntries 430) 1000 100 100 backup 1 =
      .ok ([⟨bytes32 2, 0, 1200, []⟩, ⟨bytes32 1, 0, 430, []⟩], none) := by rfl
  have hzero : selectCoins (library 1 []) 1000 (twoEntries 430) 1000 100 100 backup 0 =
      .ok ([⟨bytes32 2, 0, 1200, []⟩], none) := by rfl
  obtain ⟨r₀, hr₀, extra, left, hextra, -, -, -, hchange⟩ := h _ hone
  obtain rfl := Except.ok.inj (hzero.symm.trans hr₀)
  have hne : extra ≠ [] := by
    rintro rfl
    cases hextra
  cases hchange hne

section Accounting

variable {X : Library} {keys : List WeightedKey} {threshold : Power} {changeAddress : Address}
variable {unspent : List Utxo} {exhaust : Bool} {txOuts : List TxOut} {feeRate : FeeRate}
variable {limit : Nat} {tx : Transaction}

def outpoint (u : Utxo) : OutPoint := ⟨u.txid, u.vout⟩

/-- Value of some outputs. -/
def valueOf (outs : List TxOut) : Nat := (outs.map TxOut.value).sum

/-- The fee of spending the entries with a change output, as each of the two paths computes it. -/
def spendFee (X : Library) (keys : List WeightedKey) (threshold : Power) (changeAddress : Address)
    (exhaust : Bool) (txOuts : List TxOut) (feeRate : FeeRate) (selected : List Utxo) :
    Option Amount :=
  let witness := multisigSpendMaxWitnessSize keys threshold
  let change := changeAddress.scriptPubkey
  if exhaust then
    X.feeWu feeRate (X.weight (spendTransaction (selected.map spendInput)
      (txOuts ++ [⟨1, change⟩])) + witness * selected.length)
  else
    X.feeWu feeRate (X.weight (spendTransaction [] (txOuts ++ [⟨X.minimalNonDust change, change⟩]))
      + selected.length * (4 * txInBaseSize + witness))

/-- The transaction spends the entries, pays the outputs and a change, and leaves a fee. -/
structure Accounts (X : Library) (changeAddress : Address) (txOuts : List TxOut)
    (selected : List Utxo) (fee : Amount) (change : Option TxOut) (tx : Transaction) : Prop where
  inputs : tx.input = selected.map spendInput
  outputs : tx.output = txOuts ++ change.toList
  change_pays : ∀ c ∈ change, c.scriptPubkey = changeAddress.scriptPubkey ∧
    X.minimalNonDust changeAddress.scriptPubkey < c.value
  fee_le : valueOf tx.output + fee ≤ worth selected
  le_fee : worth selected ≤
    valueOf tx.output + fee + X.minimalNonDust changeAddress.scriptPubkey
  exact : change.isSome = true → worth selected = valueOf tx.output + fee

/-- Both paths: what remains after the outputs and the fee is change, or is below the limit. -/
theorem accounts_of_change {selected : List Utxo} {fee : Amount}
    (hle : valueOf txOuts + fee ≤ worth selected) :
    Accounts X changeAddress txOuts selected fee
      (changeOf X changeAddress (worth selected - valueOf txOuts - fee))
      (spendTransaction (selected.map spendInput)
        (txOuts ++ (changeOf X changeAddress
          (worth selected - valueOf txOuts - fee)).toList)) := by
  have hrest : valueOf txOuts + fee + (worth selected - valueOf txOuts - fee) = worth selected := by
    rw [Nat.sub_sub]
    exact Nat.add_sub_cancel' hle
  unfold changeOf
  split_ifs with hdust
  · have hvalue : valueOf (txOuts ++ [⟨worth selected - valueOf txOuts - fee,
        changeAddress.scriptPubkey⟩]) + fee = worth selected := by
      rw [valueOf, List.map_append, List.sum_append, List.map_singleton, List.sum_singleton,
        Nat.add_right_comm]
      exact hrest
    refine ⟨rfl, rfl, ?_, hvalue.le, ?_, fun _ => hvalue.symm⟩
    · rintro c ⟨⟩
      exact ⟨rfl, hdust⟩
    · exact le_trans hvalue.ge (Nat.le_add_right _ _)
  · have houts : txOuts ++ (none : Option TxOut).toList = txOuts := List.append_nil _
    refine ⟨rfl, rfl, (by rintro c ⟨⟩), ?_, ?_, (by rintro ⟨⟩)⟩
    · rw [spendTransaction, houts]
      exact hle
    · rw [spendTransaction, houts]
      calc worth selected = valueOf txOuts + fee + (worth selected - valueOf txOuts - fee) :=
            hrest.symm
        _ ≤ valueOf txOuts + fee + X.minimalNonDust changeAddress.scriptPubkey :=
            Nat.add_le_add_left (not_lt.mp hdust) _

/-- The fee of spending every entry, with a change output. -/
def sweepFee (X : Library) (size : Nat) (changeAddress : Address) (unspent : List Utxo)
    (txOuts : List TxOut) (feeRate : FeeRate) : Option Amount :=
  X.feeWu feeRate (X.weight (spendTransaction ((sortUtxos unspent).map spendInput)
    (txOuts ++ [⟨1, changeAddress.scriptPubkey⟩])) + size * unspent.length)

/-- A sweep succeeds when the entries cover the outputs and the fee, and has no other outputs but
the change. -/
theorem sweepTransaction_eq_ok {size : Nat} :
    sweepTransaction X size changeAddress unspent txOuts feeRate = .ok tx ↔
      unspent ≠ [] ∧ worth unspent < amountBound ∧ ∃ fee,
        sweepFee X size changeAddress unspent txOuts feeRate = some fee ∧
        valueOf txOuts + fee ≤ worth unspent ∧
        tx = spendTransaction ((sortUtxos unspent).map spendInput) (txOuts ++
          (changeOf X changeAddress (worth unspent - valueOf txOuts - fee)).toList) := by
  constructor
  · intro h
    obtain ⟨_, hne, h⟩ := bind_eq_ok.mp h
    obtain ⟨total, htotal, h⟩ := bind_eq_ok.mp h
    obtain ⟨out, hout, h⟩ := bind_eq_ok.mp h
    obtain ⟨_, hle, h⟩ := bind_eq_ok.mp h
    obtain ⟨fee, hfee, h⟩ := bind_eq_ok.mp h
    obtain ⟨_, hle', h⟩ := bind_eq_ok.mp h
    obtain ⟨hbound, rfl⟩ := sumAmounts_eq_ok.mp htotal
    obtain ⟨-, rfl⟩ := sumAmounts_eq_ok.mp hout
    rw [ensure_eq_ok] at hne hle hle'
    have hcover : valueOf txOuts + fee ≤ worth unspent := by
      rw [Nat.add_comm]
      exact Nat.add_le_of_le_sub hle hle'
    refine ⟨hne, hbound, fee, expect_eq_ok.mp hfee, hcover, ?_⟩
    unfold changeOf
    dsimp only at h
    split_ifs at h with hdust
    · cases h
      rw [if_pos]
      · rfl
      · exact hdust
    · cases h
      rw [if_neg]
      · rw [Option.toList_none, List.append_nil]
      · exact hdust
  · rintro ⟨hne, hbound, fee, hfee, hcover, rfl⟩
    have hle : valueOf txOuts ≤ worth unspent := le_trans (Nat.le_add_right _ _) hcover
    have hle' : fee ≤ worth unspent - valueOf txOuts := Nat.le_sub_of_add_le' hcover
    refine bind_eq_ok.mpr ⟨(), ensure_eq_ok.mpr hne, bind_eq_ok.mpr ⟨_, sumAmounts_eq_ok.mpr
      ⟨hbound, rfl⟩, bind_eq_ok.mpr ⟨_, sumAmounts_eq_ok.mpr ⟨lt_of_le_of_lt hle hbound, rfl⟩,
      bind_eq_ok.mpr ⟨(), ensure_eq_ok.mpr hle, bind_eq_ok.mpr ⟨fee, expect_eq_ok.mpr hfee,
      bind_eq_ok.mpr ⟨(), ensure_eq_ok.mpr hle', ?_⟩⟩⟩⟩⟩⟩
    unfold changeOf
    by_cases hdust : X.minimalNonDust changeAddress.scriptPubkey <
        worth unspent - valueOf txOuts - fee
    · rw [if_pos hdust, if_pos]
      · rfl
      · exact hdust
    · rw [if_neg hdust, if_neg]
      · rw [Option.toList_none, List.append_nil]
        rfl
      · exact hdust

theorem accounts_of_sweep
    (h : sweepTransaction X (multisigSpendMaxWitnessSize keys threshold) changeAddress unspent
      txOuts feeRate = .ok tx) :
    ∃ fee change, spendFee X keys threshold changeAddress true txOuts feeRate
        (sortUtxos unspent) = some fee ∧
      Accounts X changeAddress txOuts (sortUtxos unspent) fee change tx := by
  obtain ⟨-, -, fee, hfee, hcover, htx⟩ := sweepTransaction_eq_ok.mp h
  have hworth : worth (sortUtxos unspent) = worth unspent := weigh_perm (sortUtxos_perm unspent)
  have hfee' : spendFee X keys threshold changeAddress true txOuts feeRate (sortUtxos unspent) =
      some fee := by
    rw [spendFee, if_pos rfl, (sortUtxos_perm unspent).length_eq]
    exact hfee
  rw [← hworth] at hcover htx
  rw [htx]
  exact ⟨fee, _, hfee', accounts_of_change hcover⟩

/-- Some entries of the wallet are spent, with no witnesses. -/
theorem input_of_constructSpendUnsignedTransaction
    (h : constructSpendUnsignedTransaction X keys threshold changeAddress unspent exhaust txOuts
      feeRate limit = .ok tx) :
    ∃ selected : List Utxo, selected ≠ [] ∧ (∀ u ∈ selected, u ∈ unspent) ∧
      tx.input = selected.map spendInput := by
  unfold constructSpendUnsignedTransaction at h
  cases exhaust with
  | true =>
    obtain ⟨hne, -, -, -, -, rfl⟩ := sweepTransaction_eq_ok.mp (if_pos rfl ▸ h)
    have hperm := sortUtxos_perm unspent
    refine ⟨sortUtxos unspent, ?_, fun u hu => hperm.mem_iff.mp hu, rfl⟩
    intro hnil
    rw [hnil] at hperm
    exact hne (List.nil_perm.mp hperm)
  | false =>
    rw [if_neg Bool.false_ne_true] at h
    obtain ⟨_, -, h⟩ := bind_eq_ok.mp h
    obtain ⟨⟨selected, change⟩, hselect, h⟩ := bind_eq_ok.mp h
    obtain ⟨hsub, hne, -⟩ := covers_of_selectCoins hselect
    cases h
    exact ⟨selected, hne, fun u hu => hsub.subset hu, rfl⟩

/-- The value of a committee's spend: the inputs are entries of the wallet, each spent once, and
what they are worth pays the outputs, the fee and at most one change. -/
theorem constructSpendUnsignedTransaction_accounts
    (hdistinct : (unspent.map outpoint).Nodup)
    (h : constructSpendUnsignedTransaction X keys threshold changeAddress unspent exhaust txOuts
      feeRate limit = .ok tx) :
    ∃ selected fee change, selected.Subperm unspent ∧ (exhaust = true → selected.Perm unspent) ∧
      (tx.input.map TxIn.previousOutput).Nodup ∧
      spendFee X keys threshold changeAddress exhaust txOuts feeRate selected = some fee ∧
      Accounts X changeAddress txOuts selected fee change tx := by
  have hnodup : ∀ selected : List Utxo, selected.Subperm unspent →
      ((selected.map spendInput).map TxIn.previousOutput).Nodup := by
    rintro selected ⟨t, hperm, hsub⟩
    rw [List.map_map]
    exact ((hperm.map outpoint).nodup_iff).mp ((hsub.map outpoint).nodup hdistinct)
  unfold constructSpendUnsignedTransaction at h
  cases exhaust with
  | true =>
    obtain ⟨fee, change, hfee, haccounts⟩ := accounts_of_sweep (if_pos rfl ▸ h)
    have hperm := sortUtxos_perm unspent
    refine ⟨sortUtxos unspent, fee, change, hperm.subperm, fun _ => hperm, ?_, hfee, haccounts⟩
    rw [haccounts.inputs]
    exact hnodup _ hperm.subperm
  | false =>
    rw [if_neg Bool.false_ne_true] at h
    obtain ⟨amount, hamount, h⟩ := bind_eq_ok.mp h
    obtain ⟨⟨selected, change⟩, hselect, h⟩ := bind_eq_ok.mp h
    obtain ⟨-, rfl⟩ := sumAmounts_eq_ok.mp hamount
    have hsub := (covers_of_selectCoins hselect).1
    obtain ⟨taken, rest, extra, left, fee, -, -, -, hfee, hle, rfl⟩ :=
      selectCoins_eq_ok.mp hselect
    cases h
    refine ⟨selected, fee, _, hsub, by rintro ⟨⟩, hnodup selected hsub, ?_,
      accounts_of_change hle⟩
    rw [spendFee, if_neg Bool.false_ne_true]
    exact hfee

end Accounting

open Solo in
/-- Both entries are spent, and what the fee leaves is change. -/
theorem accounts_of_sweeping_two :
    ∃ tx, constructSpendUnsignedTransaction (library 1 []) [(key, 10)] 7 backup (twoEntries 430)
        true [⟨500, backup.scriptPubkey⟩] 100 0 = .ok tx ∧
      ∃ selected fee change, selected.Perm (twoEntries 430) ∧
        Accounts (library 1 []) backup [⟨500, backup.scriptPubkey⟩] selected fee change tx := by
  obtain ⟨tx, htx⟩ : ∃ tx, constructSpendUnsignedTransaction (library 1 []) [(key, 10)] 7 backup
      (twoEntries 430) true [⟨500, backup.scriptPubkey⟩] 100 0 = .ok tx :=
    exists_ok_of_isSome (by decide +kernel)
  have hdistinct : ((twoEntries 430).map outpoint).Nodup := of_decide_eq_true (by decide +kernel)
  obtain ⟨selected, fee, change, -, hperm, -, -, haccounts⟩ :=
    constructSpendUnsignedTransaction_accounts hdistinct htx
  exact ⟨tx, htx, selected, fee, change, hperm rfl, haccounts⟩

end Multisig
