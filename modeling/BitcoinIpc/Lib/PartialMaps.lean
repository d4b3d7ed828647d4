import BitcoinIpc.Lib.Grouping
import Mathlib.Order.MinMax
import Mathlib.Algebra.BigOperators.Group.List.Basic

/-!
# Partial functions as lists of pairs

A list of pairs with distinct keys stands for a partial function. Lists that are
joined collect the values of several functions, and the pointwise minimum of
two functions is defined where both are. The least of a list of partial values
is the running minimum of them, and undefined as soon as one of them is.
-/

namespace PartialMaps

open Grouping

universe u v w

variable {κ : Type u} {α : Type v}

/-- The list holds each value of the function once, with its key. -/
structure Represents (l : List (κ × α)) (f : κ → Option α) : Prop where
  nodup : (l.map Prod.fst).Nodup
  mem_iff : ∀ k a, (k, a) ∈ l ↔ f k = some a

theorem Represents.congr {l : List (κ × α)} {f g : κ → Option α} (h : Represents l f)
    (hfg : ∀ k, f k = g k) : Represents l g :=
  ⟨h.nodup, fun k a => by rw [h.mem_iff, hfg]⟩

theorem Represents.valuesAt_eq [DecidableEq κ] {l : List (κ × α)} {f : κ → Option α}
    (h : Represents l f) (k : κ) : valuesAt l k = (f k).toList := by
  have hvalues : ∀ l : List (κ × α), (l.map Prod.fst).Nodup → ∀ a, (k, a) ∈ l →
      valuesAt l k = [a] := by
    intro l
    induction l with
    | nil =>
      intro _ a ha
      cases ha
    | cons e rest ih =>
      intro hnd a ha
      rw [List.map_cons, List.nodup_cons] at hnd
      rcases List.mem_cons.mp ha with rfl | hrest
      · have hnil : rest.filter (fun e => e.1 = k) = [] := by
          refine List.filter_eq_nil_iff.mpr (fun e he hek => hnd.1 ?_)
          exact List.mem_map.mpr ⟨e, he, of_decide_eq_true hek⟩
        simp [valuesAt, hnil]
      · have hne : e.1 ≠ k := by
          rintro rfl
          exact hnd.1 (List.mem_map.mpr ⟨_, hrest, rfl⟩)
        have := ih hnd.2 a hrest
        simpa [valuesAt, hne] using this
  cases hf : f k with
  | some a => exact hvalues l h.nodup a ((h.mem_iff k a).mpr hf)
  | none =>
    rw [valuesAt, List.map_eq_nil_iff.mpr ?_]
    · rfl
    · refine List.filter_eq_nil_iff.mpr (fun e he hek => ?_)
      have hval := (h.mem_iff e.1 e.2).mp he
      rw [of_decide_eq_true hek, hf] at hval
      cases hval

/-- The values of the function, listed along keys that hold all of its domain. -/
theorem Represents.values_perm {l : List (κ × α)} {f : κ → Option α} (h : Represents l f)
    {ks : List κ} (hks : ks.Nodup) (hall : ∀ k a, f k = some a → k ∈ ks) :
    (l.map Prod.snd).Perm (ks.filterMap f) := by
  classical
  have hpairs : l.Perm (ks.filterMap (fun k => (f k).map (fun a => (k, a)))) := by
    refine (List.perm_ext_iff_of_nodup (List.Nodup.of_map _ h.nodup) ?_).mpr ?_
    · refine hks.filterMap (fun k k' e he he' => ?_)
      obtain ⟨a, -, rfl⟩ := Option.map_eq_some_iff.mp he
      obtain ⟨a', -, heq⟩ := Option.map_eq_some_iff.mp he'
      exact (congrArg Prod.fst heq).symm
    · rintro ⟨k, a⟩
      rw [h.mem_iff, List.mem_filterMap]
      constructor
      · intro hk
        exact ⟨k, hall k a hk, by rw [hk]; rfl⟩
      · rintro ⟨k', -, he⟩
        obtain ⟨a', hk', heq⟩ := Option.map_eq_some_iff.mp he
        obtain ⟨rfl, rfl⟩ := Prod.mk.injEq _ _ _ _ ▸ heq
        exact hk'
  refine (hpairs.map Prod.snd).trans (List.Perm.of_eq ?_)
  rw [List.map_filterMap]
  congr 1
  funext k
  cases f k <;> rfl

/-- The values of a key in joined lists are the values of the functions, one after the other. -/
theorem valuesAt_flatten [DecidableEq κ] {ι : Type w} {ls : List (List (κ × α))} {is : List ι}
    {f : ι → κ → Option α} (h : List.Forall₂ (fun l i => Represents l (f i)) ls is) (k : κ) :
    valuesAt ls.flatten k = is.filterMap (fun i => f i k) := by
  induction h with
  | nil => rfl
  | cons hl _ ih =>
    have hsplit : ∀ l l' : List (κ × α), valuesAt (l ++ l') k = valuesAt l k ++ valuesAt l' k := by
      intro l l'
      rw [valuesAt, List.filter_append, List.map_append]
      rfl
    rw [List.flatten_cons, hsplit, hl.valuesAt_eq, ih, List.filterMap_cons]
    cases f _ k <;> rfl

theorem valuesAt_ne_nil_iff [DecidableEq κ] {l : List (κ × α)} {k : κ} :
    valuesAt l k ≠ [] ↔ ∃ v, (k, v) ∈ l := by
  rw [valuesAt, Ne, List.map_eq_nil_iff, List.filter_eq_nil_iff]
  constructor
  · intro h
    by_contra hnone
    refine h (fun e he hek => hnone ⟨e.2, ?_⟩)
    rw [← of_decide_eq_true hek]
    exact he
  · rintro ⟨v, hv⟩ h
    exact h _ hv (decide_eq_true rfl)

section Sums

variable [DecidableEq κ] [AddCommMonoid α]

/-- The sum of the values of each key. -/
def totals (σ : HashOrder κ) (l : List (κ × α)) : List (κ × α) :=
  (grouped σ l).map (fun e => (e.1, e.2.sum))

theorem totals_nodup (σ : HashOrder κ) (l : List (κ × α)) :
    ((totals σ l).map Prod.fst).Nodup := by
  have hkeys : (totals σ l).map Prod.fst = σ.order (keysOf l) := by
    rw [totals, grouped, List.map_map, List.map_map]
    exact List.map_id _
  rw [hkeys]
  exact (σ.perm _).nodup_iff.mpr (keysOf_nodup l)

theorem mem_totals_iff (σ : HashOrder κ) {l : List (κ × α)} {k : κ} {a : α} :
    (k, a) ∈ totals σ l ↔ valuesAt l k ≠ [] ∧ a = (valuesAt l k).sum := by
  rw [totals, grouped, List.map_map, List.mem_map, valuesAt_ne_nil_iff]
  constructor
  · rintro ⟨k', hk', heq⟩
    obtain ⟨rfl, rfl⟩ := Prod.mk.injEq _ _ _ _ ▸ heq
    exact ⟨(mem_order_keysOf σ).mp hk', rfl⟩
  · rintro ⟨hk, rfl⟩
    exact ⟨k, (mem_order_keysOf σ).mpr hk, rfl⟩

/-- The sums of the keys add up to the sum of all values. -/
theorem sum_totals (σ : HashOrder κ) (l : List (κ × α)) :
    ((totals σ l).map Prod.snd).sum = (l.map Prod.snd).sum := by
  have hrows : ∀ g : List (κ × List α),
      (g.map (fun e => e.2.sum)).sum = ((ungrouped g).map Prod.snd).sum := by
    intro g
    induction g with
    | nil => rfl
    | cons e rest ih =>
      have hcons : ungrouped (e :: rest) = e.2.map (fun a => (e.1, a)) ++ ungrouped rest := rfl
      have hvalues : (e.2.map (fun a => (e.1, a))).map Prod.snd = e.2 := by
        rw [List.map_map]
        exact List.map_id e.2
      rw [List.map_cons, List.sum_cons, ih, hcons, List.map_append, List.sum_append, hvalues]
  have hperm : (ungrouped (grouped σ l)).Perm l := by
    rw [grouped, ungrouped_map]
    refine (flatMap_filter_perm ((σ.perm _).nodup_iff.mpr (keysOf_nodup l)) l).trans
      (List.Perm.of_eq (List.filter_eq_self.mpr ?_))
    intro e he
    exact decide_eq_true ((mem_order_keysOf σ).mpr ⟨e.2, he⟩)
  rw [totals, List.map_map]
  exact (hrows _).trans (hperm.map Prod.snd).sum_eq

end Sums

section Minima

variable [LinearOrder α]

/-- The minimum of two values, when both are there. -/
def meet : Option α → Option α → Option α
  | some a, some b => some (min a b)
  | _, _ => none

theorem meet_self (x : Option α) : meet x x = x := by
  cases x <;> simp [meet]

theorem meet_assoc (x y z : Option α) : meet (meet x y) z = meet x (meet y z) := by
  cases x <;> cases y <;> cases z <;> simp [meet, min_assoc]

/-- The least of the values, when all of them are there. -/
def leastOf : List (Option α) → Option α
  | [] => none
  | x :: rest => rest.foldl meet x

theorem leastOf_snoc {l : List (Option α)} (h : l ≠ []) (x : Option α) :
    leastOf (l ++ [x]) = meet (leastOf l) x := by
  cases l with
  | nil => exact absurd rfl h
  | cons a rest => simp [leastOf, List.foldl_append]

/-- A value that was there before changes nothing. -/
theorem leastOf_snoc_getLast {l : List (Option α)} {x : Option α} (h : l.getLast? = some x) :
    leastOf (l ++ [x]) = leastOf l := by
  obtain ⟨init, rfl⟩ := List.getLast?_eq_some_iff.mp h
  rw [leastOf_snoc (by simp)]
  by_cases hnil : init = []
  · subst hnil
    exact meet_self x
  · rw [leastOf_snoc hnil, meet_assoc, meet_self]

/-- The least value is one of the values and below all of them. -/
theorem leastOf_eq_some {l : List (Option α)} {a : α} :
    leastOf l = some a ↔ some a ∈ l ∧ ∀ x ∈ l, ∃ b, x = some b ∧ a ≤ b := by
  have hfold : ∀ (l : List (Option α)) (x : Option α), l.foldl meet x = some a ↔
      some a ∈ x :: l ∧ ∀ y ∈ x :: l, ∃ b, y = some b ∧ a ≤ b := by
    intro l
    induction l with
    | nil =>
      intro x
      constructor
      · rintro rfl
        simp
      · rintro ⟨hmem, -⟩
        exact (List.mem_singleton.mp hmem).symm
    | cons y rest ih =>
      intro x
      rw [List.foldl_cons, ih]
      cases x with
      | none => simp [meet]
      | some p =>
        cases y with
        | none => simp [meet]
        | some q =>
          simp only [meet, List.mem_cons, Option.some.injEq, forall_eq_or_imp, exists_eq_left',
            le_min_iff]
          constructor
          · rintro ⟨hmem, ⟨hp, hq⟩, hrest⟩
            refine ⟨?_, hp, hq, hrest⟩
            rcases hmem with heq | hmem
            · rcases min_choice p q with hmin | hmin
              · exact Or.inl (heq.trans hmin)
              · exact Or.inr (Or.inl (heq.trans hmin))
            · exact Or.inr (Or.inr hmem)
          · rintro ⟨hmem, hp, hq, hrest⟩
            refine ⟨?_, ⟨hp, hq⟩, hrest⟩
            rcases hmem with rfl | rfl | hmem
            · exact Or.inl (min_eq_left hq).symm
            · exact Or.inl (min_eq_right hp).symm
            · exact Or.inr hmem
  cases l with
  | nil => simp [leastOf]
  | cons x rest => exact hfold rest x

/-- The values of the list, lowered to the values of another one and kept where both have one. -/
def lowered [DecidableEq κ] (l new : List (κ × α)) : List (κ × α) :=
  l.filterMap fun e => (valuesAt new e.1).getLast?.map (fun b => (e.1, min e.2 b))

theorem Represents.lowered [DecidableEq κ] {l new : List (κ × α)} {f g : κ → Option α}
    (hl : Represents l f) (hnew : Represents new g) :
    Represents (lowered l new) (fun k => meet (f k) (g k)) := by
  have hlast : ∀ k, (valuesAt new k).getLast? = g k := by
    intro k
    rw [hnew.valuesAt_eq]
    cases g k <;> rfl
  constructor
  · have hkeys : ∀ l : List (κ × α), ((PartialMaps.lowered l new).map Prod.fst).Sublist
        (l.map Prod.fst) := by
      intro l
      induction l with
      | nil => exact .slnil
      | cons e rest ih =>
        rw [PartialMaps.lowered, List.filterMap_cons]
        cases (valuesAt new e.1).getLast? with
        | none => exact ih.cons e.1
        | some b => exact ih.cons_cons e.1
    exact hl.nodup.sublist (hkeys l)
  · intro k a
    simp only [PartialMaps.lowered, List.mem_filterMap, hlast, Option.map_eq_some_iff,
      Prod.mk.injEq]
    constructor
    · rintro ⟨e, he, b, hb, rfl, rfl⟩
      rw [(hl.mem_iff e.1 e.2).mp he, hb]
      rfl
    · intro h
      cases hf : f k with
      | none =>
        rw [hf] at h
        cases h
      | some p =>
        cases hg : g k with
        | none =>
          rw [hf, hg] at h
          cases h
        | some q =>
          rw [hf, hg] at h
          exact ⟨(k, p), (hl.mem_iff k p).mpr hf, q, hg, rfl, Option.some.inj h⟩

end Minima

end PartialMaps
