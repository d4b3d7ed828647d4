import Mathlib.Data.List.Dedup
import Mathlib.Data.List.Perm.Basic

/-!
# Grouping in hash maps

A hash map is filled from a list and then iterated in an order that the program
does not choose. `HashOrder` is one such choice: a permutation of the keys. A
map that collects the values of a key is `grouped`; a map whose later entries
replace earlier ones is `latest`.
-/

namespace Grouping

universe u v w

/-- Iteration order of a hash map with keys in `κ`. -/
structure HashOrder (κ : Type u) where
  order : List κ → List κ
  perm : ∀ ks, (order ks).Perm ks

/-- The order in which the keys are listed. -/
def HashOrder.listed (κ : Type u) : HashOrder κ := ⟨id, fun ks => List.Perm.refl ks⟩

def HashOrder.reversed (κ : Type u) : HashOrder κ :=
  ⟨List.reverse, fun ks => List.reverse_perm ks⟩

/-- The opposite of an iteration order. -/
def HashOrder.opposite {κ : Type u} (σ : HashOrder κ) : HashOrder κ :=
  ⟨fun ks => (σ.order ks).reverse, fun ks => (List.reverse_perm _).trans (σ.perm ks)⟩

variable {κ : Type u} {α : Type v} [DecidableEq κ]

def keysOf (l : List (κ × α)) : List κ := (l.map Prod.fst).dedup

def valuesAt (l : List (κ × α)) (k : κ) : List α :=
  (l.filter (fun e => e.1 = k)).map Prod.snd

/-- Entries of the map from a key to the list of its values. -/
def grouped (σ : HashOrder κ) (l : List (κ × α)) : List (κ × List α) :=
  (σ.order (keysOf l)).map (fun k => (k, valuesAt l k))

/-- Entries of the map from a key to its last value. -/
def latest (σ : HashOrder κ) (l : List (κ × α)) : List (κ × α) :=
  (σ.order (keysOf l)).filterMap (fun k => (valuesAt l k).getLast?.map (fun v => (k, v)))

theorem mem_keysOf {l : List (κ × α)} {k : κ} : k ∈ keysOf l ↔ ∃ v, (k, v) ∈ l := by
  simp [keysOf]

theorem keysOf_nodup (l : List (κ × α)) : (keysOf l).Nodup := List.nodup_dedup _

theorem mem_order_keysOf (σ : HashOrder κ) {l : List (κ × α)} {k : κ} :
    k ∈ σ.order (keysOf l) ↔ ∃ v, (k, v) ∈ l :=
  ((σ.perm _).mem_iff).trans mem_keysOf

theorem length_grouped (σ : HashOrder κ) (l : List (κ × α)) :
    (grouped σ l).length = (keysOf l).length := by
  simpa [grouped] using (σ.perm (keysOf l)).length_eq

omit [DecidableEq κ] in
/-- With at most one key there is only one iteration order. -/
theorem order_eq_of_length_le_one (σ τ : HashOrder κ) {ks : List κ} (h : ks.length ≤ 1) :
    σ.order ks = τ.order ks := by
  match ks, h with
  | [], _ => rw [(σ.perm []).eq_nil, (τ.perm []).eq_nil]
  | [k], _ => rw [(σ.perm [k]).eq_singleton, (τ.perm [k]).eq_singleton]

theorem grouped_eq_of_length_le_one (σ τ : HashOrder κ) {l : List (κ × α)}
    (h : (keysOf l).length ≤ 1) : grouped σ l = grouped τ l := by
  rw [grouped, grouped, order_eq_of_length_le_one σ τ h]

/-- The entries of a map with two keys show the iteration order. -/
theorem length_keysOf_le_one_of_opposite (σ : HashOrder κ) {l : List (κ × α)}
    (h : grouped σ l = grouped σ.opposite l) : (keysOf l).length ≤ 1 := by
  have hkeys : σ.order (keysOf l) = (σ.order (keysOf l)).reverse := by
    have := congrArg (List.map Prod.fst) h
    simpa [grouped, HashOrder.opposite, Function.comp_def] using this
  have hnodup : (σ.order (keysOf l)).Nodup := (σ.perm _).nodup_iff.mpr (keysOf_nodup l)
  rw [← (σ.perm (keysOf l)).length_eq]
  match hks : σ.order (keysOf l), hkeys, hnodup with
  | [], _, _ => simp
  | [_], _, _ => simp
  | a :: b :: rest, hrev, hnd =>
    -- the first key is also the last one, so it occurs twice
    exfalso
    rw [List.reverse_cons] at hrev
    have hlast := congrArg List.getLast? hrev
    rw [List.getLast?_append, List.getLast?_cons_cons] at hlast
    have hmem : a ∈ b :: rest := List.mem_of_getLast? (by simpa using hlast)
    exact (List.nodup_cons.mp hnd).1 hmem

/-- The entries of a map of lists, one for each value. -/
def ungrouped (g : List (κ × List α)) : List (κ × α) :=
  g.flatMap (fun e => e.2.map (fun a => (e.1, a)))

/-- A map of lists that is listed and collected again has the same entries. -/
theorem latest_grouped (σ τ : HashOrder κ) (l : List (κ × α)) :
    latest τ (grouped σ l) =
      (τ.order (σ.order (keysOf l))).map (fun k => (k, valuesAt l k)) := by
  have hnodup : (σ.order (keysOf l)).Nodup := (σ.perm _).nodup_iff.mpr (keysOf_nodup l)
  have hkeys : keysOf (grouped σ l) = σ.order (keysOf l) := by
    rw [keysOf, grouped, List.map_map]
    exact (congrArg List.dedup (List.map_id _)).trans hnodup.dedup
  have hvalues : ∀ ks : List κ, ks.Nodup → ∀ k ∈ ks,
      valuesAt (ks.map (fun k => (k, valuesAt l k))) k = [valuesAt l k] := by
    intro ks hks k hk
    have hfilter : ks.filter (fun a => a = k) = [k] := by
      rw [List.filter_eq, List.count_eq_one_of_mem hks hk]
      rfl
    rw [valuesAt, List.filter_map, List.map_map]
    exact congrArg (List.map (valuesAt l)) hfilter
  rw [latest, hkeys, ← List.filterMap_eq_map]
  apply List.filterMap_congr
  intro k hk
  rw [grouped, hvalues _ hnodup k ((τ.perm _).mem_iff.mp hk)]
  rfl

/-- The entries of the listed keys, key by key. -/
theorem ungrouped_map (ks : List κ) (l : List (κ × α)) :
    ungrouped (ks.map (fun k => (k, valuesAt l k))) =
      ks.flatMap (fun k => l.filter (fun e => e.1 = k)) := by
  rw [ungrouped, List.flatMap_map]
  congr 1
  funext k
  rw [valuesAt, List.map_map, List.map_congr_left (g := id), List.map_id]
  intro e he
  have hkey : e.1 = k := by simpa using (List.mem_filter.mp he).2
  rw [← hkey]
  rfl

theorem flatMap_filter_perm {ks : List κ} (h : ks.Nodup) (l : List (κ × α)) :
    (ks.flatMap (fun k => l.filter (fun e => e.1 = k))).Perm
      (l.filter (fun e => e.1 ∈ ks)) := by
  induction ks with
  | nil => simp
  | cons k rest ih =>
    obtain ⟨hk, hrest⟩ := List.nodup_cons.mp h
    have hsplit := List.filter_append_perm (fun e : κ × α => decide (e.1 = k))
      (l.filter (fun e => e.1 ∈ k :: rest))
    rw [List.filter_filter, List.filter_filter] at hsplit
    refine List.Perm.trans ?_ hsplit
    rw [List.flatMap_cons]
    refine List.Perm.append (List.Perm.of_eq ?_) ((ih hrest).trans (List.Perm.of_eq ?_))
    · apply List.filter_congr
      intro e _
      by_cases he : e.1 = k <;> simp [he]
    · apply List.filter_congr
      intro e _
      by_cases he : e.1 = k
      · simp [he, hk]
      · simp [he]

/-- Grouped and read back, the entries are the same up to their order. -/
theorem ungrouped_latest_perm (σ τ : HashOrder κ) (l : List (κ × α)) :
    (ungrouped (latest τ (grouped σ l))).Perm l := by
  have hperm : (τ.order (σ.order (keysOf l))).Perm (keysOf l) := (τ.perm _).trans (σ.perm _)
  rw [latest_grouped, ungrouped_map]
  refine (flatMap_filter_perm (hperm.nodup_iff.mpr (keysOf_nodup l)) l).trans
    (List.Perm.of_eq (List.filter_eq_self.mpr ?_))
  intro e he
  exact decide_eq_true (hperm.mem_iff.mpr (mem_keysOf.mpr ⟨e.2, he⟩))

theorem valuesAt_ungrouped_map {ks : List κ} (h : ks.Nodup) (l : List (κ × α)) {k : κ}
    (hk : k ∈ ks ∨ valuesAt l k = []) :
    valuesAt (ungrouped (ks.map (fun k => (k, valuesAt l k)))) k = valuesAt l k := by
  rw [ungrouped_map, valuesAt, List.filter_flatMap, valuesAt]
  congr 1
  have hrow : ∀ a, (l.filter (fun e => e.1 = a)).filter (fun e => e.1 = k) =
      if a = k then l.filter (fun e => e.1 = k) else [] := by
    intro a
    rw [List.filter_filter]
    split_ifs with ha
    · subst ha
      simp
    · rw [List.filter_eq_nil_iff]
      rintro e - he
      simp only [Bool.and_eq_true, decide_eq_true_iff] at he
      exact ha (he.2.symm.trans he.1)
  simp only [hrow]
  induction ks with
  | nil =>
    rcases hk with hk | hk
    · cases hk
    · rw [valuesAt, List.map_eq_nil_iff] at hk
      rw [hk]
      rfl
  | cons a rest ih =>
    obtain ⟨ha, hrest⟩ := List.nodup_cons.mp h
    rw [List.flatMap_cons]
    by_cases hak : a = k
    · subst hak
      have hnil : (rest.flatMap fun b => if b = a then l.filter (fun e => e.1 = a) else []) = [] := by
        rw [List.flatMap_eq_nil_iff]
        intro b hb
        rw [if_neg]
        rintro rfl
        exact ha hb
      rw [hnil, if_pos rfl, List.append_nil]
    · rw [if_neg hak, List.nil_append]
      refine ih hrest ?_
      rcases hk with hk | hk
      · exact Or.inl (List.mem_of_ne_of_mem (Ne.symm hak) hk)
      · exact Or.inr hk

/-- Grouped and read back, the values of a key stand in the same order. -/
theorem valuesAt_ungrouped_latest (σ τ : HashOrder κ) (l : List (κ × α)) (k : κ) :
    valuesAt (ungrouped (latest τ (grouped σ l))) k = valuesAt l k := by
  have hperm : (τ.order (σ.order (keysOf l))).Perm (keysOf l) := (τ.perm _).trans (σ.perm _)
  rw [latest_grouped]
  apply valuesAt_ungrouped_map (hperm.nodup_iff.mpr (keysOf_nodup l))
  by_cases hk : k ∈ keysOf l
  · exact Or.inl (hperm.mem_iff.mpr hk)
  · right
    rw [valuesAt, List.map_eq_nil_iff, List.filter_eq_nil_iff]
    rintro e he hek
    exact hk (mem_keysOf.mpr ⟨e.2, by rw [← of_decide_eq_true hek]; exact he⟩)

section Renamed

variable {κ' : Type w} [DecidableEq κ'] {f : κ → κ'}

/-- The values of a key under another name. -/
theorem valuesAt_map_key (hf : Function.Injective f) (l : List (κ × α)) (k : κ) :
    valuesAt (l.map (Prod.map f id)) (f k) = valuesAt l k := by
  rw [valuesAt, valuesAt, List.filter_map, List.map_map]
  congr 1
  apply List.filter_congr
  intro e _
  simp [hf.eq_iff]

omit [DecidableEq κ] in
theorem valuesAt_map_key_of_ne (l : List (κ × α)) {k' : κ'} (h : ∀ k, f k ≠ k') :
    valuesAt (l.map (Prod.map f id)) k' = [] := by
  rw [valuesAt, List.map_eq_nil_iff, List.filter_eq_nil_iff]
  intro e he hk
  obtain ⟨a, -, rfl⟩ := List.mem_map.mp he
  exact h a.1 (of_decide_eq_true hk)

omit [DecidableEq κ] [DecidableEq κ'] in
/-- The rows of a map, listed under the names of their keys. -/
theorem map_flatMap_rows {β : Type v} {pair : β → κ' × α} {rows : κ × List α → List β}
    {g : List (κ × List α)}
    (h : ∀ e ∈ g, (rows e).map pair = e.2.map (fun a => (f e.1, a))) :
    (g.flatMap rows).map pair = (ungrouped g).map (Prod.map f id) := by
  rw [List.map_flatMap, ungrouped, List.map_flatMap]
  refine List.flatMap_congr (fun e he => ?_)
  rw [h e he, List.map_map]
  rfl

/-- Grouped and read back, the values of a key stand in the same order under every name. -/
theorem valuesAt_regrouped (hf : Function.Injective f) (σ τ : HashOrder κ) (l : List (κ × α))
    (k' : κ') : valuesAt ((ungrouped (latest τ (grouped σ l))).map (Prod.map f id)) k' =
      valuesAt (l.map (Prod.map f id)) k' := by
  by_cases h : ∃ k, f k = k'
  · obtain ⟨k, rfl⟩ := h
    rw [valuesAt_map_key hf, valuesAt_map_key hf, valuesAt_ungrouped_latest]
  · rw [valuesAt_map_key_of_ne _ (not_exists.mp h), valuesAt_map_key_of_ne _ (not_exists.mp h)]

end Renamed

/-- The entries of a map in two orders. -/
theorem latest_perm (σ τ : HashOrder κ) (l : List (κ × α)) : (latest σ l).Perm (latest τ l) :=
  ((σ.perm _).trans (τ.perm _).symm).filterMap _

theorem keys_latest_nodup (σ : HashOrder κ) (l : List (κ × α)) :
    ((latest σ l).map Prod.fst).Nodup := by
  have hkeys : ∀ ks : List κ, (ks.filterMap (fun k => (valuesAt l k).getLast?.map
      (fun v => (k, v)))).map Prod.fst = ks.filter (fun k => (valuesAt l k).getLast?.isSome) := by
    intro ks
    induction ks with
    | nil => rfl
    | cons k rest ih =>
      rw [List.filterMap_cons, List.filter_cons]
      cases (valuesAt l k).getLast? with
      | none => exact ih
      | some v => exact congrArg (k :: ·) ih
  rw [latest, hkeys]
  exact ((σ.perm _).nodup_iff.mpr (keysOf_nodup l)).sublist List.filter_sublist

theorem eq_nil_iff_of_perm {β : Type w} {l l' : List β} (h : l.Perm l') : l = [] ↔ l' = [] := by
  rw [← List.length_eq_zero_iff, h.length_eq, List.length_eq_zero_iff]

section Folds

variable {β : Type w} {σ : Type w}

/-- Lists whose elements commute with each other, one after the other. -/
theorem foldl_comm {f : σ → β → σ} {l l' : List β}
    (h : ∀ a ∈ l, ∀ b ∈ l', ∀ s, f (f s a) b = f (f s b) a) (s : σ) :
    l'.foldl f (l.foldl f s) = l.foldl f (l'.foldl f s) := by
  have hone : ∀ a ∈ l, ∀ s, l'.foldl f (f s a) = f (l'.foldl f s) a := by
    intro a ha
    induction l' with
    | nil => exact fun _ => rfl
    | cons b rest ih =>
      intro s
      rw [List.foldl_cons, List.foldl_cons, h a ha b List.mem_cons_self]
      exact ih (fun a ha b hb => h a ha b (List.mem_cons_of_mem _ hb)) (f s b)
  induction l generalizing s with
  | nil => rfl
  | cons a rest ih =>
    rw [List.foldl_cons, List.foldl_cons, ← hone a List.mem_cons_self]
    exact ih (fun a ha => h a (List.mem_cons_of_mem _ ha)) (f s a)
      (fun a ha => hone a (List.mem_cons_of_mem _ ha))

omit [DecidableEq κ] in
/-- A pass over the rows of a map does not show the order of the map, when rows of
different keys commute. -/
theorem foldl_flatMap_perm {f : σ → β → σ} {rows : κ × α → List β} {g g' : List (κ × α)}
    (hcomm : ∀ e e', e.1 ≠ e'.1 → ∀ a ∈ rows e, ∀ b ∈ rows e', ∀ s,
      f (f s a) b = f (f s b) a)
    (hperm : g.Perm g') (hnodup : (g.map Prod.fst).Nodup) (s : σ) :
    (g.flatMap rows).foldl f s = (g'.flatMap rows).foldl f s := by
  rw [List.foldl_flatMap, List.foldl_flatMap]
  apply hperm.foldl_eq'
  intro e he e' he' s
  by_cases heq : e = e'
  · rw [heq]
  · have hkey : e.1 ≠ e'.1 := fun hk => heq (List.inj_on_of_nodup_map hnodup he he' hk)
    exact foldl_comm (hcomm e e' hkey) s

end Folds

/-- Two selections from a list, the first by a test of the images, have the same images
exactly when they select the same. -/
theorem perm_map_filter_iff {β : Type w} {f : α → β} {p : β → Bool} {q : α → Bool}
    {l : List α} :
    ((l.filter (fun a => p (f a))).map f).Perm ((l.filter q).map f) ↔
      ∀ a ∈ l, p (f a) = q a := by
  constructor
  · intro h
    have himp : ∀ a ∈ l, q a = true → p (f a) = true := by
      intro a ha hq
      have hmem := h.mem_iff.mpr (List.mem_map_of_mem (f := f) (List.mem_filter.mpr ⟨ha, hq⟩))
      obtain ⟨b, hb, hab⟩ := List.mem_map.mp hmem
      rw [← hab]
      exact (List.mem_filter.mp hb).2
    have hsub : List.Sublist (l.filter q) (l.filter (fun a => p (f a))) := by
      have hfilter : l.filter q = (l.filter (fun a => p (f a))).filter q := by
        rw [List.filter_filter]
        apply List.filter_congr
        intro a ha
        cases hq : q a with
        | false => rfl
        | true => rw [himp a ha hq]; rfl
      rw [hfilter]
      exact List.filter_sublist
    have heq := hsub.eq_of_length (by simpa using h.length_eq.symm)
    intro a ha
    rw [Bool.eq_iff_iff]
    refine ⟨fun hp => ?_, himp a ha⟩
    have hmem : a ∈ l.filter q := by
      rw [heq]
      exact List.mem_filter.mpr ⟨ha, hp⟩
    exact (List.mem_filter.mp hmem).2
  · intro h
    rw [List.filter_congr h]

end Grouping
