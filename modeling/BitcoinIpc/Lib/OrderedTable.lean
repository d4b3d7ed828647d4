import Mathlib.Data.List.Sort
import Mathlib.Data.List.Lex
import Mathlib.Order.Basic

/-!
# Ordered key-value tables

An executable table with unique keys, iterated in the order of its keys. The
strict order of the entries is carried by the table, so that a table is
determined by its lookups. Scans select the entries whose key meets a
predicate, in key order; the lemmas say what a write does to a lookup and to a
scan.
-/

namespace OrderedTable

universe u v

structure Table (κ : Type u) (V : Type v) [LinearOrder κ] where
  entries : List (κ × V)
  sorted : entries.Pairwise (fun a b => a.1 < b.1)

variable {κ : Type u} {V : Type v} [LinearOrder κ]

instance [DecidableEq V] : DecidableEq (Table κ V) := fun s t =>
  decidable_of_iff (s.entries = t.entries)
    ⟨fun h => by cases s; cases t; simp_all, fun h => by rw [h]⟩

/-- Position of the key, replacing the entry that has it. -/
def insertEntry (k : κ) (v : V) : List (κ × V) → List (κ × V)
  | [] => [(k, v)]
  | e :: rest =>
    if k < e.1 then (k, v) :: e :: rest
    else if k = e.1 then (k, v) :: rest
    else e :: insertEntry k v rest

def lookupEntry (k : κ) : List (κ × V) → Option V
  | [] => none
  | e :: rest => if k = e.1 then some e.2 else lookupEntry k rest

lemma mem_insertEntry {k : κ} {v : V} {l : List (κ × V)} {e : κ × V}
    (h : e ∈ insertEntry k v l) : e = (k, v) ∨ e ∈ l := by
  induction l with
  | nil => exact Or.inl (by simpa [insertEntry] using h)
  | cons a rest ih =>
    simp only [insertEntry] at h
    split at h
    · simpa using h
    · split at h
      · rcases List.mem_cons.mp h with he | he
        · exact Or.inl he
        · exact Or.inr (List.mem_cons_of_mem a he)
      · rcases List.mem_cons.mp h with he | he
        · exact Or.inr (by simp [he])
        · rcases ih he with he | he
          · exact Or.inl he
          · exact Or.inr (List.mem_cons_of_mem a he)

lemma insertEntry_sorted (k : κ) (v : V) {l : List (κ × V)}
    (hl : l.Pairwise (fun a b => a.1 < b.1)) :
    (insertEntry k v l).Pairwise (fun a b => a.1 < b.1) := by
  induction l with
  | nil => simp [insertEntry]
  | cons a rest ih =>
    obtain ⟨ha, hrest⟩ := List.pairwise_cons.mp hl
    simp only [insertEntry]
    split
    · rename_i hlt
      refine List.pairwise_cons.mpr ⟨?_, hl⟩
      intro b hb
      rcases List.mem_cons.mp hb with rfl | hb
      · exact hlt
      · exact lt_trans hlt (ha b hb)
    · split
      · rename_i heq
        refine List.pairwise_cons.mpr ⟨?_, hrest⟩
        intro b hb
        exact heq ▸ ha b hb
      · rename_i hnlt hne
        refine List.pairwise_cons.mpr ⟨?_, ih hrest⟩
        intro b hb
        rcases mem_insertEntry hb with rfl | hb
        · exact lt_of_le_of_ne (not_lt.mp hnlt) (fun h => hne h.symm)
        · exact ha b hb

namespace Table

def empty : Table κ V := ⟨[], List.Pairwise.nil⟩

def get (t : Table κ V) (k : κ) : Option V := lookupEntry k t.entries

def put (t : Table κ V) (k : κ) (v : V) : Table κ V :=
  ⟨insertEntry k v t.entries, insertEntry_sorted k v t.sorted⟩

def delete (t : Table κ V) (k : κ) : Table κ V :=
  ⟨t.entries.filter (fun e => e.1 ≠ k), t.sorted.filter _⟩

/-- Entries whose key meets the predicate, in key order. -/
def scanEntries (t : Table κ V) (p : κ → Bool) : List (κ × V) :=
  t.entries.filter (fun e => p e.1)

/-- Values whose key meets the predicate, in key order. -/
def scan (t : Table κ V) (p : κ → Bool) : List V :=
  (t.scanEntries p).map Prod.snd

end Table

lemma lookupEntry_insert (k k' : κ) (v : V) (l : List (κ × V)) :
    lookupEntry k' (insertEntry k v l) =
      if k' = k then some v else lookupEntry k' l := by
  induction l with
  | nil => simp [insertEntry, lookupEntry]
  | cons a rest ih =>
    simp only [insertEntry]
    split
    · simp [lookupEntry]
    · split
      · rename_i heq
        by_cases hk : k' = k
        · simp [lookupEntry, hk]
        · have : k' ≠ a.1 := fun h => hk (h.trans heq.symm)
          simp [lookupEntry, hk, this]
      · rename_i hne
        by_cases ha : k' = a.1
        · have : k' ≠ k := fun h => hne (h.symm.trans ha)
          simp only [lookupEntry, ha, if_true]
          rw [if_neg (fun h => hne h.symm)]
        · simp [lookupEntry, ha, ih]

lemma lookupEntry_none {k : κ} {l : List (κ × V)} (h : ∀ e ∈ l, k ≠ e.1) :
    lookupEntry k l = none := by
  induction l with
  | nil => rfl
  | cons a rest ih =>
    simp only [lookupEntry]
    rw [if_neg (h a List.mem_cons_self)]
    exact ih (fun e he => h e (List.mem_cons_of_mem a he))

lemma lookupEntry_eq_some {k : κ} {v : V} {l : List (κ × V)}
    (hl : l.Pairwise (fun a b => a.1 < b.1)) :
    lookupEntry k l = some v ↔ (k, v) ∈ l := by
  induction l with
  | nil => simp [lookupEntry]
  | cons a rest ih =>
    obtain ⟨ha, hrest⟩ := List.pairwise_cons.mp hl
    by_cases hk : k = a.1
    · subst hk
      simp only [lookupEntry, if_true, Option.some.injEq, List.mem_cons]
      constructor
      · rintro rfl
        exact Or.inl rfl
      · rintro (he | he)
        · exact (congrArg Prod.snd he).symm
        · exact absurd (ha _ he) (lt_irrefl _)
    · have hne : (k, v) ≠ a := fun h => hk (congrArg Prod.fst h)
      simp [lookupEntry, hk, ih hrest, hne]

namespace Table

@[simp] theorem get_empty (k : κ) : (empty : Table κ V).get k = none := rfl

theorem get_put (t : Table κ V) (k k' : κ) (v : V) :
    (t.put k v).get k' = if k' = k then some v else t.get k' :=
  lookupEntry_insert k k' v t.entries

@[simp] theorem get_put_self (t : Table κ V) (k : κ) (v : V) :
    (t.put k v).get k = some v := by
  simp [get_put]

theorem get_put_of_ne (t : Table κ V) {k k' : κ} (v : V) (h : k' ≠ k) :
    (t.put k v).get k' = t.get k' := by
  simp [get_put, h]

theorem get_eq_some_iff (t : Table κ V) {k : κ} {v : V} :
    t.get k = some v ↔ (k, v) ∈ t.entries :=
  lookupEntry_eq_some t.sorted

theorem get_eq_none_iff (t : Table κ V) {k : κ} :
    t.get k = none ↔ ∀ e ∈ t.entries, k ≠ e.1 := by
  constructor
  · intro h e he hk
    have : t.get k = some e.2 := (get_eq_some_iff t).mpr (by simpa [hk] using he)
    rw [h] at this
    cases this
  · exact lookupEntry_none

/-- A table is determined by its lookups. -/
theorem ext_get {s t : Table κ V} (h : ∀ k, s.get k = t.get k) : s = t := by
  have hmem : ∀ e, e ∈ s.entries ↔ e ∈ t.entries := by
    rintro ⟨k, v⟩
    rw [← get_eq_some_iff, ← get_eq_some_iff, h k]
  have hnd : ∀ r : Table κ V, r.entries.Nodup := fun r =>
    r.sorted.imp (fun hab he => by subst he; exact lt_irrefl _ hab)
  have hperm : s.entries.Perm t.entries :=
    (List.perm_ext_iff_of_nodup (hnd s) (hnd t)).mpr hmem
  have heq : s.entries = t.entries :=
    hperm.eq_of_pairwise (fun _ _ _ _ hab hba => absurd hab (lt_asymm hba))
      s.sorted t.sorted
  cases s; cases t; simpa using heq

/-- Writes to two keys commute. -/
theorem put_comm (t : Table κ V) {k k' : κ} (h : k ≠ k') (v v' : V) :
    (t.put k v).put k' v' = (t.put k' v').put k v := by
  apply ext_get
  intro j
  simp only [get_put]
  split_ifs with hj' hj
  · exact absurd (hj.symm.trans hj') h
  all_goals rfl

theorem get_delete (t : Table κ V) (k k' : κ) :
    (t.delete k).get k' = if k' = k then none else t.get k' := by
  by_cases hk : k' = k
  · subst hk
    rw [if_pos rfl, get_eq_none_iff]
    intro e he hne
    have := (List.mem_filter.mp he).2
    simp [hne] at this
  · rw [if_neg hk]
    apply Option.ext
    intro v
    rw [get_eq_some_iff, get_eq_some_iff]
    simp [delete, hk]

theorem mem_scan_iff (t : Table κ V) (p : κ → Bool) (v : V) :
    v ∈ t.scan p ↔ ∃ k, p k = true ∧ t.get k = some v := by
  constructor
  · intro h
    obtain ⟨⟨k, v'⟩, he, rfl⟩ := List.mem_map.mp h
    obtain ⟨he, hp⟩ := List.mem_filter.mp he
    exact ⟨k, hp, (get_eq_some_iff t).mpr he⟩
  · rintro ⟨k, hp, hk⟩
    exact List.mem_map.mpr ⟨(k, v),
      List.mem_filter.mpr ⟨(get_eq_some_iff t).mp hk, hp⟩, rfl⟩

/-- A write outside the scanned keys does not show in the scan. -/
theorem scan_put_of_not (t : Table κ V) (p : κ → Bool) (k : κ) (v : V)
    (h : p k = false) : (t.put k v).scan p = t.scan p := by
  have key : ∀ l : List (κ × V), (insertEntry k v l).filter (fun e => p e.1) =
      l.filter (fun e => p e.1) := by
    intro l
    induction l with
    | nil => simp [insertEntry, h]
    | cons a rest ih =>
      simp only [insertEntry]
      split
      · simp [h]
      · split
        · rename_i heq
          simp [h, ← heq]
        · simp [List.filter_cons, ih]
  simp only [scan, scanEntries, put, key]

/-- A write of a fresh scanned key adds its value to the scan. -/
theorem scan_put_perm (t : Table κ V) (p : κ → Bool) (k : κ) (v : V)
    (h : p k = true) (fresh : t.get k = none) :
    ((t.put k v).scan p).Perm (v :: t.scan p) := by
  have key : ∀ l : List (κ × V), lookupEntry k l = none →
      ((insertEntry k v l).filter (fun e => p e.1)).Perm
        ((k, v) :: l.filter (fun e => p e.1)) := by
    intro l hl
    induction l with
    | nil => simp [insertEntry, h]
    | cons a rest ih =>
      have hne : k ≠ a.1 := by
        intro heq
        simp [lookupEntry, heq] at hl
      have hrest : lookupEntry k rest = none := by
        simpa [lookupEntry, hne] using hl
      simp only [insertEntry]
      split
      · simp [h]
      · by_cases hp : p a.1 = true
        · simp only [List.filter_cons, hp, if_true]
          exact ((ih hrest).cons a).trans (List.Perm.swap _ _ _)
        · simp only [List.filter_cons, hp]
          simpa using ih hrest
  simpa [scan, scanEntries, put] using (key t.entries fresh).map Prod.snd

theorem insertEntry_subperm (k : κ) (v : V) (l : List (κ × V)) :
    (insertEntry k v l).Subperm ((k, v) :: l) := by
  induction l with
  | nil => exact List.Subperm.refl _
  | cons e rest ih =>
    rw [insertEntry]
    split_ifs with hlt heq
    · exact List.Subperm.refl _
    · exact ((List.sublist_cons_self e rest).cons_cons (k, v)).subperm
    · exact (List.subperm_cons e |>.mpr ih).trans (List.Perm.swap _ _ _).subperm

/-- A write adds at most its value to a scan. -/
theorem scan_put_subperm (t : Table κ V) (p : κ → Bool) (k : κ) (v : V) :
    ((t.put k v).scan p).Subperm (v :: t.scan p) := by
  have hfilter : ((insertEntry k v t.entries).filter (fun e => p e.1)).Subperm
      (((k, v) :: t.entries).filter (fun e => p e.1)) :=
    (insertEntry_subperm k v t.entries).filter _
  obtain ⟨l, hperm, hsub⟩ := hfilter
  refine ⟨l.map Prod.snd, hperm.map Prod.snd, ?_⟩
  rw [List.filter_cons] at hsub
  split_ifs at hsub
  · exact hsub.map Prod.snd
  · exact (hsub.map Prod.snd).cons v

/-- Overwriting a scanned entry keeps the number of scanned entries. -/
theorem scan_put_length (t : Table κ V) (p : κ → Bool) (k : κ) (v w : V)
    (present : t.get k = some w) :
    ((t.put k v).scan p).length = (t.scan p).length := by
  have key : ∀ l : List (κ × V), lookupEntry k l = some w →
      l.Pairwise (fun a b => a.1 < b.1) →
      ((insertEntry k v l).filter (fun e => p e.1)).length =
        (l.filter (fun e => p e.1)).length := by
    intro l hl hs
    induction l with
    | nil => simp [lookupEntry] at hl
    | cons a rest ih =>
      obtain ⟨ha, hrest⟩ := List.pairwise_cons.mp hs
      by_cases heq : k = a.1
      · simp [insertEntry, heq, List.filter_cons]
        split <;> simp
      · have hl' : lookupEntry k rest = some w := by simpa [lookupEntry, heq] using hl
        have hnlt : ¬ k < a.1 := by
          intro hlt
          have hm := (lookupEntry_eq_some hrest).mp hl'
          exact lt_asymm hlt (ha _ hm)
        simp only [insertEntry, if_neg hnlt, if_neg heq, List.filter_cons]
        split
        · simp [ih hl' hrest]
        · exact ih hl' hrest
  simpa [scan, scanEntries, put] using key t.entries present t.sorted

section Numbered

variable (key : Nat → κ) (belongs : κ → Bool)

/-- The numbers of the records are the ones below their count. -/
def Dense (t : Table κ V) : Prop :=
  ∀ n, (t.get (key n)).isSome ↔ n < (t.scan belongs).length

/-- The records in the order of their numbers. -/
def listed (t : Table κ V) : List V :=
  (List.range (t.scan belongs).length).filterMap (fun n => t.get (key n))

variable {key belongs} {t : Table κ V}

/-- A record with the next number is the last one. -/
theorem dense_put_next (hinj : Function.Injective key) (hbelongs : ∀ n, belongs (key n) = true)
    (h : Dense key belongs t) (v : V) :
    Dense key belongs (t.put (key (t.scan belongs).length) v) ∧
      listed key belongs (t.put (key (t.scan belongs).length) v) = listed key belongs t ++ [v] := by
  set n := (t.scan belongs).length with hn
  have hfresh : t.get (key n) = none := by
    rw [← Option.not_isSome_iff_eq_none, h n]
    omega
  have hlen : ((t.put (key n) v).scan belongs).length = n + 1 :=
    (scan_put_perm t belongs (key n) v (hbelongs n) hfresh).length_eq
  have hget : ∀ k, (t.put (key n) v).get (key k) = if k = n then some v else t.get (key k) := by
    intro k
    rw [get_put]
    simp only [hinj.eq_iff]
  constructor
  · intro k
    rw [hget, hlen]
    split_ifs with hk
    · simp [hk]
    · rw [h k, ← hn]
      omega
  · rw [listed, hlen, List.range_succ, List.filterMap_append]
    congr 1
    · apply List.filterMap_congr
      intro k hk
      have hlt := List.mem_range.mp hk
      rw [hget, if_neg (by omega)]
    · simp [hget]

/-- A record of another log changes nothing. -/
theorem dense_put_other (hbelongs : ∀ n, belongs (key n) = true) {k : κ} (hk : belongs k = false)
    (v : V) : (Dense key belongs (t.put k v) ↔ Dense key belongs t) ∧
      listed key belongs (t.put k v) = listed key belongs t := by
  have hget : ∀ n, (t.put k v).get (key n) = t.get (key n) := by
    intro n
    apply get_put_of_ne
    rintro rfl
    rw [hbelongs n] at hk
    cases hk
  simp only [Dense, listed, scan_put_of_not t belongs k v hk, hget, and_self]

end Numbered

end Table

end OrderedTable
