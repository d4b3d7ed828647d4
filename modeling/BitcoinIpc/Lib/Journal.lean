import BitcoinIpc.Lib.OrderedTable
import Mathlib.Logic.Relation
import Mathlib.Data.List.Perm.Subperm
import Mathlib.Data.List.Sort

/-!
# Journals in a table

Several journals share one table. The records of a journal stand under numbered
keys, the next number is found by counting the keys that belong to the journal,
and a record may be rewritten in place. Whatever is appended and rewritten, the
numbers stay dense, every record stays where it is, and the scan of a journal
finds its own records and no others.
-/

namespace OrderedTable

universe u v w

/-- Where the records of journals stand: a key for each journal and number, the keys
that belong to a journal, the number a record carries, and the first number. -/
structure Journal (ι : Type u) (κ : Type v) (V : Type w) [LinearOrder κ] where
  key : ι → Nat → κ
  belongs : ι → κ → Bool
  number : V → Nat
  first : Nat
  key_injective : ∀ i, Function.Injective (key i)
  belongs_key : ∀ i j n, belongs i (key j n) = true ↔ i = j

namespace Journal

variable {ι : Type u} {κ : Type v} {V : Type w} [LinearOrder κ] (J : Journal ι κ V)

def count (t : Table κ V) (i : ι) : Nat := (t.scan (J.belongs i)).length

/-- The records of a journal, in the order of their numbers. -/
def records (t : Table κ V) (i : ι) : List V :=
  (List.range (J.count t i)).filterMap (fun n => t.get (J.key i (J.first + n)))

/-- Every record stands under a key of its number, and the numbers of each journal
are consecutive from the first on. -/
structure Kept (t : Table κ V) : Prop where
  keyed : ∀ e ∈ t.entries, ∃ i, e.1 = J.key i (J.number e.2)
  dense : ∀ i n, (∃ v, t.get (J.key i n) = some v) ↔ J.first ≤ n ∧ n < J.first + J.count t i

/-- A record is appended with the next number, or rewritten as `R` allows. -/
inductive Write (R : V → V → Prop) (t : Table κ V) : Table κ V → Prop
  | append {i v} : J.number v = J.first + J.count t i →
      Write R t (t.put (J.key i (J.number v)) v)
  | rewrite {i v old} : t.get (J.key i (J.number v)) = some old → R old v →
      Write R t (t.put (J.key i (J.number v)) v)

/-- Any number of writes, one after the other. -/
def Writes (R : V → V → Prop) : Table κ V → Table κ V → Prop := Relation.ReflTransGen (J.Write R)

variable {J} {R : V → V → Prop} {t t' : Table κ V}

theorem key_eq_iff {i j : ι} {n m : Nat} : J.key i n = J.key j m ↔ i = j ∧ n = m := by
  constructor
  · intro h
    have hij : i = j := (J.belongs_key i j m).mp (h ▸ (J.belongs_key i i n).mpr rfl)
    subst hij
    exact ⟨rfl, J.key_injective i h⟩
  · rintro ⟨rfl, rfl⟩
    rfl

theorem get_put_key [DecidableEq ι] (i j : ι) (n : Nat) (v : V) :
    (t.put (J.key i (J.number v)) v).get (J.key j n) =
      if j = i ∧ n = J.number v then some v else t.get (J.key j n) := by
  simp only [Table.get_put, key_eq_iff]

theorem Kept.number_eq (h : J.Kept t) {i : ι} {n : Nat} {v : V}
    (hget : t.get (J.key i n) = some v) : J.number v = n := by
  obtain ⟨j, hj⟩ := h.keyed _ ((Table.get_eq_some_iff t).mp hget)
  exact (key_eq_iff.mp hj).2.symm

theorem kept_empty (h : ∀ i, J.count (Table.empty : Table κ V) i = 0) :
    J.Kept (Table.empty : Table κ V) := by
  constructor
  · intro e he
    cases he
  · intro i n
    rw [h i]
    constructor
    · rintro ⟨v, hv⟩
      cases hv
    · rintro ⟨hlo, hhi⟩
      omega

/-- What a scan selects stands under a key of its journal. -/
theorem Kept.scanned (h : J.Kept t) {i : ι} {e : κ × V} (he : e ∈ t.scanEntries (J.belongs i)) :
    e.1 = J.key i (J.number e.2) := by
  obtain ⟨hmem, hbelongs⟩ := List.mem_filter.mp he
  obtain ⟨j, hj⟩ := h.keyed e hmem
  rw [hj] at hbelongs
  rw [hj, (J.belongs_key i j _).mp hbelongs]

theorem Kept.mem_scan (h : J.Kept t) {i : ι} {v : V} :
    v ∈ t.scan (J.belongs i) ↔ t.get (J.key i (J.number v)) = some v := by
  constructor
  · intro hv
    obtain ⟨e, he, rfl⟩ := List.mem_map.mp hv
    rw [← h.scanned he]
    exact (Table.get_eq_some_iff t).mpr (List.mem_of_mem_filter he)
  · intro hv
    exact (Table.mem_scan_iff t _ v).mpr ⟨_, (J.belongs_key i i _).mpr rfl, hv⟩

theorem mem_records {i : ι} {v : V} (h : J.Kept t) :
    v ∈ J.records t i ↔ t.get (J.key i (J.number v)) = some v := by
  rw [records, List.mem_filterMap]
  constructor
  · rintro ⟨n, -, hn⟩
    rw [h.number_eq hn]
    exact hn
  · intro hv
    obtain ⟨hlo, hhi⟩ := (h.dense i _).mp ⟨v, hv⟩
    refine ⟨J.number v - J.first, List.mem_range.mpr (by omega), ?_⟩
    rw [Nat.add_sub_cancel' hlo]
    exact hv

theorem records_sorted (h : J.Kept t) (i : ι) :
    (J.records t i).Pairwise (fun a b => J.number a < J.number b) := by
  rw [records, List.pairwise_filterMap]
  refine List.pairwise_lt_range.imp ?_
  intro n m hnm a ha b hb
  rw [h.number_eq ha, h.number_eq hb]
  omega

theorem length_records (h : J.Kept t) (i : ι) : (J.records t i).length = J.count t i := by
  rw [records, List.length_filterMap_eq_countP, List.countP_eq_length.mpr, List.length_range]
  intro n hn
  have hlt := List.mem_range.mp hn
  obtain ⟨v, hv⟩ := (h.dense i (J.first + n)).mpr ⟨by omega, by omega⟩
  rw [hv]
  rfl

/-- The numbers of the records, in their order. -/
theorem map_number_records (h : J.Kept t) (i : ι) :
    (J.records t i).map J.number = List.range' J.first (J.count t i) := by
  rw [records, List.map_filterMap, List.range'_eq_map_range, ← List.filterMap_eq_map]
  apply List.filterMap_congr
  intro n hn
  have hlt := List.mem_range.mp hn
  obtain ⟨v, hv⟩ := (h.dense i (J.first + n)).mpr ⟨by omega, by omega⟩
  rw [hv, Option.map_some, h.number_eq hv]
  rfl

/-- A scan finds the records of its journal, each once. -/
theorem scan_perm_records (h : J.Kept t) (i : ι) :
    (t.scan (J.belongs i)).Perm (J.records t i) := by
  have hnodup : (J.records t i).Nodup := by
    refine (records_sorted h i).imp ?_
    rintro a b hab rfl
    exact lt_irrefl _ hab
  have hsub : ∀ v ∈ J.records t i, v ∈ t.scan (J.belongs i) :=
    fun v hv => h.mem_scan.mpr ((mem_records h).mp hv)
  exact ((List.Nodup.subperm hnodup hsub).perm_of_length_le
    (le_of_eq (length_records h i).symm)).symm

theorem map_number_scan_perm (h : J.Kept t) (i : ι) :
    ((t.scan (J.belongs i)).map J.number).Perm (List.range' J.first (J.count t i)) := by
  rw [← map_number_records h i]
  exact (scan_perm_records h i).map J.number

/-- Among more records, the new ones carry the next numbers. -/
theorem map_number_new (h : J.Kept t) (h' : J.Kept t') {i : ι} {new : List V}
    (hnew : J.records t' i = J.records t i ++ new) :
    new.map J.number = List.range' (J.first + J.count t i) new.length := by
  have hlen : J.count t' i = J.count t i + new.length := by
    rw [← length_records h' i, hnew, List.length_append, length_records h i]
  have hall := map_number_records h' i
  rw [hnew, List.map_append, map_number_records h i, hlen, ← List.range'_append_1] at hall
  exact List.append_cancel_left hall

/-- The scan is in the order of the numbers when the keys are. -/
theorem scan_eq_records (h : J.Kept t) {i : ι}
    (hkeys : ∀ n m, n < m → m < J.first + J.count t i → J.key i n < J.key i m) :
    t.scan (J.belongs i) = J.records t i := by
  have hsorted : (t.scan (J.belongs i)).Pairwise (fun a b => J.number a < J.number b) := by
    rw [Table.scan, List.pairwise_map]
    refine List.Pairwise.imp_of_mem ?_ (t.sorted.filter (fun e => J.belongs i e.1))
    intro a b ha hb hab
    have hget : t.get (J.key i (J.number a.2)) = some a.2 := by
      rw [← h.scanned ha]
      exact (Table.get_eq_some_iff t).mpr (List.mem_of_mem_filter ha)
    have hlt := ((h.dense i _).mp ⟨a.2, hget⟩).2
    rw [h.scanned ha, h.scanned hb] at hab
    by_contra hle
    rcases Nat.lt_or_eq_of_le (not_lt.mp hle) with hba | hba
    · exact lt_asymm hab (hkeys _ _ hba hlt)
    · rw [hba] at hab
      exact lt_irrefl _ hab
  exact (scan_perm_records h i).eq_of_pairwise
    (fun _ _ _ _ hab hba => absurd hab (lt_asymm hba)) hsorted (records_sorted h i)

/-- Conversely the keys are in the order of the numbers when the scan is. -/
theorem key_lt_of_scan_eq (h : J.Kept t) {i : ι} (hscan : t.scan (J.belongs i) = J.records t i)
    {n m : Nat} (hn : J.first ≤ n) (hnm : n < m) (hm : m < J.first + J.count t i) :
    J.key i n < J.key i m := by
  have hkeys : (t.scan (J.belongs i)).Pairwise
      (fun a b => J.key i (J.number a) < J.key i (J.number b)) := by
    rw [Table.scan, List.pairwise_map]
    refine List.Pairwise.imp_of_mem ?_ (t.sorted.filter (fun e => J.belongs i e.1))
    intro a b ha hb hab
    rw [← h.scanned ha, ← h.scanned hb]
    exact hab
  rw [hscan, records, List.pairwise_filterMap, List.pairwise_iff_getElem] at hkeys
  obtain ⟨a, ha⟩ := (h.dense i n).mpr ⟨hn, by omega⟩
  obtain ⟨b, hb⟩ := (h.dense i m).mpr ⟨by omega, hm⟩
  have hlt := hkeys (n - J.first) (m - J.first) (by simp; omega) (by simp; omega) (by omega) a
    (by simpa [Nat.add_sub_cancel' hn] using ha) b
    (by simpa [Nat.add_sub_cancel' (le_of_lt (lt_of_le_of_lt hn hnm))] using hb)
  rwa [h.number_eq ha, h.number_eq hb] at hlt

section Written

variable [DecidableEq ι]

theorem count_append (h : J.Kept t) {i : ι} {v : V} (hv : J.number v = J.first + J.count t i)
    (j : ι) : J.count (t.put (J.key i (J.number v)) v) j =
      if j = i then J.count t j + 1 else J.count t j := by
  split_ifs with hji
  · subst hji
    have hfresh : t.get (J.key j (J.number v)) = none := by
      rw [← Option.not_isSome_iff_eq_none, Option.isSome_iff_exists, h.dense]
      omega
    exact (Table.scan_put_perm t _ _ v ((J.belongs_key j j _).mpr rfl) hfresh).length_eq
  · have hother : J.belongs j (J.key i (J.number v)) = false := by
      rw [← Bool.not_eq_true, J.belongs_key]
      exact hji
    rw [count, Table.scan_put_of_not t _ _ v hother]
    rfl

theorem Kept.append (h : J.Kept t) {i : ι} {v : V} (hv : J.number v = J.first + J.count t i) :
    J.Kept (t.put (J.key i (J.number v)) v) := by
  constructor
  · intro e he
    rcases mem_insertEntry he with rfl | he
    · exact ⟨i, rfl⟩
    · exact h.keyed e he
  · intro j n
    rw [get_put_key, count_append h hv]
    have hdense := h.dense j n
    by_cases hji : j = i
    · subst hji
      by_cases hn : n = J.number v
      · rw [if_pos ⟨rfl, hn⟩, if_pos rfl]
        simp only [Option.some.injEq, exists_eq', true_iff]
        omega
      · rw [if_neg (fun hand => hn hand.2), if_pos rfl, hdense]
        omega
    · rw [if_neg (fun hand => hji hand.1), if_neg hji, hdense]

theorem Kept.rewrite (h : J.Kept t) {i : ι} {v old : V}
    (hold : t.get (J.key i (J.number v)) = some old) :
    J.Kept (t.put (J.key i (J.number v)) v) := by
  have hcount : ∀ j, J.count (t.put (J.key i (J.number v)) v) j = J.count t j :=
    fun j => Table.scan_put_length t _ _ v old hold
  constructor
  · intro e he
    rcases mem_insertEntry he with rfl | he
    · exact ⟨i, rfl⟩
    · exact h.keyed e he
  · intro j n
    rw [get_put_key, hcount, ← h.dense j n]
    split_ifs with hk
    · obtain ⟨rfl, rfl⟩ := hk
      rw [hold]
      simp
    · rfl

theorem Kept.write (h : J.Kept t) (hw : J.Write R t t') : J.Kept t' := by
  cases hw with
  | append hv => exact h.append hv
  | rewrite hold _ => exact h.rewrite hold

theorem Kept.writes (h : J.Kept t) (hw : J.Writes R t t') : J.Kept t' := by
  induction hw with
  | refl => exact h
  | tail _ hstep ih => exact ih.write hstep

/-- A record is not touched by an append. -/
theorem get_of_write (h : J.Kept t) (hw : J.Write R t t') {i : ι} {n : Nat} {v : V}
    (hv : t.get (J.key i n) = some v) :
    ∃ v', t'.get (J.key i n) = some v' ∧ Relation.ReflTransGen R v v' := by
  cases hw with
  | @append j w hw =>
    refine ⟨v, ?_, .refl⟩
    rw [get_put_key, if_neg, hv]
    rintro ⟨rfl, rfl⟩
    have := ((h.dense i _).mp ⟨v, hv⟩).2
    omega
  | @rewrite j w old hold hR =>
    rw [get_put_key]
    split_ifs with hk
    · obtain ⟨rfl, rfl⟩ := hk
      rw [hold] at hv
      cases hv
      exact ⟨w, rfl, .single hR⟩
    · exact ⟨v, hv, .refl⟩

/-- What is recorded stays recorded, but for the rewrites. -/
theorem get_of_writes (h : J.Kept t) (hw : J.Writes R t t') {i : ι} {n : Nat} {v : V}
    (hv : t.get (J.key i n) = some v) :
    ∃ v', t'.get (J.key i n) = some v' ∧ Relation.ReflTransGen R v v' := by
  induction hw with
  | refl => exact ⟨v, hv, .refl⟩
  | tail hw hstep ih =>
    obtain ⟨v', hv', hR⟩ := ih
    obtain ⟨v'', hv'', hR'⟩ := get_of_write (h.writes hw) hstep hv'
    exact ⟨v'', hv'', hR.trans hR'⟩

theorem get_of_appends (h : J.Kept t) (hw : J.Writes (fun _ _ => False) t t') {i : ι} {n : Nat}
    {v : V} (hv : t.get (J.key i n) = some v) : t'.get (J.key i n) = some v := by
  obtain ⟨v', hv', hsame⟩ := get_of_writes h hw hv
  cases hsame with
  | refl => exact hv'
  | tail _ hfalse => exact hfalse.elim

end Written

end Journal

end OrderedTable
