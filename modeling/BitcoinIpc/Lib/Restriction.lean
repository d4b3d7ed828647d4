import BitcoinIpc.Lib.OrderedTable

/-!
# Parts of ordered tables

The part of a table whose keys meet a predicate. A write to a key of the part
is a write to the part, any other write leaves the part as it is, and a scan or
a lookup within the part needs nothing else.
-/

namespace OrderedTable.Table

universe u v

variable {κ : Type u} {V : Type v} [LinearOrder κ] (t : Table κ V) (p : κ → Bool)

def restrict : Table κ V := ⟨t.scanEntries p, t.sorted.filter _⟩

theorem get_restrict (k : κ) : (t.restrict p).get k = if p k = true then t.get k else none := by
  apply Option.ext
  intro v
  rw [get_eq_some_iff]
  simp only [restrict, scanEntries, List.mem_filter]
  split_ifs with h
  · rw [get_eq_some_iff, and_iff_left h]
  · simp [h]

@[simp] theorem scan_restrict : (t.restrict p).scan p = t.scan p := by
  simp [restrict, scan, scanEntries]

variable {p}

theorem get_of_restrict {k : κ} (h : p k = true) : (t.restrict p).get k = t.get k := by
  rw [get_restrict, if_pos h]

theorem restrict_put {k : κ} (v : V) (h : p k = true) :
    (t.put k v).restrict p = (t.restrict p).put k v := by
  apply ext_get
  intro j
  simp only [get_restrict, get_put]
  by_cases hj : j = k
  · simp [hj, h]
  · simp [hj]

theorem restrict_put_of_not {k : κ} (v : V) (h : p k = false) :
    (t.put k v).restrict p = t.restrict p := by
  apply ext_get
  intro j
  simp only [get_restrict, get_put]
  by_cases hj : j = k
  · simp [hj, h]
  · simp [hj]

/-- The part at one key holds what is found there. -/
theorem entries_restrict_eq {k : κ} (hp : ∀ j, p j = true ↔ j = k) :
    (t.restrict p).entries = (t.get k).toList.map (fun v => (k, v)) := by
  cases hget : t.get k with
  | none =>
    rw [get_eq_none_iff] at hget
    refine List.filter_eq_nil_iff.mpr ?_
    intro e he hpe
    exact hget e he ((hp _).mp hpe).symm
  | some v =>
    have hput : t.restrict p = empty.put k v := by
      apply ext_get
      intro j
      rw [get_restrict, get_put]
      by_cases hj : j = k
      · rw [if_pos ((hp j).mpr hj), if_pos hj, hj, hget]
      · rw [if_neg (fun h => hj ((hp j).mp h)), if_neg hj, get_empty]
    rw [hput]
    rfl

end OrderedTable.Table
