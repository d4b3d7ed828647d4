import BitcoinIpc.Lib.Journal
import Mathlib.Data.List.Sort

/-!
# Journals read by their stamps

The records of a journal carry a stamp, which like the rest of their content is
never rewritten, and a clock goes up by one at a time. What is appended while
the clock stands gets the next time as its stamp. Readers ask for one stamp
after the other, each at a moment of their own. Once the clock has reached a
stamp the answer is final, and the answers to all stamps up to some time are a
prefix of the journal, with every record once.
-/

namespace OrderedTable

universe u v w x y

/-- A state with a journal in it, whose records have a content and a stamp, and a clock. -/
structure StampedLog (σ : Type x) (ι : Type u) (κ : Type v) (V : Type w) (C : Type y)
    [LinearOrder κ] where
  journal : Journal ι κ V
  table : σ → Table κ V
  clock : σ → Nat
  content : V → C
  stamp : C → Nat

namespace StampedLog

variable {σ : Type x} {ι : Type u} {κ : Type v} {V : Type w} {C : Type y} [LinearOrder κ]
  (L : StampedLog σ ι κ V C)

/-- What the records of a journal say, in the order of their numbers. -/
def log (s : σ) (i : ι) : List C := (L.journal.records (L.table s) i).map L.content

/-- The entries of a journal with a stamp, in the order of their keys. -/
def entriesAt (s : σ) (i : ι) (h : Nat) : List (κ × V) :=
  ((L.table s).scanEntries (L.journal.belongs i)).filter (fun e => L.stamp (L.content e.2) = h)

/-- What a reader is told who asks for a stamp. -/
def answer (s : σ) (i : ι) (h : Nat) : List V :=
  ((L.table s).scan (L.journal.belongs i)).filter (fun v => L.stamp (L.content v) = h)

/-- The records keep their contents, and the new ones have the given stamp. -/
structure Advances (h : Nat) (t t' : Table κ V) : Prop where
  kept : L.journal.Kept t'
  keeps : ∀ k v, t.get k = some v → ∃ v', t'.get k = some v' ∧ L.content v' = L.content v
  adds : ∀ k v', t'.get k = some v' → (∃ v, t.get k = some v) ∨ L.stamp (L.content v') = h

/-- The journal advances while the clock stands, or the clock goes on. -/
inductive Next (s s' : σ) : Prop
  | write : L.clock s' = L.clock s → L.Advances (L.clock s + 1) (L.table s) (L.table s') → Next s s'
  | tick : L.clock s' = L.clock s + 1 → L.table s' = L.table s → Next s s'

/-- The stamps ascend along every journal, and none is later than the next time. -/
structure Timed (s : σ) : Prop where
  kept : L.journal.Kept (L.table s)
  ascending : ∀ i, (L.log s i).Pairwise (fun a b => L.stamp a ≤ L.stamp b)
  bounded : ∀ i, ∀ c ∈ L.log s i, L.stamp c ≤ L.clock s + 1
  positive : ∀ i, ∀ c ∈ L.log s i, 1 ≤ L.stamp c

/-- Any number of steps. -/
abbrev Later : σ → σ → Prop := Relation.ReflTransGen L.Next

variable {L} {s s' : σ} {i : ι} {h : Nat}

theorem answer_eq_map (s : σ) (i : ι) (h : Nat) :
    L.answer s i h = (L.entriesAt s i h).map Prod.snd := by
  simp only [answer, entriesAt, Table.scan, List.filter_map]
  rfl

theorem count_le_of_advances {t t' : Table κ V} (ht : L.journal.Kept t)
    (hadv : L.Advances h t t') (i : ι) : L.journal.count t i ≤ L.journal.count t' i := by
  cases hcount : L.journal.count t i with
  | zero => exact Nat.zero_le _
  | succ n =>
    obtain ⟨v, hv⟩ := (ht.dense i (L.journal.first + n)).mpr ⟨by omega, by omega⟩
    obtain ⟨v', hv', -⟩ := hadv.keeps _ v hv
    have hlt := ((hadv.kept.dense i _).mp ⟨v', hv'⟩).2
    omega

/-- The contents of the records, number by number. -/
theorem log_eq_filterMap (s : σ) (i : ι) :
    L.log s i = (List.range (L.journal.count (L.table s) i)).filterMap
      (fun n => ((L.table s).get (L.journal.key i (L.journal.first + n))).map L.content) := by
  rw [log, Journal.records, List.map_filterMap]

/-- A write appends to every journal, and what it appends has the stamp. -/
theorem log_of_advances (ht : L.journal.Kept (L.table s))
    (hadv : L.Advances h (L.table s) (L.table s')) (i : ι) :
    ∃ new, L.log s' i = L.log s i ++ new ∧ ∀ c ∈ new, L.stamp c = h := by
  have hle := count_le_of_advances ht hadv i
  obtain ⟨more, hmore⟩ := Nat.exists_eq_add_of_le hle
  refine ⟨(List.range' (L.journal.count (L.table s) i) more).filterMap (fun n =>
    ((L.table s').get (L.journal.key i (L.journal.first + n))).map L.content), ?_, ?_⟩
  · rw [log_eq_filterMap, log_eq_filterMap, hmore, List.range_eq_range', List.range_eq_range',
      ← List.range'_append_1, List.filterMap_append, Nat.zero_add]
    congr 1
    apply List.filterMap_congr
    intro n hn
    have hlt : n < L.journal.count (L.table s) i := by
      obtain ⟨k, hk, rfl⟩ := List.mem_range'.mp hn
      omega
    obtain ⟨v, hv⟩ := (ht.dense i (L.journal.first + n)).mpr ⟨by omega, by omega⟩
    obtain ⟨v', hv', hsame⟩ := hadv.keeps _ v hv
    simp only [hv, hv', Option.map_some, hsame]
  · intro c hc
    obtain ⟨n, hn, hget⟩ := List.mem_filterMap.mp hc
    obtain ⟨v', hv', rfl⟩ := Option.map_eq_some_iff.mp hget
    obtain ⟨v, hv⟩ | hstamp := hadv.adds _ v' hv'
    · have hlt := ((ht.dense i _).mp ⟨v, hv⟩).2
      obtain ⟨k, -, rfl⟩ := List.mem_range'.mp hn
      omega
    · exact hstamp

theorem Timed.next (hs : L.Timed s) (hnext : L.Next s s') : L.Timed s' := by
  cases hnext with
  | write hclock hadv =>
    refine ⟨hadv.kept, ?_, ?_, ?_⟩
    all_goals
      intro i
      obtain ⟨new, hnew, hstamp⟩ := log_of_advances hs.kept hadv i
      rw [hnew]
    · refine List.pairwise_append.mpr ⟨hs.ascending i, ?_, ?_⟩
      · apply List.pairwise_of_forall_mem_list
        intro a ha b hb
        rw [hstamp a ha, hstamp b hb]
      · intro a ha b hb
        rw [hstamp b hb]
        exact hs.bounded i a ha
    · intro c hc
      rcases List.mem_append.mp hc with hc | hc
      · have := hs.bounded i c hc
        omega
      · have := hstamp c hc
        omega
    · intro c hc
      rcases List.mem_append.mp hc with hc | hc
      · exact hs.positive i c hc
      · have := hstamp c hc
        omega
  | tick hclock htable =>
    have hlog : L.log s' = L.log s := by
      funext i
      rw [log, log, htable]
    refine ⟨htable ▸ hs.kept, ?_, ?_, ?_⟩
    · rw [hlog]
      exact hs.ascending
    · intro i c hc
      rw [hlog] at hc
      have := hs.bounded i c hc
      omega
    · rw [hlog]
      exact hs.positive

theorem Timed.later (hs : L.Timed s) (hlater : L.Later s s') : L.Timed s' := by
  induction hlater with
  | refl => exact hs
  | tail _ hnext ih => exact ih.next hnext

theorem clock_le_of_next (hnext : L.Next s s') : L.clock s ≤ L.clock s' := by
  cases hnext with
  | write hclock _ => omega
  | tick hclock _ => omega

/-- The clock never goes back. -/
theorem clock_le_of_later (hlater : L.Later s s') : L.clock s ≤ L.clock s' := by
  induction hlater with
  | refl => exact le_refl _
  | tail _ hnext ih => exact ih.trans (clock_le_of_next hnext)

/-- The entries with a stamp, by their keys and contents. -/
theorem mem_entriesAt {e : κ × V} : e ∈ L.entriesAt s i h ↔
    (L.table s).get e.1 = some e.2 ∧ L.journal.belongs i e.1 = true ∧
      L.stamp (L.content e.2) = h := by
  simp only [entriesAt, Table.scanEntries, List.mem_filter, decide_eq_true_iff, and_assoc]
  rw [Table.get_eq_some_iff]

theorem entriesAt_sorted (s : σ) (i : ι) (h : Nat) :
    ((L.entriesAt s i h).map (fun e => (e.1, L.content e.2))).Pairwise
      (fun a b => a.1 < b.1) := by
  rw [List.pairwise_map]
  exact ((L.table s).sorted.filter _).filter _

/-- A write with another stamp does not touch the answer. -/
theorem entriesAt_of_advances {time : Nat} (hadv : L.Advances time (L.table s) (L.table s'))
    (hne : h ≠ time) : (L.entriesAt s' i h).map (fun e => (e.1, L.content e.2)) =
      (L.entriesAt s i h).map (fun e => (e.1, L.content e.2)) := by
  have hnodup : ∀ s : σ, ((L.entriesAt s i h).map (fun e => (e.1, L.content e.2))).Nodup := by
    intro s
    refine (entriesAt_sorted s i h).imp ?_
    rintro a b hab rfl
    exact lt_irrefl _ hab
  have hperm : ((L.entriesAt s' i h).map (fun e => (e.1, L.content e.2))).Perm
      ((L.entriesAt s i h).map (fun e => (e.1, L.content e.2))) := by
    rw [List.perm_ext_iff_of_nodup (hnodup s') (hnodup s)]
    intro a
    simp only [List.mem_map]
    constructor
    · rintro ⟨⟨k, v'⟩, he, rfl⟩
      obtain ⟨hget, hbelongs, hstamp⟩ := mem_entriesAt.mp he
      obtain ⟨v, hv⟩ | hnew := hadv.adds k v' hget
      · obtain ⟨v'', hv'', hsame⟩ := hadv.keeps k v hv
        obtain rfl : v'' = v' := Option.some.inj (hv''.symm.trans hget)
        exact ⟨(k, v), mem_entriesAt.mpr ⟨hv, hbelongs, hsame ▸ hstamp⟩, by rw [hsame]⟩
      · exact absurd (hstamp.symm.trans hnew) hne
    · rintro ⟨⟨k, v⟩, he, rfl⟩
      obtain ⟨hget, hbelongs, hstamp⟩ := mem_entriesAt.mp he
      obtain ⟨v', hv', hsame⟩ := hadv.keeps k v hget
      exact ⟨(k, v'), mem_entriesAt.mpr ⟨hv', hbelongs, hsame.symm ▸ hstamp⟩, by rw [hsame]⟩
  exact hperm.eq_of_pairwise (fun _ _ _ _ hab hba => absurd hab (lt_asymm hba))
    (entriesAt_sorted s' i h) (entriesAt_sorted s i h)

theorem answer_of_next (hh : h ≤ L.clock s) (hnext : L.Next s s') :
    (L.answer s' i h).map L.content = (L.answer s i h).map L.content := by
  cases hnext with
  | write _ hadv =>
    have hentries := entriesAt_of_advances (i := i) (h := h) hadv (by omega)
    have hsnd := congrArg (List.map Prod.snd) hentries
    rw [List.map_map, List.map_map] at hsnd
    rw [answer_eq_map, answer_eq_map, List.map_map, List.map_map]
    exact hsnd
  | tick _ htable => rw [answer, answer, htable]

/-- Once the clock has reached a stamp, the answer does not change any more. -/
theorem answer_final (hh : h ≤ L.clock s) (hlater : L.Later s s') :
    (L.answer s' i h).map L.content = (L.answer s i h).map L.content := by
  induction hlater with
  | refl => rfl
  | tail hlater hnext ih =>
    exact (answer_of_next (hh.trans (clock_le_of_later hlater)) hnext).trans ih

/-- What is asked for, one stamp after the other, in a list whose stamps ascend. -/
theorem flatMap_filter_stamp {l : List C} (hl : l.Pairwise (fun a b => L.stamp a ≤ L.stamp b))
    (hpos : ∀ c ∈ l, 1 ≤ L.stamp c) (n : Nat) :
    (List.range' 1 n).flatMap (fun h => l.filter (fun c => L.stamp c = h)) =
      l.filter (fun c => L.stamp c ≤ n) := by
  induction n with
  | zero =>
    symm
    simp only [List.range'_zero, List.flatMap_nil, List.filter_eq_nil_iff, decide_eq_true_iff]
    intro c hc
    have := hpos c hc
    omega
  | succ n ih =>
    rw [List.range'_concat, List.flatMap_append, ih, List.flatMap_singleton, Nat.one_mul]
    clear ih hpos
    induction l with
    | nil => rfl
    | cons c rest ih =>
      obtain ⟨hle, hrest⟩ := List.pairwise_cons.mp hl
      have ih := ih hrest
      by_cases hc : L.stamp c ≤ n
      · have hne : ¬ L.stamp c = 1 + n := by omega
        have hle : L.stamp c ≤ n + 1 := by omega
        simp only [List.filter_cons, hc, hne, hle, decide_true, decide_false, if_true,
          Bool.false_eq_true, if_false, List.cons_append, ih]
      · -- nothing from here on has a stamp up to `n`
        have hnil : (c :: rest).filter (fun c => L.stamp c ≤ n) = [] := by
          rw [List.filter_eq_nil_iff]
          intro a ha
          rcases List.mem_cons.mp ha with rfl | ha
          · simpa using hc
          · have := hle a ha
            simp only [decide_eq_true_iff]
            omega
        rw [hnil, List.nil_append]
        apply List.filter_congr
        intro a ha
        have hlow : n < L.stamp a := by
          rcases List.mem_cons.mp ha with rfl | ha
          · omega
          · have := hle a ha
            omega
        simp only [decide_eq_decide]
        omega

/-- The records with stamps up to a time come first. -/
theorem filter_stamp_prefix {l : List C} (hl : l.Pairwise (fun a b => L.stamp a ≤ L.stamp b))
    (n : Nat) : l.filter (fun c => L.stamp c ≤ n) <+: l := by
  induction l with
  | nil => exact List.prefix_rfl
  | cons c rest ih =>
    obtain ⟨hle, hrest⟩ := List.pairwise_cons.mp hl
    by_cases hc : L.stamp c ≤ n
    · rw [List.filter_cons_of_pos (by simpa using hc)]
      exact (List.prefix_cons_inj c).mpr (ih hrest)
    · have hnil : (c :: rest).filter (fun c => L.stamp c ≤ n) = [] := by
        rw [List.filter_eq_nil_iff]
        intro a ha
        rcases List.mem_cons.mp ha with rfl | ha
        · simpa using hc
        · have := hle a ha
          simp only [decide_eq_true_iff]
          omega
      rw [hnil]
      exact List.nil_prefix

/-- An answer, sorted by the numbers of its records. -/
def sortedAnswer (L : StampedLog σ ι κ V C) (l : List V) : List V :=
  l.mergeSort (fun a b => L.journal.number a ≤ L.journal.number b)

/-- A sorted answer says what the journal says with that stamp. -/
theorem map_sortedAnswer (hs : L.journal.Kept (L.table s)) :
    (L.sortedAnswer (L.answer s i h)).map L.content =
      (L.log s i).filter (fun c => L.stamp c = h) := by
  have hperm : (L.sortedAnswer (L.answer s i h)).Perm
      ((L.journal.records (L.table s) i).filter (fun v => L.stamp (L.content v) = h)) :=
    (List.mergeSort_perm _ _).trans ((Journal.scan_perm_records hs i).filter _)
  have hrecords := (Journal.records_sorted hs i).filter (fun v => L.stamp (L.content v) = h)
  have hsorted : (L.sortedAnswer (L.answer s i h)).Pairwise
      (fun a b => L.journal.number a ≤ L.journal.number b) := by
    have hle : (L.sortedAnswer (L.answer s i h)).Pairwise
        (fun a b => decide (L.journal.number a ≤ L.journal.number b) = true) := by
      apply List.pairwise_mergeSort
      · intro a b c hab hbc
        simp only [decide_eq_true_iff] at hab hbc ⊢
        omega
      · intro a b
        simp only [Bool.or_eq_true, decide_eq_true_iff]
        omega
    exact hle.imp (fun hab => by simpa using hab)
  have hinj : ∀ a ∈ (L.journal.records (L.table s) i).filter (fun v => L.stamp (L.content v) = h),
      ∀ b ∈ (L.journal.records (L.table s) i).filter (fun v => L.stamp (L.content v) = h),
      L.journal.number a = L.journal.number b → a = b := by
    intro a ha b hb hab
    have hgeta := (Journal.mem_records hs).mp (List.mem_of_mem_filter ha)
    have hgetb := (Journal.mem_records hs).mp (List.mem_of_mem_filter hb)
    rw [hab, hgetb] at hgeta
    exact (Option.some.inj hgeta).symm
  have heq := hperm.eq_of_pairwise (fun a b ha hb hab hba =>
    hinj a (hperm.mem_iff.mp ha) b hb (le_antisymm hab hba)) hsorted (hrecords.imp le_of_lt)
  rw [heq, log, List.filter_map]
  rfl

/-- What a journal says with a stamp that the clock has reached is final. -/
theorem filter_log_final (hs : L.Timed s) (hh : h ≤ L.clock s) (hlater : L.Later s s') :
    (L.log s' i).filter (fun c => L.stamp c = h) =
      (L.log s i).filter (fun c => L.stamp c = h) := by
  induction hlater with
  | refl => rfl
  | tail hlater hnext ih =>
    rw [← ih]
    have hclock := hh.trans (clock_le_of_later hlater)
    cases hnext with
    | write _ hadv =>
      obtain ⟨new, hnew, hstamp⟩ := log_of_advances (hs.later hlater).kept hadv i
      have hnil : new.filter (fun c => L.stamp c = h) = [] := by
        rw [List.filter_eq_nil_iff]
        intro c hc
        have := hstamp c hc
        simp only [decide_eq_true_iff]
        omega
      rw [hnew, List.filter_append, hnil, List.append_nil]
    | tick _ htable => rw [log, log, htable]

/-- Readers who ask for one stamp after the other, each at a moment at which the clock has
reached it, are told the journal up to the last of the stamps. -/
theorem collected (hs : L.Timed s) {moment : Nat → σ} {n : Nat}
    (hmoment : ∀ h ∈ List.range' 1 n,
      L.Timed (moment h) ∧ L.Later (moment h) s ∧ h ≤ L.clock (moment h)) :
    (List.range' 1 n).flatMap (fun h =>
        (L.sortedAnswer (L.answer (moment h) i h)).map L.content) =
      (L.log s i).filter (fun c => L.stamp c ≤ n) := by
  rw [← flatMap_filter_stamp (hs.ascending i) (hs.positive i)]
  apply List.flatMap_congr
  intro h hh
  obtain ⟨htimed, hlater, hclock⟩ := hmoment h hh
  rw [map_sortedAnswer htimed.kept, filter_log_final htimed hclock hlater]

end StampedLog

end OrderedTable
