import Mathlib.Data.List.Nodup
import Mathlib.Data.List.Basic
import Mathlib.Algebra.BigOperators.Finprod

/-!
# Accounts changed by a log of requests

An account book is a list of keys with their amounts. Requests open an account,
add to it or take from it; an account whose rest is dead is closed. The lemmas
relate the book to a list of records that is updated in place, at the first
record with a key. The last part is about the total of the balances of all
holders, of which only finitely many hold anything.
-/

namespace Accounts

section Records

variable {κ V : Type} [DecidableEq κ] (key : V → κ) {k : κ} {i : Nat}

/-- Replacing the first record with a key replaces all of them. -/
theorem set_findIdx? {l : List V} {v : V} (nd : (l.map key).Nodup)
    (h : l.findIdx? (fun w => key w = k) = some i) :
    l.set i v = l.map (fun w => if key w = k then v else w) := by
  induction l generalizing i with
  | nil => simp at h
  | cons a rest ih =>
    obtain ⟨ha, hrest⟩ := List.nodup_cons.mp nd
    rw [List.findIdx?_cons] at h
    by_cases hk : key a = k
    · have hi : i = 0 := by simpa [hk] using h.symm
      have hid : rest.map (fun w => if key w = k then v else w) = rest := by
        conv_rhs => rw [← List.map_id rest]
        apply List.map_congr_left
        intro w hw
        have hne : key w ≠ k := by
          intro hw'
          exact ha (by rw [hk, ← hw']; exact List.mem_map_of_mem hw)
        simp [hne]
      simp [hi, hk, hid]
    · simp only [hk, decide_false, Bool.false_eq_true, if_false, Option.map_eq_some_iff] at h
      obtain ⟨j, hj, rfl⟩ := h
      simp [hk, ih hrest hj]

/-- Erasing the first record with a key erases all of them. -/
theorem eraseIdx_findIdx? {l : List V} (nd : (l.map key).Nodup)
    (h : l.findIdx? (fun w => key w = k) = some i) :
    l.eraseIdx i = l.filter (fun w => key w ≠ k) := by
  induction l generalizing i with
  | nil => simp at h
  | cons a rest ih =>
    obtain ⟨ha, hrest⟩ := List.nodup_cons.mp nd
    rw [List.findIdx?_cons] at h
    by_cases hk : key a = k
    · have hi : i = 0 := by simpa [hk] using h.symm
      have hid : rest.filter (fun w => key w ≠ k) = rest := by
        apply List.filter_eq_self.mpr
        intro w hw
        have hne : key w ≠ k := by
          intro hw'
          exact ha (by rw [hk, ← hw']; exact List.mem_map_of_mem hw)
        simp [hne]
      rw [hi, List.eraseIdx_cons_zero, List.filter_cons_of_neg (by simp [hk]), hid]
    · simp only [hk, decide_false, Bool.false_eq_true, if_false, Option.map_eq_some_iff] at h
      obtain ⟨j, hj, rfl⟩ := h
      rw [List.eraseIdx_cons_succ, List.filter_cons_of_pos (by simp [hk]), ih hrest hj]

/-- With distinct keys, the record found for a key is the only one with it. -/
theorem eq_of_find?_of_mem {l : List V} {v w : V} (nd : (l.map key).Nodup)
    (h : l.find? (fun w => key w = k) = some v) (hw : w ∈ l) (hk : key w = k) : w = v := by
  have hv : v ∈ l := List.mem_of_find?_eq_some h
  have hvk : key v = k := by simpa using List.find?_some h
  exact List.inj_on_of_nodup_map nd hw hv (hk.trans hvk.symm)

omit [DecidableEq κ] in
theorem nodup_map_of_keys {l : List V} {f : V → V} (hf : ∀ w ∈ l, key (f w) = key w)
    (nd : (l.map key).Nodup) : ((l.map f).map key).Nodup := by
  have hkeys : l.map (key ∘ f) = l.map key := List.map_congr_left hf
  rw [List.map_map, hkeys]
  exact nd

end Records

inductive Change where
  | join
  | deposit (amount : Nat)
  | withdraw (amount : Nat)
deriving DecidableEq

section Book

variable {κ : Type} [DecidableEq κ]

/-- One request of a key. An account is closed when its rest is dead. -/
def change (dead : Nat → Bool) (book : List (κ × Nat)) (request : κ × Change) :
    List (κ × Nat) :=
  match request.2 with
  | .join => book ++ [(request.1, 0)]
  | .deposit a => book.map (fun e => if e.1 = request.1 then (e.1, a + e.2) else e)
  | .withdraw a => (book.filter (fun e => ¬ (e.1 = request.1 ∧ dead (e.2 - a)))).map
      (fun e => if e.1 = request.1 then (e.1, e.2 - a) else e)

/-- The book after a log of requests. -/
def after (dead : Nat → Bool) (book : List (κ × Nat)) (log : List (κ × Change)) :
    List (κ × Nat) :=
  log.foldl (change dead) book

theorem after_append (dead : Nat → Bool) (book : List (κ × Nat)) (log log' : List (κ × Change)) :
    after dead book (log ++ log') = after dead (after dead book log) log' :=
  List.foldl_append

/-- The amount that a key has in a book. -/
def amountIn (book : List (κ × Nat)) (k : κ) : Nat :=
  ((book.find? (fun e => e.1 = k)).map Prod.snd).getD 0

def depositedBy (k : κ) (request : κ × Change) : Nat :=
  match request.2 with
  | .deposit a => if request.1 = k then a else 0
  | _ => 0

def withdrawnBy (k : κ) (request : κ × Change) : Nat :=
  match request.2 with
  | .withdraw a => if request.1 = k then a else 0
  | _ => 0

/-- All that the requests of a key pay in. -/
def deposited (log : List (κ × Change)) (k : κ) : Nat := (log.map (depositedBy k)).sum

def withdrawn (log : List (κ × Change)) (k : κ) : Nat := (log.map (withdrawnBy k)).sum

theorem deposited_append (log log' : List (κ × Change)) (k : κ) :
    deposited (log ++ log') k = deposited log k + deposited log' k := by
  rw [deposited, List.map_append, List.sum_append]
  rfl

theorem withdrawn_append (log log' : List (κ × Change)) (k : κ) :
    withdrawn (log ++ log') k = withdrawn log k + withdrawn log' k := by
  rw [withdrawn, List.map_append, List.sum_append]
  rfl

theorem deposited_of_not_mem {log : List (κ × Change)} {k : κ} (h : k ∉ log.map Prod.fst) :
    deposited log k = 0 := by
  rw [deposited, List.sum_eq_zero_iff, List.forall_mem_map]
  intro r hr
  have hne : r.1 ≠ k := fun hk => h (List.mem_map.mpr ⟨r, hr, hk⟩)
  unfold depositedBy
  split
  · exact if_neg hne
  · rfl

theorem withdrawn_of_not_mem {log : List (κ × Change)} {k : κ} (h : k ∉ log.map Prod.fst) :
    withdrawn log k = 0 := by
  rw [withdrawn, List.sum_eq_zero_iff, List.forall_mem_map]
  intro r hr
  have hne : r.1 ≠ k := fun hk => h (List.mem_map.mpr ⟨r, hr, hk⟩)
  unfold withdrawnBy
  split
  · exact if_neg hne
  · rfl

variable {book : List (κ × Nat)} {k p : κ}

theorem amountIn_cons (e : κ × Nat) :
    amountIn (e :: book) k = if e.1 = k then e.2 else amountIn book k := by
  rw [amountIn, List.find?_cons]
  by_cases h : e.1 = k <;> simp [h, amountIn]

theorem amountIn_of_not_mem (h : k ∉ book.map Prod.fst) : amountIn book k = 0 := by
  have hnone : book.find? (fun e => e.1 = k) = none := by
    rw [List.find?_eq_none]
    intro e he hk
    exact h (List.mem_map.mpr ⟨e, he, by simpa using hk⟩)
  rw [amountIn, hnone]
  rfl

theorem amountIn_of_mem (nd : (book.map Prod.fst).Nodup) {c : Nat} (h : (k, c) ∈ book) :
    amountIn book k = c := by
  induction book with
  | nil => cases h
  | cons e rest ih =>
    obtain ⟨he, hrest⟩ := List.nodup_cons.mp nd
    rw [amountIn_cons]
    rcases List.mem_cons.mp h with rfl | h
    · exact if_pos rfl
    · have hne : e.1 ≠ k := fun hk => he (hk ▸ List.mem_map_of_mem (f := Prod.fst) h)
      rw [if_neg hne]
      exact ih hrest h

/-- An account is opened with nothing in it. -/
theorem amountIn_join (dead : Nat → Bool) :
    amountIn (change dead book (p, .join)) k = amountIn book k := by
  induction book with
  | nil =>
    change amountIn [(p, 0)] k = 0
    rw [amountIn_cons]
    exact ite_self 0
  | cons e rest ih =>
    change amountIn (e :: change dead rest (p, .join)) k = _
    rw [amountIn_cons, amountIn_cons, ih]

theorem change_deposit_cons (dead : Nat → Bool) (e : κ × Nat) (a : Nat) :
    change dead (e :: book) (p, .deposit a) =
      (if e.1 = p then (e.1, a + e.2) else e) :: change dead book (p, .deposit a) := rfl

theorem change_withdraw_cons (dead : Nat → Bool) (e : κ × Nat) (a : Nat) :
    change dead (e :: book) (p, .withdraw a) =
      if e.1 = p ∧ dead (e.2 - a) then change dead book (p, .withdraw a)
      else (if e.1 = p then (e.1, e.2 - a) else e) :: change dead book (p, .withdraw a) := by
  simp only [change, List.filter_cons]
  by_cases h : e.1 = p ∧ dead (e.2 - a)
  · simp [h]
  · simp [h]

/-- A request changes no account of another key. -/
theorem amountIn_change_of_ne (dead : Nat → Bool) {request : κ × Change} (h : request.1 ≠ k) :
    amountIn (change dead book request) k = amountIn book k := by
  obtain ⟨p, request⟩ := request
  have hkept : ∀ (e : κ × Nat) (b : Nat), (if e.1 = p then (e.1, b) else e).1 = e.1 := by
    intro e b
    split_ifs <;> rfl
  have hne : ∀ e : κ × Nat, e.1 = k → e.1 ≠ p := fun e hk hp => h (hp.symm.trans hk)
  cases request with
  | join => exact amountIn_join dead
  | deposit a =>
    induction book with
    | nil => rfl
    | cons e rest ih =>
      rw [change_deposit_cons, amountIn_cons, amountIn_cons, hkept, ih]
      split_ifs with hk hp
      · exact absurd hp (hne e hk)
      · rfl
      · rfl
  | withdraw a =>
    induction book with
    | nil => rfl
    | cons e rest ih =>
      rw [change_withdraw_cons, amountIn_cons]
      by_cases hk : e.1 = k
      · rw [if_pos hk, if_neg (fun hand => hne e hk hand.1), amountIn_cons, hkept, if_pos hk,
          if_neg (hne e hk)]
      · rw [if_neg hk, ← ih]
        split_ifs with hclosed
        · rfl
        · rw [amountIn_cons, if_neg (by exact hk)]
        · rw [amountIn_cons, if_neg hk]

theorem amountIn_deposit (dead : Nat → Bool) {a : Nat} (hp : p ∈ book.map Prod.fst) :
    amountIn (change dead book (p, .deposit a)) p = amountIn book p + a := by
  induction book with
  | nil => cases hp
  | cons e rest ih =>
    rw [change_deposit_cons, amountIn_cons, amountIn_cons]
    by_cases hep : e.1 = p
    · simp [hep, Nat.add_comm]
    · rw [List.map_cons, List.mem_cons] at hp
      simp only [hep, if_false]
      exact ih (hp.resolve_left (fun h => hep h.symm))

theorem keys_withdraw (dead : Nat → Bool) {a : Nat} (h : k ∉ book.map Prod.fst) :
    k ∉ (change dead book (p, .withdraw a)).map Prod.fst := by
  intro hmem
  obtain ⟨e', he', rfl⟩ := List.mem_map.mp hmem
  obtain ⟨e, he, rfl⟩ := List.mem_map.mp he'
  refine h (List.mem_map.mpr ⟨e, List.mem_of_mem_filter he, ?_⟩)
  split_ifs <;> rfl

/-- What a withdrawal leaves: the rest, or nothing when the rest is dead. -/
theorem amountIn_withdraw (dead : Nat → Bool) {a : Nat} (nd : (book.map Prod.fst).Nodup)
    (hp : p ∈ book.map Prod.fst) :
    amountIn (change dead book (p, .withdraw a)) p =
      if dead (amountIn book p - a) then 0 else amountIn book p - a := by
  induction book with
  | nil => cases hp
  | cons e rest ih =>
    obtain ⟨he, hrest⟩ := List.nodup_cons.mp nd
    rw [change_withdraw_cons, amountIn_cons]
    by_cases hep : e.1 = p
    · have hgone : p ∉ (change dead rest (p, .withdraw a)).map Prod.fst :=
        keys_withdraw dead (hep ▸ he)
      by_cases hd : dead (e.2 - a) = true
      · simp [hep, hd, amountIn_of_not_mem hgone]
      · simp [hep, hd, amountIn_cons]
    · rw [List.map_cons, List.mem_cons] at hp
      simp only [hep, false_and, if_false, amountIn_cons]
      exact ih hrest (hp.resolve_left (fun h => hep h.symm))

end Book

section Totals

variable {ι : Type} {f g : ι → Nat} {i : ι}

/-- A change of one balance changes the total by as much. -/
theorem finsum_change (hf : f.HasFiniteSupport) (h : ∀ j, j ≠ i → g j = f j) :
    ∑ᶠ j, g j + f i = ∑ᶠ j, f j + g i := by
  classical
  have hsingle : ∀ n : Nat, (Pi.single i n : ι → Nat).HasFiniteSupport := fun n =>
    (Set.finite_singleton i).subset Pi.support_single_subset
  have hg : g.HasFiniteSupport := by
    refine ((Set.finite_singleton i).union hf).subset ?_
    intro j hj
    by_cases hji : j = i
    · exact Or.inl hji
    · exact Or.inr (by rwa [Function.mem_support, ← h j hji])
  have hsum : ∀ n : Nat, ∑ᶠ j, (Pi.single i n : ι → Nat) j = n := by
    intro n
    rw [finsum_eq_single _ i (fun j hj => by rw [Pi.single_eq_of_ne hj]), Pi.single_eq_same]
  calc ∑ᶠ j, g j + f i
      = ∑ᶠ j, (g j + (Pi.single i (f i) : ι → Nat) j) := by
        rw [finsum_add_distrib hg (hsingle _), hsum]
    _ = ∑ᶠ j, (f j + (Pi.single i (g i) : ι → Nat) j) := by
        apply finsum_congr
        intro j
        by_cases hji : j = i
        · subst hji
          rw [Pi.single_eq_same, Pi.single_eq_same, Nat.add_comm]
        · rw [Pi.single_eq_of_ne hji, Pi.single_eq_of_ne hji, h j hji]
    _ = ∑ᶠ j, f j + g i := by
        rw [finsum_add_distrib hf (hsingle _), hsum]

/-- A pass that adds a weight for every element, as long as the total stays in a
bound. -/
theorem foldl_adds {σ α : Type} {held : σ → Nat} {weight : α → Nat} {bound : Nat}
    {step : σ → α → σ}
    (hstep : ∀ s a, held s + weight a < bound → held (step s a) = held s + weight a)
    {l : List α} {s : σ} (h : held s + (l.map weight).sum < bound) :
    held (l.foldl step s) = held s + (l.map weight).sum := by
  induction l generalizing s with
  | nil => rfl
  | cons a rest ih =>
    rw [List.map_cons, List.sum_cons] at h ⊢
    have ha := hstep s a (by omega)
    have hrest := ih (s := step s a) (by omega)
    rw [List.foldl_cons]
    omega

end Totals

end Accounts
