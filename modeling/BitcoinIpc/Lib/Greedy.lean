import Mathlib.Data.List.Sort
import Mathlib.Algebra.Order.BigOperators.Group.List
import Mathlib.Algebra.Order.Group.Nat
import Mathlib.Algebra.GroupWithZero.Nat

/-!
# Largest first

In a list sorted by weight, largest first, each prefix is a heaviest part of its
length.
-/

namespace Greedy

variable {α : Type} {w : α → Nat}

def weigh (w : α → Nat) (l : List α) : Nat := (l.map w).sum

@[simp] theorem weigh_nil : weigh w [] = 0 := rfl

@[simp] theorem weigh_cons (a : α) (l : List α) : weigh w (a :: l) = w a + weigh w l := by
  simp [weigh]

@[simp] theorem weigh_append (l l' : List α) : weigh w (l ++ l') = weigh w l + weigh w l' := by
  simp [weigh]

theorem weigh_perm {l l' : List α} (h : l.Perm l') : weigh w l = weigh w l' :=
  (h.map w).sum_nat

theorem weigh_subperm {t l : List α} (h : t.Subperm l) : weigh w t ≤ weigh w l := by
  obtain ⟨t', hperm, hsub⟩ := h
  rw [← weigh_perm hperm]
  exact (hsub.map w).sum_le_sum (fun _ _ => Nat.zero_le _)

/-- No element weighs more than one before it. -/
def Descending (w : α → Nat) (l : List α) : Prop := l.Pairwise (fun a b => w b ≤ w a)

/-- The heaviest element outweighs the last one of a prefix. -/
theorem weigh_take_succ_le {a : α} {l : List α} (h : Descending w (a :: l)) (n : Nat) :
    weigh w (l.take (n + 1)) ≤ w a + weigh w (l.take n) := by
  rw [List.take_add_one, weigh_append]
  cases hn : l[n]? with
  | none => simp
  | some b =>
    have hle : w b ≤ w a := List.rel_of_pairwise_cons h (List.mem_of_getElem? hn)
    simp only [Option.toList_some, weigh_cons, weigh_nil]
    omega

theorem weigh_sublist_le_take {t l : List α} (h : Descending w l) (hsub : t.Sublist l) :
    weigh w t ≤ weigh w (l.take t.length) := by
  induction hsub with
  | slnil => exact le_refl _
  | @cons t l a hsub ih =>
    have htail : Descending w l := (List.pairwise_cons.mp h).2
    cases t with
    | nil => exact Nat.zero_le _
    | cons b t =>
      calc weigh w (b :: t) ≤ weigh w (l.take (t.length + 1)) := ih htail
        _ ≤ w a + weigh w (l.take t.length) := weigh_take_succ_le h t.length
        _ = weigh w ((a :: l).take (t.length + 1)) := by simp
  | @cons_cons t l a hsub ih =>
    have htail : Descending w l := (List.pairwise_cons.mp h).2
    simp only [List.length_cons, List.take_succ_cons, weigh_cons]
    exact Nat.add_le_add_left (ih htail) _

/-- A part of the list weighs at most as much as the prefix of its length. -/
theorem weigh_subperm_le_take {t l : List α} (h : Descending w l) (hsub : t.Subperm l) :
    weigh w t ≤ weigh w (l.take t.length) := by
  obtain ⟨t', hperm, hsub⟩ := hsub
  rw [← weigh_perm hperm, ← hperm.length_eq]
  exact weigh_sublist_le_take h hsub

end Greedy
