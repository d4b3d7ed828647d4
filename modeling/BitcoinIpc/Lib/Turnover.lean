import BitcoinIpc.Lib.PartialMaps
import Mathlib.Algebra.BigOperators.Group.List.Lemmas
import Mathlib.Tactic.Abel

/-!
# What comes and what goes

A partial function turns over when some of its keys are taken out and values are
put in at keys that are new. The values that are held turn over with it: what is
held afterwards, and what has gone, is what was held before, and what has come.
-/

namespace PartialMaps

universe u v

variable {κ : Type u} {α : Type v} [DecidableEq κ] {f f' : κ → Option α} {gone : List κ}
  {come : List (κ × α)} {l l' : List (κ × α)}

/-- The second function is the first one, without the keys that have gone and with the values that
have come, at keys where the first one was undefined. -/
structure Turnover (f f' : κ → Option α) (gone : List κ) (come : List (κ × α)) : Prop where
  nodup : (come.map Prod.fst).Nodup
  fresh : ∀ e ∈ come, f e.1 = none
  eq_some_iff : ∀ k a, f' k = some a ↔ (k, a) ∈ come ∨ f k = some a ∧ k ∉ gone

omit [DecidableEq κ] in
/-- What is asked of the values is asked of those that have come, too. -/
theorem Turnover.filter (h : Turnover f f' gone come) (p : α → Bool) :
    Turnover (fun k => (f k).filter p) (fun k => (f' k).filter p) gone
      (come.filter (fun e => p e.2)) where
  nodup := (come.filter_sublist.map Prod.fst).nodup h.nodup
  fresh e he := by rw [h.fresh e (List.mem_filter.mp he).1, Option.filter_none]
  eq_some_iff k a := by
    rw [Option.filter_eq_some_iff, h.eq_some_iff, List.mem_filter, Option.filter_eq_some_iff]
    constructor
    · rintro ⟨hcome | ⟨hf, hk⟩, hp⟩
      · exact Or.inl ⟨hcome, hp⟩
      · exact Or.inr ⟨⟨hf, hp⟩, hk⟩
    · rintro (⟨hcome, hp⟩ | ⟨⟨hf, hp⟩, hk⟩)
      · exact ⟨Or.inl hcome, hp⟩
      · exact ⟨Or.inr ⟨hf, hk⟩, hp⟩

omit [DecidableEq κ] in
/-- A function is held in one way, up to the order. -/
theorem Represents.perm (hl : Represents l f) (hl' : Represents l' f) : l.Perm l' := by
  classical
  refine (List.perm_ext_iff_of_nodup (List.Nodup.of_map _ hl.nodup)
    (List.Nodup.of_map _ hl'.nodup)).mpr ?_
  rintro ⟨k, a⟩
  rw [hl.mem_iff, hl'.mem_iff]

end PartialMaps
