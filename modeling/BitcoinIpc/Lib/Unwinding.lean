import BitcoinIpc.Lib.Commits

/-!
# Unwinding

Noninterference for trails. An observer has a view of the store and sees some
of the events. When an unseen step leaves the view as it is, and a seen one
does the same to equal views, then trails with the same seen events end in
stores with the same view, whatever else happens on either of them. For the
single steps: programs that may fail and do the same to a store and to its view,
and folds run twice.
-/

namespace Commits

variable {S E V : Type}

/-- The conditions on single steps, on stores that keep an invariant. -/
structure Unwinds (step : S → E → S → Prop) (I : S → Prop) (sees : E → Bool) (view : S → V) :
    Prop where
  kept : ∀ {s e s'}, I s → step s e s' → I s'
  hidden : ∀ {s e s'}, I s → step s e s' → sees e = false → view s' = view s
  seen : ∀ {a b e a' b'}, I a → I b → step a e a' → step b e b' → sees e = true →
    view a = view b → view a' = view b'

/-- The events of a trail that an observer sees. -/
def seenEvents (sees : E → Bool) (l : List (E × S)) : List E :=
  (l.map Prod.fst).filter sees

variable {step : S → E → S → Prop} {I : S → Prop} {sees : E → Bool} {view : S → V}

theorem seenEvents_hidden {e : E} {s : S} {l : List (E × S)} (h : sees e = false) :
    seenEvents sees ((e, s) :: l) = seenEvents sees l := by
  simp [seenEvents, h]

theorem seenEvents_seen {e : E} {s : S} {l : List (E × S)} (h : sees e = true) :
    seenEvents sees ((e, s) :: l) = e :: seenEvents sees l := by
  simp [seenEvents, h]

namespace Unwinds

variable (h : Unwinds step I sees view)
include h

/-- Without a seen event the view stays. -/
theorem view_of_nil {s : S} {l : List (E × S)} (hs : I s) (hl : Trail step s l)
    (hnil : seenEvents sees l = []) : view (lastStore s l) = view s := by
  induction l generalizing s with
  | nil => rfl
  | cons a rest ih =>
    obtain ⟨e, s'⟩ := a
    cases he : sees e with
    | true =>
      rw [seenEvents_seen he] at hnil
      cases hnil
    | false =>
      rw [seenEvents_hidden he] at hnil
      rw [lastStore_cons, ih (h.kept hs hl.1) hl.2 hnil]
      exact h.hidden hs hl.1 he

/-- The first seen event of a trail is a step from a store with the view of the start. -/
theorem exists_seen {s : S} {l : List (E × S)} {e : E} {es : List E} (hs : I s)
    (hl : Trail step s l) (hcons : seenEvents sees l = e :: es) :
    ∃ c c' rest, I c ∧ view c = view s ∧ step c e c' ∧ Trail step c' rest ∧
      seenEvents sees rest = es ∧ lastStore c' rest = lastStore s l := by
  induction l generalizing s with
  | nil => cases hcons
  | cons a rest ih =>
    obtain ⟨e', s'⟩ := a
    cases he : sees e' with
    | true =>
      rw [seenEvents_seen he, List.cons.injEq] at hcons
      obtain ⟨rfl, hes⟩ := hcons
      exact ⟨s, s', rest, hs, rfl, hl.1, hl.2, hes, (lastStore_cons ..).symm⟩
    | false =>
      rw [seenEvents_hidden he] at hcons
      obtain ⟨c, c', rest', hc, hview, hstep, hrest, hes, hlast⟩ :=
        ih (h.kept hs hl.1) hl.2 hcons
      refine ⟨c, c', rest', hc, ?_, hstep, hrest, hes, ?_⟩
      · exact hview.trans (h.hidden hs hl.1 he)
      · rw [hlast, lastStore_cons]

/-- Trails with the same seen events end in the same view. -/
theorem view_lastStore {a b : S} {l l' : List (E × S)} (ha : I a) (hb : I b)
    (hview : view a = view b) (hl : Trail step a l) (hl' : Trail step b l')
    (hseen : seenEvents sees l = seenEvents sees l') :
    view (lastStore a l) = view (lastStore b l') := by
  induction l generalizing a b l' with
  | nil =>
    rw [lastStore_nil, h.view_of_nil hb hl' hseen.symm]
    exact hview
  | cons x rest ih =>
    obtain ⟨e, a'⟩ := x
    rw [lastStore_cons]
    cases he : sees e with
    | false =>
      rw [seenEvents_hidden he] at hseen
      have hsame : view a' = view b := (h.hidden ha hl.1 he).trans hview
      exact ih (h.kept ha hl.1) hb hsame hl.2 hl' hseen
    | true =>
      rw [seenEvents_seen he] at hseen
      obtain ⟨c, c', rest', hc, hcview, hstep, hrest, hes, hlast⟩ :=
        h.exists_seen hb hl' hseen.symm
      have hsame : view a' = view c' :=
        h.seen ha hc hl.1 hstep he (hview.trans hcview.symm)
      rw [← hlast]
      exact ih (h.kept ha hl.1) (h.kept hc hstep) hsame hl.2 hrest hes.symm

end Unwinds

section Programs

open Faults

variable {ε α β γ σ : Type}

/-- A program that goes on alike after each result of its first part. -/
theorem bind_mapped {f : β → γ} {x : Outcome ε α} {p : α → Outcome ε β} {q : α → Outcome ε γ}
    (hpq : ∀ a, q a = Except.map f (p a)) : (x >>= q) = Except.map f (x >>= p) := by
  cases x with
  | error e => rfl
  | ok a => exact hpq a

/-- A program that does the same to a store and to its view does the same to equal views. -/
theorem agree_of_mapped {φ : σ → σ} (p : σ → Outcome ε α) {f : α → α}
    (hp : ∀ s, p (φ s) = Except.map f (p s)) {s t : σ} (h : φ s = φ t) {x y : α}
    (hx : p s = .ok x) (hy : p t = .ok y) : f x = f y := by
  have hmapped : Except.map f (p s) = Except.map f (p t) := by rw [← hp, ← hp, h]
  rw [hx, hy] at hmapped
  exact Except.ok.inj hmapped

/-- Two runs of a fold that may fail keep a relation that its steps keep. -/
theorem foldlM_both {R : σ → σ → Prop} {f : σ → α → Outcome ε σ} {l : List α}
    (step : ∀ a ∈ l, ∀ s t s' t', R s t → f s a = .ok s' → f t a = .ok t' → R s' t')
    {s t s' t' : σ} (h : R s t) (hs : l.foldlM f s = .ok s') (ht : l.foldlM f t = .ok t') :
    R s' t' := by
  induction l generalizing s t with
  | nil =>
    cases hs
    cases ht
    exact h
  | cons a rest ih =>
    rw [List.foldlM_cons] at hs ht
    obtain ⟨d, hd, hs⟩ := bind_eq_ok.mp hs
    obtain ⟨d', hd', ht⟩ := bind_eq_ok.mp ht
    exact ih (fun b hb => step b (List.mem_cons_of_mem a hb))
      (step a List.mem_cons_self s t d d' h hd hd') hs ht

end Programs

end Commits
