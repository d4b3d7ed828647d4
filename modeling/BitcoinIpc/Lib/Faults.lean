import Mathlib.Data.List.Forall2
import Mathlib.Tactic.Common

/-!
# Computations that fail or panic

A computation returns a value, returns an error that its caller may handle, or
panics. A panic is not an error: no handler sees it, and it stops the program.
The operations below are those whose source form can panic (an index, a slice,
an `expect`) or return early (a guard, an `ok_or`).
-/

namespace Faults

universe u v w

inductive Failure (ε : Type u) where
  | error (e : ε)
  | panic
deriving DecidableEq, Repr

abbrev Outcome (ε : Type u) (α : Type v) := Except (Failure ε) α

section Operations

variable {ε : Type u} {α : Type v}

/-- Early return with an error. -/
def raise (e : ε) : Outcome ε α := .error (.error e)

def panicked : Outcome ε α := .error .panic

/-- Guard of an early return: the error is returned unless the condition holds. -/
def ensure (p : Prop) [Decidable p] (e : ε) : Outcome ε Unit :=
  if p then .ok () else raise e

/-- An assertion: the computation panics unless the condition holds. -/
def assertThat (p : Prop) [Decidable p] : Outcome ε Unit :=
  if p then .ok () else panicked

def okOr (o : Option α) (e : ε) : Outcome ε α :=
  match o with
  | some a => .ok a
  | none => raise e

def expect (o : Option α) : Outcome ε α :=
  match o with
  | some a => .ok a
  | none => panicked

/-- `expect` on a result: its errors become panics. -/
def expectOk {ε' : Type w} (x : Outcome ε' α) : Outcome ε α :=
  match x with
  | .ok a => .ok a
  | .error _ => panicked

/-- Indexing, which panics out of range. -/
def index (l : List α) (i : Nat) : Outcome ε α := expect l[i]?

/-- The slice `l[lo..hi]`, which panics out of range. -/
def slice (l : List α) (lo hi : Nat) : Outcome ε (List α) :=
  if lo ≤ hi ∧ hi ≤ l.length then .ok ((l.drop lo).take (hi - lo)) else panicked

/-- Conversion of the error of a `?`; a panic passes through. -/
def mapErr {ε' : Type w} (f : ε → ε') (x : Outcome ε α) : Outcome ε' α :=
  match x with
  | .ok a => .ok a
  | .error (.error e) => .error (.error (f e))
  | .error .panic => .error .panic

end Operations

/-- The first element whose test returns true; the tests run in order. -/
def findFirst {ε α : Type} (test : α → Outcome ε Bool) : List α → Outcome ε (Option α)
  | [] => .ok none
  | a :: rest => do
    if ← test a then return some a else findFirst test rest

/-- Runs a computation on every element, in order, collecting the results. -/
def traverseList {ε α β : Type} (f : α → Outcome ε β) : List α → Outcome ε (List β)
  | [] => .ok []
  | a :: rest => do
    let b ← f a
    let bs ← traverseList f rest
    return b :: bs

section Specifications

variable {ε : Type u} {α β : Type v}

/-- A sequence of two computations succeeds exactly when both do. -/
theorem bind_eq_ok {x : Outcome ε α} {f : α → Outcome ε β} {b : β} :
    (x >>= f) = .ok b ↔ ∃ a, x = .ok a ∧ f a = .ok b := by
  cases x with
  | error e => simp [bind, Except.bind]
  | ok a => simp [bind, Except.bind]

@[simp] theorem pure_eq (a : α) : (pure a : Outcome ε α) = .ok a := rfl

@[simp] theorem ok_bind (a : α) (f : α → Outcome ε β) :
    ((.ok a : Outcome ε α) >>= f) = f a := rfl

@[simp] theorem error_bind (e : Failure ε) (f : α → Outcome ε β) :
    ((.error e : Outcome ε α) >>= f) = .error e := rfl

@[simp] theorem raise_bind (e : ε) (f : α → Outcome ε β) :
    ((raise e : Outcome ε α) >>= f) = raise e := rfl

@[simp] theorem panicked_bind (f : α → Outcome ε β) :
    ((panicked : Outcome ε α) >>= f) = panicked := rfl

@[simp] theorem raise_ne_ok (e : ε) (a : α) : (raise e : Outcome ε α) ≠ .ok a := by
  simp [raise]

@[simp] theorem panicked_ne_ok (a : α) : (panicked : Outcome ε α) ≠ .ok a := by
  simp [panicked]

variable {p : Prop} [Decidable p]

@[simp] theorem ensure_eq_ok {e : ε} {u : Unit} : ensure p e = .ok u ↔ p := by
  by_cases h : p <;> simp [ensure, h]

@[simp] theorem assertThat_eq_ok {u : Unit} :
    (assertThat p : Outcome ε Unit) = .ok u ↔ p := by
  by_cases h : p <;> simp [assertThat, h]

theorem ensure_pos {e : ε} (h : p) : ensure p e = .ok () := by
  simp [h]

theorem ensure_neg {e : ε} (h : ¬ p) : ensure p e = raise e := by
  simp [ensure, h]

@[simp] theorem okOr_eq_ok {o : Option α} {e : ε} {a : α} :
    okOr o e = .ok a ↔ o = some a := by
  cases o <;> simp [okOr]

@[simp] theorem expect_eq_ok {o : Option α} {a : α} :
    (expect o : Outcome ε α) = .ok a ↔ o = some a := by
  cases o <;> simp [expect]

@[simp] theorem index_eq_ok {l : List α} {i : Nat} {a : α} :
    (index l i : Outcome ε α) = .ok a ↔ l[i]? = some a := by
  simp [index]

theorem index_of_lt {l : List α} {i : Nat} (h : i < l.length) :
    (index l i : Outcome ε α) = .ok l[i] := by
  simp [h]

theorem slice_of_le {l : List α} {lo hi : Nat} (h : lo ≤ hi) (hl : hi ≤ l.length) :
    (slice l lo hi : Outcome ε (List α)) = .ok ((l.drop lo).take (hi - lo)) := by
  simp [slice, h, hl]

theorem slice_eq_ok {l r : List α} {lo hi : Nat} (h : (slice l lo hi : Outcome ε (List α)) = .ok r) :
    (l.drop lo).take (hi - lo) = r := by
  unfold slice at h
  split_ifs at h
  · exact Except.ok.inj h
  · cases h

@[simp] theorem mapErr_eq_ok {ε' : Type w} {f : ε → ε'} {x : Outcome ε α} {a : α} :
    mapErr f x = .ok a ↔ x = .ok a := by
  rcases x with (e | _) | a' <;> simp [mapErr]

@[simp] theorem expectOk_eq_ok {ε' : Type w} {x : Outcome ε' α} {a : α} :
    (expectOk x : Outcome ε α) = .ok a ↔ x = .ok a := by
  cases x <;> simp [expectOk]

@[simp] theorem mapErr_ok {ε' : Type w} (f : ε → ε') (a : α) :
    mapErr f (.ok a : Outcome ε α) = .ok a := rfl

/-- Two computations with the same image fail alike or succeed with the same image. -/
theorem map_eq_map_iff {γ : Type v} {f : α → γ} {g : β → γ} {x : Outcome ε α} {y : Outcome ε β} :
    x.map f = y.map g ↔ (∃ e, x = .error e ∧ y = .error e) ∨
      ∃ a b, x = .ok a ∧ y = .ok b ∧ f a = g b := by
  cases x <;> cases y <;> simp [Except.map, eq_comm]

theorem map_mapErr {ε' : Type w} (f : ε → ε') (g : α → β) (x : Outcome ε α) :
    (mapErr f x).map g = mapErr f (x.map g) := by
  rcases x with (e | _) | a <;> rfl

theorem toOption_eq_some {x : Outcome ε α} {a : α} : x.toOption = some a ↔ x = .ok a := by
  cases x <;> simp [Except.toOption]

theorem exists_ok_of_isSome {x : Outcome ε α} (h : x.toOption.isSome = true) :
    ∃ a, x = .ok a := by
  cases x with
  | error e => cases h
  | ok a => exact ⟨a, rfl⟩

/-- Every element of the right list is related to one of the left list. -/
theorem exists_of_forall₂ {γ δ : Type} {R : γ → δ → Prop} {l : List γ} {r : List δ}
    (h : List.Forall₂ R l r) {b : δ} (hb : b ∈ r) : ∃ a ∈ l, R a b := by
  induction h with
  | nil => cases hb
  | cons hab _ ih =>
    rcases List.mem_cons.mp hb with rfl | hb
    · exact ⟨_, List.mem_cons_self, hab⟩
    · obtain ⟨a, ha, hR⟩ := ih hb
      exact ⟨a, List.mem_cons_of_mem _ ha, hR⟩

/-- Functions that agree on related elements give the same list. -/
theorem map_of_forall₂ {α β γ : Type} {R : α → β → Prop} {f : α → γ} {g : β → γ} {l : List α}
    {r : List β} (h : List.Forall₂ R l r) (hfg : ∀ a ∈ l, ∀ b, R a b → f a = g b) :
    l.map f = r.map g := by
  induction h with
  | nil => rfl
  | cons hab _ ih =>
    rw [List.map_cons, List.map_cons, hfg _ List.mem_cons_self _ hab,
      ih (fun a ha => hfg a (List.mem_cons_of_mem _ ha))]

theorem traverse_eq_ok {ε α β : Type} {f : α → Outcome ε β} {l : List α} {r : List β} :
    traverseList f l = .ok r ↔ List.Forall₂ (fun a b => f a = .ok b) l r := by
  induction l generalizing r with
  | nil => simp [traverseList, eq_comm]
  | cons a rest ih =>
    simp only [traverseList, bind_eq_ok, pure_eq, Except.ok.injEq, List.forall₂_cons_left_iff]
    constructor
    · rintro ⟨b, hb, bs, hbs, rfl⟩
      exact ⟨b, bs, hb, ih.mp hbs, rfl⟩
    · rintro ⟨b, bs, hb, hbs, rfl⟩
      exact ⟨b, hb, bs, ih.mpr hbs, rfl⟩

theorem exists_traverseList {ε α β : Type} {f : α → Outcome ε β} {l : List α}
    (h : ∀ a ∈ l, ∃ b, f a = .ok b) : ∃ r, traverseList f l = .ok r := by
  induction l with
  | nil => exact ⟨[], rfl⟩
  | cons a rest ih =>
    obtain ⟨b, hb⟩ := h a List.mem_cons_self
    obtain ⟨bs, hbs⟩ := ih (fun c hc => h c (List.mem_cons_of_mem a hc))
    exact ⟨b :: bs, bind_eq_ok.mpr ⟨b, hb, bind_eq_ok.mpr ⟨bs, hbs, rfl⟩⟩⟩

/-- A computation that succeeds everywhere maps its results. -/
theorem traverse_of_forall {ε α β : Type} {f : α → Outcome ε β} {g : α → β} {l : List α}
    (h : ∀ a ∈ l, f a = .ok (g a)) : traverseList f l = .ok (l.map g) := by
  induction l with
  | nil => rfl
  | cons a rest ih =>
    have ha := h a List.mem_cons_self
    have hrest := ih (fun b hb => h b (List.mem_cons_of_mem a hb))
    simp [traverseList, ha, hrest]

/-- Computations that fail alike on every element fail alike on the list. -/
theorem traverse_map_unit {ε α β : Type} {f g : α → Outcome ε β} {l : List α}
    (h : ∀ a ∈ l, (f a).map (fun _ => ()) = (g a).map (fun _ => ())) :
    (traverseList f l).map (fun _ => ()) = (traverseList g l).map (fun _ => ()) := by
  induction l with
  | nil => rfl
  | cons a rest ih =>
    have hrest := ih (fun b hb => h b (List.mem_cons_of_mem a hb))
    rcases map_eq_map_iff.mp (h a List.mem_cons_self) with ⟨e, hf, hg⟩ | ⟨b, c, hf, hg, -⟩
    · simp only [traverseList, hf, hg, error_bind]
    · simp only [traverseList, hf, hg, ok_bind]
      rcases map_eq_map_iff.mp hrest with ⟨e, hf', hg'⟩ | ⟨bs, cs, hf', hg', -⟩
      · simp only [hf', hg', error_bind]
      · simp only [hf', hg', ok_bind, pure_eq, Except.map]

/-- A relation that every step of a fold keeps relates its ends. -/
theorem foldl_rel_of_mem {σ α : Type} {R : σ → σ → Prop} (refl : ∀ s, R s s)
    (trans : ∀ s t u, R s t → R t u → R s u) {f : σ → α → σ} {l : List α}
    (step : ∀ a ∈ l, ∀ s, R s (f s a)) (s : σ) : R s (l.foldl f s) := by
  induction l generalizing s with
  | nil => exact refl s
  | cons a rest ih =>
    exact trans _ _ _ (step a List.mem_cons_self s)
      (ih (fun b hb => step b (List.mem_cons_of_mem a hb)) (f s a))

theorem foldl_rel {σ α : Type} {R : σ → σ → Prop} (refl : ∀ s, R s s)
    (trans : ∀ s t u, R s t → R t u → R s u) {f : σ → α → σ} (step : ∀ s a, R s (f s a))
    (l : List α) (s : σ) : R s (l.foldl f s) :=
  foldl_rel_of_mem refl trans (fun a _ s => step s a) s

/-- The same for a fold that may fail. -/
theorem foldlM_rel_of_mem {ε σ α : Type} {R : σ → σ → Prop} (refl : ∀ s, R s s)
    (trans : ∀ s t u, R s t → R t u → R s u) {f : σ → α → Outcome ε σ} {l : List α}
    (step : ∀ a ∈ l, ∀ s s', f s a = .ok s' → R s s') {s s' : σ}
    (h : l.foldlM f s = .ok s') : R s s' := by
  induction l generalizing s with
  | nil =>
    rw [List.foldlM_nil] at h
    exact (Except.ok.inj h) ▸ refl s
  | cons a rest ih =>
    rw [List.foldlM_cons] at h
    obtain ⟨d, hd, h⟩ := bind_eq_ok.mp h
    exact trans _ _ _ (step a List.mem_cons_self s d hd)
      (ih (fun b hb => step b (List.mem_cons_of_mem a hb)) h)

theorem foldlM_rel {ε σ α : Type} {R : σ → σ → Prop} (refl : ∀ s, R s s)
    (trans : ∀ s t u, R s t → R t u → R s u) {f : σ → α → Outcome ε σ}
    (step : ∀ s a s', f s a = .ok s' → R s s') {l : List α} {s s' : σ}
    (h : l.foldlM f s = .ok s') : R s s' :=
  foldlM_rel_of_mem refl trans (fun a _ s s' => step s a s') h

/-- What is found is in the list and passes its test. -/
theorem findFirst_eq_some {ε α : Type} {test : α → Outcome ε Bool} {l : List α} {a : α}
    (h : findFirst test l = .ok (some a)) : a ∈ l ∧ test a = .ok true := by
  induction l with
  | nil => simp [findFirst] at h
  | cons b rest ih =>
    obtain ⟨found, hb, hrest⟩ := bind_eq_ok.mp h
    cases found with
    | true =>
      have hab : b = a := by simpa using hrest
      exact hab ▸ ⟨List.mem_cons_self, hb⟩
    | false =>
      obtain ⟨hmem, htest⟩ := ih (by simpa using hrest)
      exact ⟨List.mem_cons_of_mem b hmem, htest⟩

/-- Tests that never fail find what a search finds. -/
theorem findFirst_of_forall {ε α : Type} {test : α → Outcome ε Bool} {p : α → Bool} {l : List α}
    (h : ∀ a ∈ l, test a = .ok (p a)) : findFirst test l = .ok (l.find? p) := by
  induction l with
  | nil => rfl
  | cons a rest ih =>
    have hrest := ih (fun b hb => h b (List.mem_cons_of_mem a hb))
    cases hp : p a with
    | true => simp [findFirst, h a List.mem_cons_self, hp]
    | false => simp [findFirst, h a List.mem_cons_self, hp, hrest]

end Specifications

section Calm

variable {ε α β : Type}

/-- The computation returns a result or an error. -/
def Calm (x : Outcome ε α) : Prop := x ≠ panicked

theorem calm_ok (a : α) : Calm (.ok a : Outcome ε α) := by
  intro h
  cases h

theorem Calm.bind {x : Outcome ε α} {f : α → Outcome ε β} (hx : Calm x)
    (hf : ∀ a, x = .ok a → Calm (f a)) : Calm (x >>= f) := by
  match x with
  | .ok a => exact hf a rfl
  | .error (.error e) =>
    intro h
    cases h
  | .error .panic => exact absurd rfl hx

theorem calm_ensure {p : Prop} [Decidable p] (e : ε) : Calm (ensure p e) := by
  unfold ensure
  split_ifs
  · exact calm_ok _
  · intro h
    cases h

theorem calm_okOr (o : Option α) (e : ε) : Calm (okOr o e) := by
  cases o with
  | none =>
    intro h
    cases h
  | some a => exact calm_ok a

theorem Calm.mapErr {ε' : Type} {f : ε → ε'} {x : Outcome ε α} (hx : Calm x) :
    Calm (mapErr f x) := by
  match x with
  | .ok a => exact calm_ok a
  | .error (.error e) =>
    intro h
    cases h
  | .error .panic => exact absurd rfl hx

theorem calm_foldlM {f : β → α → Outcome ε β} (hf : ∀ b a, Calm (f b a)) (l : List α) (b : β) :
    Calm (l.foldlM f b) := by
  induction l generalizing b with
  | nil => exact calm_ok b
  | cons a rest ih =>
    rw [List.foldlM_cons]
    exact (hf b a).bind (fun b' _ => ih b')

end Calm

section Raises

variable {ε α β : Type} {P : ε → Prop}

/-- Every error that the computation returns meets the predicate. -/
def Raises (P : ε → Prop) (x : Outcome ε α) : Prop := ∀ e, x = .error (.error e) → P e

theorem raises_ok (a : α) : Raises P (.ok a) := by
  intro e h
  cases h

theorem Raises.bind {x : Outcome ε α} {f : α → Outcome ε β} (hx : Raises P x)
    (hf : ∀ a, Raises P (f a)) : Raises P (x >>= f) := by
  intro e h
  match x with
  | .ok a => exact hf a e h
  | .error (.error e') =>
    cases h
    exact hx e rfl
  | .error .panic => cases h

theorem raises_ensure {p : Prop} [Decidable p] {e : ε} (h : P e) : Raises P (ensure p e) := by
  intro e' he
  unfold ensure at he
  split_ifs at he
  cases he
  exact h

theorem raises_okOr (o : Option α) {e : ε} (h : P e) : Raises P (okOr o e) := by
  cases o with
  | none =>
    rintro _ ⟨⟩
    exact h
  | some a => exact raises_ok a

theorem raises_mapErr {ε' : Type} {P : ε' → Prop} {f : ε → ε'} {x : Outcome ε α}
    (h : ∀ e, x = .error (.error e) → P (f e)) : Raises P (mapErr f x) := by
  match x with
  | .ok a => exact raises_ok a
  | .error (.error e) =>
    rintro _ ⟨⟩
    exact h e rfl
  | .error .panic =>
    intro _ hp
    cases hp

theorem raises_traverseList {f : α → Outcome ε β} {l : List α} (h : ∀ a, Raises P (f a)) :
    Raises P (traverseList f l) := by
  induction l with
  | nil => exact raises_ok _
  | cons a rest ih => exact (h a).bind (fun _ => ih.bind (fun _ => raises_ok _))

theorem raises_foldlM {f : β → α → Outcome ε β} (hf : ∀ b a, Raises P (f b a)) (l : List α)
    (b : β) : Raises P (l.foldlM f b) := by
  induction l generalizing b with
  | nil => exact raises_ok b
  | cons a rest ih =>
    rw [List.foldlM_cons]
    exact (hf b a).bind ih

end Raises

section Endures

variable {ε α β : Type} {P : ε → Prop}

/-- The computation returns a result, or an error that meets the predicate. -/
def Endures (P : ε → Prop) : Outcome ε α → Prop
  | .ok _ => True
  | .error (.error e) => P e
  | .error .panic => False

@[simp] theorem endures_ok (a : α) : Endures P (.ok a : Outcome ε α) := trivial

@[simp] theorem endures_raise {e : ε} : Endures P (raise e : Outcome ε α) ↔ P e := Iff.rfl

@[simp] theorem endures_panicked : ¬ Endures P (panicked : Outcome ε α) := id

theorem endures_bind {x : Outcome ε α} {f : α → Outcome ε β} :
    Endures P (x >>= f) ↔ Endures P x ∧ ∀ a, x = .ok a → Endures P (f a) := by
  match x with
  | .ok a =>
    rw [ok_bind]
    exact ⟨fun h => ⟨trivial, fun b hb => (Except.ok.inj hb) ▸ h⟩, fun h => h.2 a rfl⟩
  | .error (.error e) =>
    rw [error_bind]
    exact ⟨fun h => ⟨h, fun b hb => by cases hb⟩, fun h => h.1⟩
  | .error .panic =>
    rw [error_bind]
    exact ⟨fun h => ⟨h, fun b hb => by cases hb⟩, fun h => h.1⟩

theorem Endures.bind {x : Outcome ε α} {f : α → Outcome ε β} (hx : Endures P x)
    (hf : ∀ a, x = .ok a → Endures P (f a)) : Endures P (x >>= f) :=
  endures_bind.mpr ⟨hx, hf⟩

theorem endures_ensure {p : Prop} [Decidable p] {e : ε} : Endures P (ensure p e) ↔ (¬ p → P e) := by
  unfold ensure
  split_ifs with hp
  · exact ⟨fun _ h => absurd hp h, fun _ => trivial⟩
  · exact ⟨fun h _ => h, fun h => h hp⟩

theorem endures_okOr {o : Option α} {e : ε} (h : P e) : Endures P (okOr o e) := by
  cases o with
  | none => exact h
  | some a => trivial

theorem endures_mapErr {ε' : Type} {P : ε' → Prop} {f : ε → ε'} {x : Outcome ε α} :
    Endures P (mapErr f x) ↔ Endures (fun e => P (f e)) x := by
  match x with
  | .ok a => exact Iff.rfl
  | .error (.error e) => exact Iff.rfl
  | .error .panic => exact Iff.rfl

theorem endures_map {f : α → β} {x : Outcome ε α} : Endures P (f <$> x) ↔ Endures P x := by
  match x with
  | .ok a => exact Iff.rfl
  | .error (.error e) => exact Iff.rfl
  | .error .panic => exact Iff.rfl

theorem Endures.imp {Q : ε → Prop} {x : Outcome ε α} (h : Endures P x) (hPQ : ∀ e, P e → Q e) :
    Endures Q x := by
  match x, h with
  | .ok a, _ => trivial
  | .error (.error e), h => exact hPQ e h

/-- Where no error is endured, there is a result. -/
theorem endures_iff_ok (hP : ∀ e, ¬ P e) {x : Outcome ε α} : Endures P x ↔ ∃ a, x = .ok a := by
  match x with
  | .ok a => exact ⟨fun _ => ⟨a, rfl⟩, fun _ => trivial⟩
  | .error (.error e) => exact ⟨fun h => absurd h (hP e), fun ⟨a, h⟩ => by cases h⟩
  | .error .panic => exact ⟨fun h => h.elim, fun ⟨a, h⟩ => by cases h⟩

/-- Where every error is endured, all but a panic is. -/
theorem endures_iff_calm (hP : ∀ e, P e) {x : Outcome ε α} : Endures P x ↔ Calm x := by
  match x with
  | .ok a => exact ⟨fun _ => calm_ok a, fun _ => trivial⟩
  | .error (.error e) => exact ⟨fun _ h => (nomatch h), fun _ => hP e⟩
  | .error .panic => exact ⟨fun h => h.elim, fun h => h rfl⟩

/-- A computation whose errors are none of those endures only with a result. -/
theorem Raises.endures_iff_ok {x : Outcome ε α} (h : Raises (fun e => ¬ P e) x) :
    Endures P x ↔ ∃ a, x = .ok a := by
  match x with
  | .ok a => exact ⟨fun _ => ⟨a, rfl⟩, fun _ => trivial⟩
  | .error (.error e) => exact ⟨fun hp => absurd hp (h e rfl), fun ⟨a, ha⟩ => by cases ha⟩
  | .error .panic => exact ⟨fun hp => hp.elim, fun ⟨a, ha⟩ => by cases ha⟩

theorem endures_traverseList {f : α → Outcome ε β} {l : List α} (h : ∀ a ∈ l, Endures P (f a)) :
    Endures P (traverseList f l) := by
  induction l with
  | nil => trivial
  | cons a rest ih =>
    refine (h a List.mem_cons_self).bind (fun b _ => ?_)
    exact (ih (fun c hc => h c (List.mem_cons_of_mem a hc))).bind (fun _ _ => trivial)

/-- A traversal by computations whose errors are none of those. -/
theorem endures_traverseList_iff {f : α → Outcome ε β} {l : List α}
    (h : ∀ a, Raises (fun e => ¬ P e) (f a)) :
    Endures P (traverseList f l) ↔ ∀ a ∈ l, Endures P (f a) := by
  refine ⟨?_, endures_traverseList⟩
  intro hends
  induction l with
  | nil =>
    intro a ha
    cases ha
  | cons b rest ih =>
    obtain ⟨hb, hrest⟩ := endures_bind.mp hends
    obtain ⟨c, hc⟩ := (h b).endures_iff_ok.mp hb
    have hrest := ih (endures_bind.mp (hrest c hc)).1
    intro a ha
    rcases List.mem_cons.mp ha with rfl | ha
    · exact hb
    · exact hrest a ha

theorem endures_findFirst {test : α → Outcome ε Bool} {l : List α}
    (h : ∀ a ∈ l, Endures P (test a)) : Endures P (findFirst test l) := by
  induction l with
  | nil => trivial
  | cons a rest ih =>
    refine (h a List.mem_cons_self).bind (fun b _ => ?_)
    cases b with
    | true => trivial
    | false => exact ih (fun c hc => h c (List.mem_cons_of_mem a hc))

theorem endures_foldlM {f : β → α → Outcome ε β} (hf : ∀ b a, Endures P (f b a)) (l : List α)
    (b : β) : Endures P (l.foldlM f b) := by
  induction l generalizing b with
  | nil => trivial
  | cons a rest ih =>
    rw [List.foldlM_cons]
    exact (hf b a).bind (fun b' _ => ih b')

end Endures

/-- Two related results, or two failures of one kind. -/
inductive Agree {ε α β : Type} (R : α → β → Prop) : Outcome ε α → Outcome ε β → Prop
  | ok {a b} : R a b → Agree R (.ok a) (.ok b)
  | error {e e'} : Agree R (.error (.error e)) (.error (.error e'))
  | panic : Agree R (.error .panic) (.error .panic)

section Agree

variable {ε α β γ δ : Type} {R : α → β → Prop} {S : γ → δ → Prop}

theorem agree_refl (x : Outcome ε α) : Agree Eq x x :=
  match x with
  | .ok _ => .ok rfl
  | .error (.error _) => .error
  | .error .panic => .panic

theorem Agree.bind_of_ok {x : Outcome ε α} {y : Outcome ε β} {f : α → Outcome ε γ}
    {g : β → Outcome ε δ} (h : Agree R x y)
    (hf : ∀ a b, x = .ok a → R a b → Agree S (f a) (g b)) : Agree S (x >>= f) (y >>= g) := by
  cases h with
  | ok hab => exact hf _ _ rfl hab
  | error => exact .error
  | panic => exact .panic

theorem Agree.bind {x : Outcome ε α} {y : Outcome ε β} {f : α → Outcome ε γ}
    {g : β → Outcome ε δ} (h : Agree R x y) (hf : ∀ a b, R a b → Agree S (f a) (g b)) :
    Agree S (x >>= f) (y >>= g) :=
  h.bind_of_ok (fun a b _ => hf a b)

theorem Agree.mapErr {ε' : Type} {f : ε → ε'} {x : Outcome ε α} {y : Outcome ε β}
    (h : Agree R x y) : Agree R (mapErr f x) (mapErr f y) := by
  cases h with
  | ok hab => exact .ok hab
  | error => exact .error
  | panic => exact .panic

theorem agree_ensure {p q : Prop} [Decidable p] [Decidable q] (h : p ↔ q) (e e' : ε) :
    Agree Eq (ensure p e) (ensure q e') := by
  by_cases hp : p
  · rw [ensure_pos hp, ensure_pos (h.mp hp)]
    exact .ok rfl
  · rw [ensure_neg hp, ensure_neg (fun hq => hp (h.mpr hq))]
    exact .error

/-- Computations without results that never panic agree when they succeed together. -/
theorem agree_of_ok_iff {x y : Outcome ε Unit} (hx : Calm x) (hy : Calm y)
    (h : x = .ok () ↔ y = .ok ()) : Agree Eq x y := by
  match x, y with
  | .ok (), .ok () => exact .ok rfl
  | .error (.error _), .error (.error _) => exact .error
  | .error .panic, _ => exact absurd rfl hx
  | _, .error .panic => exact absurd rfl hy
  | .ok (), .error (.error _) => cases h.mp rfl
  | .error (.error _), .ok () => cases h.mpr rfl

end Agree

end Faults
