import BitcoinIpc.Lib.Faults
import Mathlib.Data.List.Basic
import Mathlib.Data.List.Induction

/-!
# Programs over a store with committed writes

A program reads a store and commits new versions of it, one after another. Its
run is the list of the committed versions with an outcome: what was committed
before an error or a panic stays committed. A trail is such a list together
with the event that led to each version, under a labelled step relation. The
rules say which invariants hold along every trail.
-/

namespace Commits

open Faults

/-- The versions a program committed and how it ended. -/
structure Trace (S ε α : Type) where
  commits : List S
  outcome : Outcome ε α

/-- The store after the commits of a run that started in `s`. -/
def Trace.store {S ε α : Type} (t : Trace S ε α) (s : S) : S := t.commits.getLastD s

def Proc (S ε α : Type) := S → Trace S ε α

namespace Proc

variable {S ε ε' α β : Type}

def ret (a : α) : Proc S ε α := fun _ => ⟨[], .ok a⟩

/-- The second program runs on the store the first one left. -/
def andThen (p : Proc S ε α) (f : α → Proc S ε β) : Proc S ε β := fun s =>
  match (p s).outcome with
  | .ok a =>
    let t := f a ((p s).store s)
    ⟨(p s).commits ++ t.commits, t.outcome⟩
  | .error e => ⟨(p s).commits, .error e⟩

instance : Monad (Proc S ε) where
  pure := ret
  bind := andThen

/-- The committed store. -/
def read : Proc S ε S := fun s => ⟨[], .ok s⟩

def commit (s : S) : Proc S ε Unit := fun _ => ⟨[s], .ok ()⟩

/-- A computation that commits nothing. -/
def lift (x : Outcome ε α) : Proc S ε α := fun _ => ⟨[], x⟩

/-- Runs the handler on the error of a program; a panic has no handler. -/
def handle (p : Proc S ε Unit) (handler : ε → Outcome ε' Unit) : Proc S ε' Unit := fun s =>
  match (p s).outcome with
  | .ok () => ⟨(p s).commits, .ok ()⟩
  | .error (.error e) => ⟨(p s).commits, handler e⟩
  | .error .panic => ⟨(p s).commits, panicked⟩

/-- Runs the program on each element of a list, in order. -/
def each (f : α → Proc S ε Unit) : List α → Proc S ε Unit
  | [] => ret ()
  | a :: rest => andThen (f a) (fun _ => each f rest)

@[simp] theorem ret_apply (a : α) (s : S) : (ret a : Proc S ε α) s = ⟨[], .ok a⟩ := rfl

@[simp] theorem pure_apply (a : α) (s : S) : (pure a : Proc S ε α) s = ⟨[], .ok a⟩ := rfl

@[simp] theorem read_apply (s : S) : (read : Proc S ε S) s = ⟨[], .ok s⟩ := rfl

@[simp] theorem commit_apply (s s' : S) : (commit s' : Proc S ε Unit) s = ⟨[s'], .ok ()⟩ := rfl

@[simp] theorem lift_apply (x : Outcome ε α) (s : S) : lift x s = ⟨[], x⟩ := rfl

theorem bind_ok {p : Proc S ε α} {f : α → Proc S ε β} {s : S} {a : α}
    (h : (p s).outcome = .ok a) :
    (p >>= f) s = ⟨(p s).commits ++ (f a ((p s).store s)).commits,
      (f a ((p s).store s)).outcome⟩ := by
  change andThen p f s = _
  simp only [andThen, h]

theorem store_bind {p : Proc S ε α} {f : α → Proc S ε β} {s : S} {a : α}
    (h : (p s).outcome = .ok a) :
    ((p >>= f) s).store s = (f a ((p s).store s)).store ((p s).store s) := by
  rw [bind_ok h]
  simp only [Trace.store, List.getLastD_eq_getLast?, List.getLast?_append]
  cases (f a ((p s).commits.getLast?.getD s)).commits.getLast? <;> rfl

theorem bind_error {p : Proc S ε α} {f : α → Proc S ε β} {s : S} {e : Failure ε}
    (h : (p s).outcome = .error e) : (p >>= f) s = ⟨(p s).commits, .error e⟩ := by
  change andThen p f s = _
  simp only [andThen, h]

theorem each_cons (f : α → Proc S ε Unit) (a : α) (rest : List α) :
    each f (a :: rest) = (f a >>= fun _ => each f rest) := rfl

theorem each_singleton (f : α → Proc S ε Unit) (a : α) (s : S) : each f [a] s = f a s := by
  rw [each_cons]
  cases hout : (f a s).outcome with
  | error e =>
    rw [bind_error hout, ← hout]
  | ok u =>
    have hnil : each f [] ((f a s).store s) = ⟨[], (f a s).outcome⟩ := by
      rw [hout]
      rfl
    rw [bind_ok hout, hnil, List.append_nil]

@[simp] theorem lift_ok_bind (a : α) (f : α → Proc S ε β) (s : S) :
    ((lift (.ok a) : Proc S ε α) >>= f) s = f a s := rfl

@[simp] theorem lift_error_bind (e : Failure ε) (f : α → Proc S ε β) (s : S) :
    ((lift (.error e) : Proc S ε α) >>= f) s = ⟨[], .error e⟩ := rfl

@[simp] theorem read_bind (f : S → Proc S ε β) (s : S) :
    ((read : Proc S ε S) >>= f) s = f s s := rfl

@[simp] theorem commit_bind (s' : S) (f : Unit → Proc S ε β) (s : S) :
    ((commit s' : Proc S ε Unit) >>= f) s =
      ⟨s' :: (f () s').commits, (f () s').outcome⟩ := rfl

theorem endures_bind {P : ε → Prop} {p : Proc S ε α} {f : α → Proc S ε β} {s : S} :
    Endures P ((p >>= f) s).outcome ↔ Endures P (p s).outcome ∧
      ∀ a, (p s).outcome = .ok a → Endures P (f a ((p s).store s)).outcome := by
  cases hout : (p s).outcome with
  | ok a =>
    rw [bind_ok hout]
    exact ⟨fun h => ⟨trivial, fun b hb => (Except.ok.inj hb) ▸ h⟩, fun h => h.2 a rfl⟩
  | error e =>
    rw [bind_error hout]
    cases e <;> exact ⟨fun h => ⟨h, fun b hb => by cases hb⟩, fun h => h.1⟩

/-- A handled program ends well when its errors are those that the handler takes. -/
theorem handle_eq_ok {p : Proc S ε Unit} {handler : ε → Outcome ε' Unit} {s : S} :
    (handle p handler s).outcome = .ok () ↔
      Endures (fun e => handler e = .ok ()) (p s).outcome := by
  unfold handle
  match h : (p s).outcome with
  | .ok () => exact ⟨fun _ => trivial, fun _ => rfl⟩
  | .error (.error e) => exact Iff.rfl
  | .error .panic => exact ⟨fun h => (by cases h), False.elim⟩

/-- Each program of a list runs on the store that the ones before it left. -/
def Along (C : S → α → Prop) (f : α → Proc S ε Unit) : S → List α → Prop
  | _, [] => True
  | s, a :: rest => C s a ∧ Along C f ((f a s).store s) rest

theorem each_eq_ok {f : α → Proc S ε Unit} {l : List α} {s : S} :
    (each f l s).outcome = .ok () ↔ Along (fun s a => (f a s).outcome = .ok ()) f s l := by
  induction l generalizing s with
  | nil => exact ⟨fun _ => trivial, fun _ => rfl⟩
  | cons a rest ih =>
    rw [each_cons, Along]
    cases hout : (f a s).outcome with
    | ok u =>
      rw [bind_ok hout]
      exact ⟨fun h => ⟨rfl, ih.mp h⟩, fun h => ih.mpr h.2⟩
    | error e =>
      rw [bind_error hout]
      exact ⟨fun h => (by cases h), fun h => (by cases h.1)⟩

/-- Two conditions that agree in the stores of an invariant, which every program keeps. -/
theorem along_iff {C D : S → α → Prop} {f : α → Proc S ε Unit} {I : S → Prop} {l : List α}
    (keeps : ∀ a ∈ l, ∀ s, I s → I ((f a s).store s))
    (hiff : ∀ a ∈ l, ∀ s, I s → (C s a ↔ D s a)) {s : S} (hs : I s) :
    Along C f s l ↔ Along D f s l := by
  induction l generalizing s with
  | nil => exact Iff.rfl
  | cons a rest ih =>
    refine and_congr (hiff a List.mem_cons_self s hs) ?_
    exact ih (fun b hb => keeps b (List.mem_cons_of_mem a hb))
      (fun b hb => hiff b (List.mem_cons_of_mem a hb)) (keeps a List.mem_cons_self s hs)

theorem each_keeps {f : α → Proc S ε Unit} {I : S → Prop} {l : List α}
    (keeps : ∀ a ∈ l, ∀ s, I s → I ((f a s).store s)) {s : S} (hs : I s) :
    I ((each f l s).store s) := by
  induction l generalizing s with
  | nil => exact hs
  | cons a rest ih =>
    have hfirst := keeps a List.mem_cons_self s hs
    rw [each_cons]
    cases hout : (f a s).outcome with
    | error e =>
      rw [bind_error hout]
      exact hfirst
    | ok u =>
      rw [store_bind hout]
      exact ih (fun b hb => keeps b (List.mem_cons_of_mem a hb)) hfirst

theorem bind_assoc_apply {γ : Type} (p : Proc S ε α) (f : α → Proc S ε β) (g : β → Proc S ε γ)
    (s : S) : ((p >>= f) >>= g) s = (p >>= fun a => f a >>= g) s := by
  cases hp : (p s).outcome with
  | error e =>
    have hout : ((p >>= f) s).outcome = .error e := by rw [bind_error hp]
    rw [bind_error hout, bind_error hp, bind_error hp]
  | ok a =>
    have hstore := store_bind (f := f) hp
    have hout := congrArg Trace.outcome (bind_ok (f := f) hp)
    rw [bind_ok hp]
    cases hf : (f a ((p s).store s)).outcome with
    | error e =>
      rw [hf] at hout
      rw [bind_error hout, bind_error hf, bind_ok hp]
    | ok b =>
      rw [hf] at hout
      rw [bind_ok hout, bind_ok hf, hstore, bind_ok hp, List.append_assoc]

/-- A list that follows another one. -/
theorem each_append_bind (f : α → Proc S ε Unit) (l₁ l₂ : List α) :
    each f (l₁ ++ l₂) = (each f l₁ >>= fun _ => each f l₂) := by
  induction l₁ with
  | nil => rfl
  | cons a rest ih =>
    funext s
    rw [List.cons_append, each_cons, each_cons, ih, bind_assoc_apply]

theorem each_map {γ : Type} (f : α → Proc S ε Unit) (g : γ → α) (l : List γ) :
    each f (l.map g) = each (fun c => f (g c)) l := by
  induction l with
  | nil => rfl
  | cons c rest ih =>
    rw [List.map_cons, each_cons, each_cons, ih]

/-- Each element of a list is a list of its own. -/
theorem each_flatMap {γ : Type} {f : α → Proc S ε Unit} {g : γ → List α} {h : γ → Proc S ε Unit}
    (hh : ∀ c, h c = each f (g c)) (l : List γ) : each f (l.flatMap g) = each h l := by
  induction l with
  | nil => rfl
  | cons c rest ih =>
    rw [List.flatMap_cons, each_append_bind, each_cons, ih, hh]

/-- A list that follows another one runs on the store it left, if that one ended well. -/
theorem each_append {f : α → Proc S ε Unit} {l₁ l₂ : List α} {s : S}
    (h : (each f l₁ s).outcome = .ok ()) :
    (each f (l₁ ++ l₂) s).outcome = (each f l₂ ((each f l₁ s).store s)).outcome ∧
      (each f (l₁ ++ l₂) s).store s =
        (each f l₂ ((each f l₁ s).store s)).store ((each f l₁ s).store s) := by
  rw [each_append_bind]
  exact ⟨by rw [bind_ok h], store_bind h⟩

end Proc

section Trails

variable {S E : Type} {step : S → E → S → Prop}

/-- A list of events, each with the version it led to. -/
def Trail (step : S → E → S → Prop) : S → List (E × S) → Prop
  | _, [] => True
  | s, (e, t) :: rest => step s e t ∧ Trail step t rest

/-- The store at the end of a trail. -/
def lastStore (s : S) (l : List (E × S)) : S := (l.map Prod.snd).getLastD s

@[simp] theorem lastStore_nil (s : S) : lastStore s ([] : List (E × S)) = s := rfl

@[simp] theorem lastStore_cons (s t : S) (e : E) (l : List (E × S)) :
    lastStore s ((e, t) :: l) = lastStore t l := by
  cases l <;> rfl

theorem lastStore_append (s : S) (l₁ l₂ : List (E × S)) :
    lastStore s (l₁ ++ l₂) = lastStore (lastStore s l₁) l₂ := by
  induction l₁ generalizing s with
  | nil => rfl
  | cons a rest ih =>
    obtain ⟨e, t⟩ := a
    rw [List.cons_append, lastStore_cons, lastStore_cons, ih]

theorem trail_append {s : S} {l₁ l₂ : List (E × S)} :
    Trail step s (l₁ ++ l₂) ↔ Trail step s l₁ ∧ Trail step (lastStore s l₁) l₂ := by
  induction l₁ generalizing s with
  | nil => simp [Trail]
  | cons a rest ih =>
    obtain ⟨e, t⟩ := a
    simp only [List.cons_append, Trail, lastStore_cons, ih, and_assoc]

/-- Every step of the trail, with the version before it, meets a condition. -/
def AllSteps (C : S → E → S → Prop) : S → List (E × S) → Prop
  | _, [] => True
  | s, (e, t) :: rest => C s e t ∧ AllSteps C t rest

theorem allSteps_append {C : S → E → S → Prop} {s : S} {l₁ l₂ : List (E × S)} :
    AllSteps C s (l₁ ++ l₂) ↔ AllSteps C s l₁ ∧ AllSteps C (lastStore s l₁) l₂ := by
  induction l₁ generalizing s with
  | nil => simp [AllSteps]
  | cons a rest ih =>
    obtain ⟨e, t⟩ := a
    simp only [List.cons_append, AllSteps, lastStore_cons, ih, and_assoc]

/-- One more step at the end. -/
theorem trail_snoc {s : S} {l : List (E × S)} {e : E} {t : S} :
    Trail step s (l ++ [(e, t)]) ↔ Trail step s l ∧ step (lastStore s l) e t := by
  simp only [trail_append, Trail, and_true]

theorem allSteps_snoc {C : S → E → S → Prop} {s : S} {l : List (E × S)} {e : E} {t : S} :
    AllSteps C s (l ++ [(e, t)]) ↔ AllSteps C s l ∧ C (lastStore s l) e t := by
  simp only [allSteps_append, AllSteps, and_true]

@[simp] theorem lastStore_snoc (s : S) (l : List (E × S)) (e : E) (t : S) :
    lastStore s (l ++ [(e, t)]) = t := by
  rw [lastStore_append, lastStore_cons, lastStore_nil]

/-- A longer trail is cut before its last step, or where the shorter one was. -/
theorem snoc_eq_append_cons {α : Type} {l l₁ l₂ : List α} {a b : α} :
    l ++ [a] = l₁ ++ b :: l₂ ↔
      (l₁ = l ∧ b = a ∧ l₂ = []) ∨ ∃ l₃, l₂ = l₃ ++ [a] ∧ l = l₁ ++ b :: l₃ := by
  constructor
  · intro h
    rcases List.eq_nil_or_concat l₂ with rfl | ⟨l₃, c, rfl⟩
    · obtain ⟨rfl, hab⟩ := List.append_inj' h rfl
      exact Or.inl ⟨rfl, (List.singleton_inj.mp hab).symm, rfl⟩
    · rw [List.concat_eq_append, ← List.cons_append, ← List.append_assoc] at h
      obtain ⟨rfl, hac⟩ := List.append_inj' h rfl
      obtain rfl := List.singleton_inj.mp hac
      exact Or.inr ⟨l₃, List.concat_eq_append, rfl⟩
  · rintro (⟨rfl, rfl, rfl⟩ | ⟨l₃, rfl, rfl⟩)
    · rfl
    · rw [List.append_assoc, List.cons_append]

/-- A condition on the steps, as one on every way to cut the trail before a step. -/
theorem allSteps_iff_splits {C : S → E → S → Prop} {s : S} {l : List (E × S)} :
    AllSteps C s l ↔ ∀ l₁ e t l₂, l = l₁ ++ (e, t) :: l₂ → C (lastStore s l₁) e t := by
  constructor
  · rintro h l₁ e t l₂ rfl
    exact (allSteps_append.mp h).2.1
  · intro h
    induction l generalizing s with
    | nil => trivial
    | cons a rest ih =>
      refine ⟨h [] a.1 a.2 rest rfl, ih ?_⟩
      rintro l₁ e t l₂ rfl
      have hcut := h (a :: l₁) e t l₂ rfl
      rw [show a = (a.1, a.2) from rfl, lastStore_cons] at hcut
      exact hcut

/-- When a condition on a step says that a property is kept, the property holds in every
store of a trail exactly when every step meets the condition. -/
theorem allSteps_iff_prefixes {C : S → E → S → Prop} {P : S → Prop} {s : S} {l : List (E × S)}
    (h₀ : P s) (hstep : ∀ l₁ e t l₂, l = l₁ ++ (e, t) :: l₂ → P (lastStore s l₁) →
      (C (lastStore s l₁) e t ↔ P t)) :
    AllSteps C s l ↔ ∀ l', l' <+: l → P (lastStore s l') := by
  constructor
  · rintro h l' ⟨rest, rfl⟩
    induction l' using List.reverseRec generalizing rest with
    | nil => exact h₀
    | append_singleton l' a ih =>
      obtain ⟨e, t⟩ := a
      rw [List.append_assoc, List.singleton_append] at h hstep
      rw [lastStore_snoc]
      exact (hstep l' e t rest rfl (ih _ hstep h)).mp (allSteps_append.mp h).2.1
  · intro h
    refine allSteps_iff_splits.mpr ?_
    rintro l₁ e t l₂ rfl
    refine (hstep l₁ e t l₂ rfl (h l₁ (List.prefix_append _ _))).mpr ?_
    have ht := h (l₁ ++ [(e, t)]) ⟨l₂, by simp⟩
    rwa [lastStore_snoc] at ht

/-- A property of the first store and of every later one holds after every prefix. -/
theorem forall_prefixes_of_stores {P : S → Prop} {s : S} {l : List (E × S)} (h₀ : P s)
    (h : ∀ t ∈ l.map Prod.snd, P t) : ∀ l', l' <+: l → P (lastStore s l') := by
  rintro l' ⟨rest, rfl⟩
  induction l' using List.reverseRec with
  | nil => exact h₀
  | append_singleton l' a ih =>
    obtain ⟨e, t⟩ := a
    rw [lastStore_snoc]
    exact h t (by simp)

/-- A condition on the version before each step holds of the steps of a trail. -/
theorem allSteps_of_stores {C : S → E → S → Prop} {P : S → Prop}
    (himp : ∀ s e t, P s → C s e t) {s : S} {l : List (E × S)}
    (h : ∀ t ∈ s :: l.map Prod.snd, P t) : AllSteps C s l := by
  induction l generalizing s with
  | nil => trivial
  | cons a rest ih =>
    obtain ⟨e, t⟩ := a
    exact ⟨himp s e t (h s List.mem_cons_self),
      ih (fun u hu => h u (List.mem_cons_of_mem s hu))⟩

/-- A step of the trail, with the version before it. -/
theorem exists_step {C : S → E → S → Prop} {s : S} {l : List (E × S)} (h : Trail step s l)
    (hc : AllSteps C s l) {a : E × S} (ha : a ∈ l) : ∃ s, step s a.1 a.2 ∧ C s a.1 a.2 := by
  induction l generalizing s with
  | nil => cases ha
  | cons b rest ih =>
    rcases List.mem_cons.mp ha with rfl | ha
    · exact ⟨s, h.1, hc.1⟩
    · exact ih h.2 hc.2 ha

/-- A condition that follows, step by step, from another one. -/
theorem allSteps_of_trail {C D : S → E → S → Prop} {s : S} {l : List (E × S)}
    (himp : ∀ a ∈ l, ∀ s, step s a.1 a.2 → D s a.1 a.2 → C s a.1 a.2)
    (h : Trail step s l) (hd : AllSteps D s l) : AllSteps C s l := by
  induction l generalizing s with
  | nil => trivial
  | cons a rest ih =>
    exact ⟨himp a List.mem_cons_self s h.1 hd.1,
      ih (fun b hb => himp b (List.mem_cons_of_mem a hb)) h.2 hd.2⟩

/-- What one step meeting the condition preserves holds at the end of a trail of them. -/
theorem invariant_last {C : S → E → S → Prop} {I : S → Prop}
    (pres : ∀ s e t, I s → step s e t → C s e t → I t) {s : S} {l : List (E × S)}
    (h₀ : I s) (h : Trail step s l) (hc : AllSteps C s l) : I (lastStore s l) := by
  induction l generalizing s with
  | nil => exact h₀
  | cons a rest ih =>
    obtain ⟨e, t⟩ := a
    rw [lastStore_cons]
    exact ih (pres s e t h₀ h.1 hc.1) h.2 hc.2

/-- Such an invariant holds before every step of the trail. -/
theorem invariant_before {C : S → E → S → Prop} {I : S → Prop}
    (pres : ∀ s e t, I s → step s e t → C s e t → I t) {s : S} {l : List (E × S)}
    (h₀ : I s) (h : Trail step s l) (hc : AllSteps C s l) : AllSteps (fun s _ _ => I s) s l := by
  induction l generalizing s with
  | nil => trivial
  | cons a rest ih =>
    obtain ⟨e, t⟩ := a
    exact ⟨h₀, ih (pres s e t h₀ h.1 hc.1) h.2 hc.2⟩

/-- Two conditions that agree on the steps of an invariant agree on its trails. -/
theorem allSteps_iff {C D : S → E → S → Prop} {I : S → Prop}
    (pres : ∀ s e t, I s → step s e t → I t)
    (hiff : ∀ s e t, I s → step s e t → (C s e t ↔ D s e t)) {s : S} {l : List (E × S)}
    (h₀ : I s) (h : Trail step s l) : AllSteps C s l ↔ AllSteps D s l := by
  induction l generalizing s with
  | nil => exact Iff.rfl
  | cons a rest ih =>
    obtain ⟨e, t⟩ := a
    exact and_congr (hiff s e t h₀ h.1) (ih (pres s e t h₀ h.1) h.2)

theorem allSteps_and {C D : S → E → S → Prop} {s : S} {l : List (E × S)} (hc : AllSteps C s l)
    (hd : AllSteps D s l) : AllSteps (fun s e t => C s e t ∧ D s e t) s l := by
  induction l generalizing s with
  | nil => trivial
  | cons a rest ih => exact ⟨⟨hc.1, hd.1⟩, ih hc.2 hd.2⟩

/-- A condition on the event alone. -/
theorem allSteps_of_events {P : E → Prop} {s : S} {l : List (E × S)} (h : ∀ a ∈ l, P a.1) :
    AllSteps (fun _ e _ => P e) s l := by
  induction l generalizing s with
  | nil => trivial
  | cons a rest ih =>
    exact ⟨h a List.mem_cons_self, ih (fun b hb => h b (List.mem_cons_of_mem a hb))⟩

/-- The events of a trail that a function takes. -/
def kept {F : Type} (f : E → Option F) (l : List (E × S)) : List (F × S) :=
  l.filterMap (fun a => (f a.1).map (fun e => (e, a.2)))

/-- Steps that leave the store alone can be left out of a trail. -/
theorem trail_kept {F : Type} {step' : S → F → S → Prop} {f : E → Option F}
    (htaken : ∀ s e t e', step s e t → f e = some e' → step' s e' t)
    (hleft : ∀ s e t, step s e t → f e = none → t = s) {s : S} {l : List (E × S)}
    (h : Trail step s l) :
    Trail step' s (kept f l) ∧ lastStore s (kept f l) = lastStore s l := by
  induction l generalizing s with
  | nil => exact ⟨trivial, rfl⟩
  | cons a rest ih =>
    obtain ⟨e, t⟩ := a
    obtain ⟨hstep, hrest⟩ := h
    obtain ⟨htrail, hlast⟩ := ih hrest
    rw [lastStore_cons]
    cases he : f e with
    | none =>
      obtain rfl := hleft s e t hstep he
      rw [show kept f ((e, t) :: rest) = kept f rest by simp [kept, he]]
      exact ⟨htrail, hlast⟩
    | some e' =>
      rw [show kept f ((e, t) :: rest) = (e', t) :: kept f rest by simp [kept, he],
        lastStore_cons]
      exact ⟨⟨htaken s e t e' hstep he, htrail⟩, hlast⟩

theorem trail_imp {step' : S → E → S → Prop} (himp : ∀ s e t, step s e t → step' s e t)
    {s : S} {l : List (E × S)} (h : Trail step s l) : Trail step' s l := by
  induction l generalizing s with
  | nil => trivial
  | cons a rest ih =>
    obtain ⟨e, t⟩ := a
    exact ⟨himp s e t h.1, ih h.2⟩

/-- A program all of whose commits are steps, in every store. -/
def Steps {ε α : Type} (step : S → E → S → Prop) (p : Proc S ε α) : Prop :=
  ∀ s, ∃ l, Trail step s l ∧ l.map Prod.snd = (p s).commits

variable {ε ε' α β : Type}

theorem Steps.mono {step' : S → E → S → Prop} (himp : ∀ s e t, step s e t → step' s e t)
    {p : Proc S ε α} (h : Steps step p) : Steps step' p := by
  intro s
  obtain ⟨l, hl, hc⟩ := h s
  exact ⟨l, trail_imp himp hl, hc⟩

theorem Steps.lift (x : Outcome ε α) : Steps step (Proc.lift x) :=
  fun _ => ⟨[], trivial, rfl⟩

theorem Steps.read : Steps step (Proc.read : Proc S ε S) := fun _ => ⟨[], trivial, rfl⟩

theorem Steps.ret (a : α) : Steps step (Proc.ret a : Proc S ε α) := fun _ => ⟨[], trivial, rfl⟩

theorem Steps.bind {p : Proc S ε α} {f : α → Proc S ε β} (hp : Steps step p)
    (hf : ∀ a, Steps step (f a)) : Steps step (p >>= f) := by
  intro s
  obtain ⟨l, hl, hc⟩ := hp s
  cases hout : (p s).outcome with
  | error e => exact ⟨l, hl, by rw [Proc.bind_error hout, hc]⟩
  | ok a =>
    obtain ⟨l', hl', hc'⟩ := hf a ((p s).store s)
    have hlast : lastStore s l = (p s).store s := by rw [lastStore, hc]; rfl
    refine ⟨l ++ l', trail_append.mpr ⟨hl, by rw [hlast]; exact hl'⟩, ?_⟩
    rw [Proc.bind_ok hout, List.map_append, hc, hc']

theorem Steps.handle {p : Proc S ε Unit} (hp : Steps step p) (handler : ε → Outcome ε' Unit) :
    Steps step (Proc.handle p handler) := by
  intro s
  obtain ⟨l, hl, hc⟩ := hp s
  refine ⟨l, hl, ?_⟩
  simp only [Proc.handle]
  split <;> exact hc

theorem Steps.each {f : α → Proc S ε Unit} {l : List α} (h : ∀ a ∈ l, Steps step (f a)) :
    Steps step (Proc.each f l) := by
  induction l with
  | nil => exact Steps.ret ()
  | cons a rest ih =>
    exact Steps.bind (h a List.mem_cons_self)
      (fun _ => ih (fun b hb => h b (List.mem_cons_of_mem a hb)))

end Trails

section Within

variable {S ε ε' α β : Type} {R : S → S → Prop} {s : S}

/-- Every version that the program commits on the store is related to the store. -/
def Within (R : S → S → Prop) (s : S) (p : Proc S ε α) : Prop := ∀ t ∈ (p s).commits, R s t

theorem within_of_nil {p : Proc S ε α} (h : (p s).commits = []) : Within R s p := by
  intro t ht
  rw [h] at ht
  cases ht

theorem Within.store (refl : ∀ s, R s s) {p : Proc S ε α} (h : Within R s p) :
    R s ((p s).store s) := by
  unfold Trace.store
  rcases List.eq_nil_or_concat (p s).commits with hnil | ⟨init, t, hlast⟩
  · rw [hnil]
    exact refl s
  · rw [hlast, List.concat_eq_append, List.getLastD_concat]
    exact h t (by simp [hlast])

theorem within_lift_bind {x : Outcome ε α} {f : α → Proc S ε β}
    (h : ∀ a, x = .ok a → Within R s (f a)) : Within R s (Proc.lift x >>= f) := by
  cases x with
  | ok a => exact h a rfl
  | error e => exact within_of_nil rfl

theorem within_read_bind {f : S → Proc S ε β} (h : Within R s (f s)) :
    Within R s (Proc.read >>= f) := h

theorem within_commit {t : S} (h : R s t) : Within R s (Proc.commit t : Proc S ε Unit) := by
  intro u hu
  obtain rfl := List.mem_singleton.mp hu
  exact h

/-- The versions of a program whose steps all stay in a transitive relation. -/
theorem Steps.within (trans : ∀ s t u, R s t → R t u → R s u) {E : Type}
    {step : S → E → S → Prop} (himp : ∀ s e t, step s e t → R s t) {p : Proc S ε α}
    (h : Steps step p) (s : S) : Within R s p := by
  obtain ⟨l, hl, hc⟩ := h s
  have hall : ∀ s, Trail step s l → ∀ t ∈ l.map Prod.snd, R s t := by
    clear hl hc
    induction l with
    | nil =>
      intro s _ t ht
      cases ht
    | cons a rest ih =>
      intro s htrail t ht
      rcases List.mem_cons.mp ht with rfl | ht
      · exact himp s a.1 _ htrail.1
      · exact trans _ _ _ (himp s a.1 a.2 htrail.1) (ih a.2 htrail.2 t ht)
  exact fun t ht => hall s hl t (hc ▸ ht)

theorem within_commit_bind (trans : ∀ s t u, R s t → R t u → R s u) {t : S}
    {f : Unit → Proc S ε β} (ht : R s t) (h : Within R t (f ())) :
    Within R s (Proc.commit t >>= f) := by
  intro u hu
  rw [Proc.commit_bind] at hu
  rcases List.mem_cons.mp hu with rfl | hu
  · exact ht
  · exact trans s t u ht (h u hu)

theorem Within.bind (refl : ∀ s, R s s) (trans : ∀ s t u, R s t → R t u → R s u)
    {p : Proc S ε α} {f : α → Proc S ε β} (hp : Within R s p)
    (hf : ∀ a t, R s t → Within R t (f a)) : Within R s (p >>= f) := by
  intro u hu
  cases hout : (p s).outcome with
  | error e =>
    rw [Proc.bind_error hout] at hu
    exact hp u hu
  | ok a =>
    rw [Proc.bind_ok hout] at hu
    rcases List.mem_append.mp hu with hu | hu
    · exact hp u hu
    · exact trans _ _ _ (hp.store refl) (hf a _ (hp.store refl) u hu)

theorem Within.handle {p : Proc S ε Unit} (hp : Within R s p) (handler : ε → Outcome ε' Unit) :
    Within R s (Proc.handle p handler) := by
  intro u hu
  have hsame : (Proc.handle p handler s).commits = (p s).commits := by
    simp only [Proc.handle]
    split <;> rfl
  exact hp u (hsame ▸ hu)

theorem within_each (refl : ∀ s, R s s) (trans : ∀ s t u, R s t → R t u → R s u)
    {f : α → Proc S ε Unit} (h : ∀ a s, Within R s (f a)) (l : List α) (s : S) :
    Within R s (Proc.each f l) := by
  induction l generalizing s with
  | nil => exact within_of_nil rfl
  | cons a rest ih => exact (h a s).bind refl trans (fun _ t _ => ih t)

end Within

end Commits
