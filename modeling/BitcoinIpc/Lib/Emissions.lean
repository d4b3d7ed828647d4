import BitcoinIpc.Lib.Commits

/-!
# What programs hand over

The programs of a list run one after another, each on the store that the ones
before it left, and each hands something over besides its commits. What they
hand over together is collected until one of them fails. The rule says which
invariants of the store and of what was handed over so far hold at the end.
-/

namespace Commits.Proc

variable {S ε α O : Type}

/-- What the programs of a list hand over, each for the store it runs on. -/
def emitted (f : α → Proc S ε Unit) (out : α → S → List O) : List α → S → List O
  | [], _ => []
  | a :: rest, s =>
    match (f a s).outcome with
    | .ok () => out a s ++ emitted f out rest ((f a s).store s)
    | .error _ => out a s

variable {f : α → Proc S ε Unit} {out : α → S → List O} {l : List α} {s : S}

theorem emitted_cons {a : α} (h : (f a s).outcome = .ok ()) :
    emitted f out (a :: l) s = out a s ++ emitted f out l ((f a s).store s) := by
  simp only [emitted, h]

/-- What each program that ends well preserves, with what it hands over, all of them do. -/
theorem each_emits {I : S → List O → Prop}
    (step : ∀ a ∈ l, ∀ s os, I s os → (f a s).outcome = .ok () →
      I ((f a s).store s) (os ++ out a s)) {os : List O} (h : I s os)
    (hok : (each f l s).outcome = .ok ()) :
    I ((each f l s).store s) (os ++ emitted f out l s) := by
  induction l generalizing s os with
  | nil =>
    rw [emitted, List.append_nil]
    exact h
  | cons a rest ih =>
    rw [each_cons] at hok ⊢
    cases hout : (f a s).outcome with
    | error e =>
      rw [bind_error hout] at hok
      cases hok
    | ok u =>
      have hrest : (each f rest ((f a s).store s)).outcome = .ok () := by
        rw [bind_ok hout] at hok
        exact hok
      rw [store_bind hout, emitted_cons hout, ← List.append_assoc]
      exact ih (fun b hb => step b (List.mem_cons_of_mem a hb))
        (step a List.mem_cons_self s os h hout) hrest

end Commits.Proc
