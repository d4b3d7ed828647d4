import BitcoinIpc.Lib.Tapscript

/-!
# Scripts without conditionals

Every instruction of such a script is executed. If it ends in two pushes it never
leaves a single item, so no witness spends an output by it. If it drops what it
pushes and ends in one more push, it is spent by the empty stack and by no other.
-/

namespace Tapscript

variable {verify : Item → Item → Bool} {mature : Item → Bool} {s s' : State} {i : Instruction}
  {is : List Instruction}

theorem conditions_binary {f : Int → Int → Item} (h : binary f s = some s') :
    s'.conditions = s.conditions := by
  unfold binary at h
  split at h
  · obtain ⟨x, -, h⟩ := Option.bind_eq_some_iff.mp h
    obtain ⟨y, -, h⟩ := Option.bind_eq_some_iff.mp h
    cases h
    rfl
  · cases h

theorem conditions_checkSig (h : checkSig verify s = some s') : s'.conditions = s.conditions := by
  unfold checkSig at h
  split at h
  · split_ifs at h
    · cases h
      rfl
    · cases h
      rfl
  · cases h

theorem conditions_checkSequence (h : checkSequence mature s = some s') :
    s'.conditions = s.conditions := by
  unfold checkSequence at h
  split at h
  · cases h
  · split_ifs at h
    cases h
    rfl

theorem conditions_runOp {code : UInt8} (h : runOp verify mature code s = some s') :
    s'.conditions = s.conditions := by
  unfold runOp at h
  split_ifs at h
  · cases h
    rfl
  · split at h
    · cases h
      rfl
    · cases h
  · split at h
    · cases h
    · cases h
      rfl
  · exact conditions_checkSequence h
  · exact conditions_checkSig h
  · exact conditions_binary h
  · exact conditions_binary h

theorem run_of_step (h : step verify mature i s = some s') :
    runInstruction verify mature i s = some s' := by
  obtain ⟨t, hrun, h⟩ := Option.bind_eq_some_iff.mp h
  split_ifs at h
  cases h
  exact hrun

/-- Only conditionals open and close branches. -/
theorem conditions_step (hif : i ≠ .op opIf) (hendif : i ≠ .op opEndif)
    (h : step verify mature i s = some s') : s'.conditions = s.conditions := by
  have hrun := run_of_step h
  cases i with
  | push data =>
    simp only [runInstruction] at hrun
    split_ifs at hrun
    · cases hrun
      rfl
    · cases hrun
      rfl
  | op code =>
    have hne : code ≠ opIf ∧ code ≠ opEndif :=
      ⟨fun heq => hif (heq ▸ rfl), fun heq => hendif (heq ▸ rfl)⟩
    simp only [runInstruction, if_neg hne.1, if_neg hne.2] at hrun
    split_ifs at hrun
    · exact conditions_runOp hrun
    · cases hrun
      rfl

theorem conditions_exec (hif : .op opIf ∉ is) (hendif : .op opEndif ∉ is)
    (h : exec verify mature is s = some s') : s'.conditions = s.conditions := by
  induction is generalizing s with
  | nil =>
    cases h
    rfl
  | cons i rest ih =>
    obtain ⟨t, hstep, h⟩ := Option.bind_eq_some_iff.mp h
    rw [List.mem_cons, not_or] at hif hendif
    rw [ih hif.2 hendif.2 h, conditions_step (Ne.symm hif.1) (Ne.symm hendif.1) hstep]

/-- An instruction that puts one item on the stack, whatever the stack holds. -/
def Pushes (i : Instruction) : Prop :=
  (∃ data, i = .push data) ∨ ∃ code, i = .op code ∧ 0x51 ≤ code ∧ code ≤ 0x60

theorem pushed_of_pushes (hi : Pushes i) (hc : s.executing = true)
    (h : step verify mature i s = some s') : ∃ item, s' = s.pushed item := by
  have hrun := run_of_step h
  rcases hi with ⟨data, rfl⟩ | ⟨code, rfl, hlo, hhi⟩
  · simp only [runInstruction] at hrun
    split_ifs at hrun
    exact ⟨data, (Option.some.inj hrun).symm⟩
  · have hne : code ≠ opIf ∧ code ≠ opEndif := by
      constructor
      · rintro rfl
        exact absurd hhi (by decide)
      · rintro rfl
        exact absurd hhi (by decide)
    simp only [runInstruction, if_neg hne.1, if_neg hne.2, if_pos hc, runOp,
      if_pos (And.intro hlo hhi)] at hrun
    exact ⟨[code - 0x50], (Option.some.inj hrun).symm⟩

/-- A script without conditionals that ends in two pushes leaves at least two items. -/
theorem two_le_of_two_pushes {p q : Instruction} {stack final : List Item} {budget : Nat}
    (hif : .op opIf ∉ is) (hendif : .op opEndif ∉ is) (hp : Pushes p) (hq : Pushes q)
    (h : evaluate verify mature (is ++ [p, q]) stack budget = some final) : 2 ≤ final.length := by
  unfold evaluate at h
  split_ifs at h with hstack
  obtain ⟨s, hrun, h⟩ := Option.bind_eq_some_iff.mp h
  split_ifs at h with hclosed
  cases h
  rw [exec_append] at hrun
  obtain ⟨t, hprefix, hrun⟩ := Option.bind_eq_some_iff.mp hrun
  -- no branch is open before the pushes, so both are executed
  have hexec : t.executing = true := by
    rw [State.executing, conditions_exec hif hendif hprefix]
    rfl
  obtain ⟨u, hstep, hrun⟩ := Option.bind_eq_some_iff.mp hrun
  obtain ⟨v, hstep', hrun⟩ := Option.bind_eq_some_iff.mp hrun
  cases hrun
  obtain ⟨a, rfl⟩ := pushed_of_pushes hp hexec hstep
  have hexec' : (t.pushed a).executing = true := hexec
  obtain ⟨b, rfl⟩ := pushed_of_pushes hq hexec' hstep'
  exact Nat.le_add_left 2 t.stack.length

/-- Each item is pushed and removed again. -/
def dropped (items : List Item) : List Instruction :=
  items.flatMap (fun i => [.push i, .op opDrop])

theorem exec_dropped {items : List Item} (hc : s.executing = true)
    (hsize : ∀ i ∈ items, i.length ≤ maxItemSize) (hroom : s.stack.length + 1 ≤ maxStackSize) :
    exec verify mature (dropped items) s = some s := by
  induction items with
  | nil => rfl
  | cons item items ih =>
    have hitem : item.length ≤ maxItemSize := hsize item List.mem_cons_self
    have hleft : s.stack.length ≤ maxStackSize := by omega
    change exec verify mature (.push item :: .op opDrop :: dropped items) s = _
    rw [exec_cons_of_step (step_push hc hitem hroom), exec_cons_of_step (step_drop hc hleft)]
    exact ih (fun i hi => hsize i (List.mem_cons_of_mem item hi))

theorem eq_of_exec_dropped {items : List Item} (hc : s.executing = true)
    (h : exec verify mature (dropped items) s = some s') : s' = s := by
  induction items with
  | nil => exact (Option.some.inj h).symm
  | cons item items ih =>
    change exec verify mature (.push item :: .op opDrop :: dropped items) s = some s' at h
    obtain ⟨u, hpush, hrest⟩ := Option.bind_eq_some_iff.mp h
    obtain ⟨v, hdrop, hitems⟩ := Option.bind_eq_some_iff.mp hrest
    obtain ⟨top, rfl⟩ := pushed_of_pushes (Or.inl ⟨item, rfl⟩) hc hpush
    have hexec : (s.pushed top).executing = true := hc
    have hrun := run_of_step hdrop
    rw [runInstruction, if_neg (by decide), if_neg (by decide), if_pos hexec] at hrun
    obtain rfl : v = s := (Option.some.inj hrun).symm
    exact ih hitems

/-- A script that drops its data and ends in a push of a number is spent by the empty stack, and
by no other. -/
theorem evaluate_dropped_iff {items stack : List Item} {budget : Nat} {item : Item}
    (hsize : ∀ i ∈ items, i.length ≤ maxItemSize) :
    evaluate verify mature (dropped items ++ [.op 0x51]) stack budget = some [item] ↔
      stack = [] ∧ item = [1] := by
  constructor
  · intro h
    unfold evaluate at h
    split_ifs at h with hstack
    obtain ⟨s, hrun, h⟩ := Option.bind_eq_some_iff.mp h
    split_ifs at h
    rw [exec_append] at hrun
    obtain ⟨t, hdropped, hrun⟩ := Option.bind_eq_some_iff.mp hrun
    obtain rfl : t = ⟨stack, [], budget⟩ := eq_of_exec_dropped rfl hdropped
    obtain ⟨u, hnumber, hrun⟩ := Option.bind_eq_some_iff.mp hrun
    cases hrun
    cases run_of_step hnumber
    cases h
    exact ⟨rfl, rfl⟩
  · rintro ⟨rfl, rfl⟩
    have hroom : ([] : List Item).length + 1 ≤ maxStackSize := by decide
    have hrun : exec verify mature (dropped items ++ [.op 0x51]) ⟨[], [], budget⟩ =
        some ⟨[[1]], [], budget⟩ := by
      rw [exec_append, exec_dropped rfl hsize hroom, Option.bind_some]
      exact exec_cons_of_step (step_number rfl (by decide) (by decide) hroom)
    unfold evaluate
    rw [if_pos ⟨Nat.zero_le _, by simp⟩, hrun]
    rfl

end Tapscript
