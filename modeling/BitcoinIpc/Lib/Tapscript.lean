import Mathlib.Data.List.Basic
import Mathlib.Tactic.Ring

/-!
# Tapscript

The stack machine that evaluates the leaf script of a taproot output, with the
operations that threshold scripts, timelocks and embedded data are made of:
pushes, small numbers, swap, drop, signature checks, conditionals, addition,
comparison and the check of a relative timelock. Every other opcode fails.
Numbers have at most four bytes, conditions are minimal, a signature that is not
empty has to verify and costs weight, and the stack holds at most 1000 items.
Which signatures verify and which timelocks have passed are parameters. The top
of the stack is the head of its list.
-/

namespace Tapscript

abbrev Item := List UInt8

inductive Instruction where
  | push (data : Item)
  | op (code : UInt8)
deriving DecidableEq

/-- The absolute value of a number, little-endian, without the sign bit. -/
def magnitude : Item → Nat
  | [] => 0
  | [b] => b.toNat % 0x80
  | b :: c :: rest => b.toNat + 256 * magnitude (c :: rest)

/-- The sign is the top bit of the last byte. -/
def isNegative (i : Item) : Bool := i.getLast?.any (fun b => 0x80 ≤ b.toNat)

def numberSize : Nat := 4

def decodeNum (i : Item) : Option Int :=
  if i.length ≤ numberSize then
    some (if isNegative i then - (magnitude i : Int) else magnitude i)
  else none

/-- The shortest item with a magnitude and a sign byte. -/
def encodeMagnitude (sign : Nat) : Nat → Nat → Item
  | 0, _ => []
  | fuel + 1, n =>
    if n = 0 then []
    else if n < 0x80 then [UInt8.ofNat (n + sign)]
    else if n < 0x100 then [UInt8.ofNat n, UInt8.ofNat sign]
    else UInt8.ofNat (n % 256) :: encodeMagnitude sign fuel (n / 256)

def encodeNum (z : Int) : Item := encodeMagnitude (if z < 0 then 0x80 else 0) 9 z.natAbs

/-- Zero, with either sign, is false. -/
def castToBool (i : Item) : Bool := magnitude i ≠ 0

def boolItem (b : Bool) : Item := if b then [1] else []

@[simp] theorem castToBool_boolItem (b : Bool) : castToBool (boolItem b) = b := by
  cases b <;> rfl

theorem encodeMagnitude_ne_nil {n : Nat} (fuel : Nat) (hn : n ≠ 0) :
    encodeMagnitude 0 (fuel + 1) n ≠ [] := by
  rw [encodeMagnitude, if_neg hn]
  split_ifs <;> simp

/-- A number without sign is written with its magnitude. -/
theorem magnitude_encodeMagnitude (fuel : Nat) {n : Nat} (h : n < 256 ^ fuel) :
    magnitude (encodeMagnitude 0 fuel n) = n ∧ isNegative (encodeMagnitude 0 fuel n) = false := by
  induction fuel generalizing n with
  | zero =>
    have hn : n = 0 := by simpa using h
    rw [hn]
    exact ⟨rfl, rfl⟩
  | succ fuel ih =>
    rw [encodeMagnitude]
    split_ifs with h0 h1 h2
    · rw [h0]
      exact ⟨rfl, rfl⟩
    · have hmod : n % 256 = n := Nat.mod_eq_of_lt (by omega)
      simp only [magnitude, isNegative, Nat.add_zero, UInt8.toNat_ofNat', hmod,
        List.getLast?_singleton, Option.any_some]
      exact ⟨Nat.mod_eq_of_lt h1, decide_eq_false (by omega)⟩
    · have hmod : n % 256 = n := Nat.mod_eq_of_lt h2
      refine ⟨?_, rfl⟩
      simp only [magnitude, UInt8.toNat_ofNat', hmod]
      rfl
    · have hq : n / 256 < 256 ^ fuel := by
        rw [Nat.div_lt_iff_lt_mul (by omega), ← Nat.pow_succ]
        exact h
      obtain ⟨hmag, hneg⟩ := ih hq
      obtain ⟨k, rfl⟩ : ∃ k, fuel = k + 1 := by
        refine Nat.exists_eq_succ_of_ne_zero ?_
        rintro rfl
        omega
      obtain ⟨c, rest, hcons⟩ := List.exists_cons_of_ne_nil
        (encodeMagnitude_ne_nil k (show n / 256 ≠ 0 by omega))
      rw [hcons] at hmag hneg ⊢
      refine ⟨?_, ?_⟩
      · rw [magnitude, hmag, UInt8.toNat_ofNat']
        omega
      · rw [isNegative, List.getLast?_cons_cons]
        exact hneg

theorem length_encodeMagnitude {k n : Nat} (fuel : Nat) (h : n < 0x80 * 256 ^ k) :
    (encodeMagnitude 0 fuel n).length ≤ k + 1 := by
  induction fuel generalizing k n with
  | zero => exact Nat.zero_le _
  | succ fuel ih =>
    rw [encodeMagnitude]
    split_ifs with h0 h1 h2
    · exact Nat.zero_le _
    · rw [List.length_singleton]
      omega
    · cases k with
      | zero =>
        rw [Nat.pow_zero] at h
        omega
      | succ k =>
        rw [List.length_cons, List.length_singleton]
        omega
    · cases k with
      | zero =>
        rw [Nat.pow_zero] at h
        omega
      | succ k =>
        have hq : n / 256 < 0x80 * 256 ^ k := by
          rw [Nat.div_lt_iff_lt_mul (by omega)]
          calc n < 0x80 * 256 ^ (k + 1) := h
            _ = 0x80 * 256 ^ k * 256 := by ring
        have hrest := ih hq
        rw [List.length_cons]
        omega

theorem encodeNum_natCast (n : Nat) : encodeNum n = encodeMagnitude 0 9 n := by
  have hneg : ¬ ((n : Int) < 0) := by omega
  rw [encodeNum, if_neg hneg, Int.natAbs_natCast]

/-- A number below 2^31 is read back. -/
theorem decodeNum_encodeNum {n : Nat} (h : n < 2 ^ 31) :
    decodeNum (encodeNum n) = some (n : Int) := by
  have hlen : (encodeMagnitude 0 9 n).length ≤ numberSize :=
    length_encodeMagnitude 9 (k := 3) (by omega)
  obtain ⟨hmag, hneg⟩ := magnitude_encodeMagnitude 9 (n := n) (by omega)
  rw [encodeNum_natCast, decodeNum, if_pos hlen, hmag, hneg]
  rfl

structure State where
  stack : List Item
  /-- Whether the branches that are open are executed, the innermost first. -/
  conditions : List Bool
  /-- Weight that signature checks may still use. -/
  budget : Nat
deriving DecidableEq

def maxItemSize : Nat := 520
def maxStackSize : Nat := 1000
def sigopCost : Nat := 50

def State.executing (s : State) : Bool := s.conditions.all id

def State.pushed (s : State) (i : Item) : State := { s with stack := i :: s.stack }

def opIf : UInt8 := 0x63
def opEndif : UInt8 := 0x68
def opDrop : UInt8 := 0x75
def opSwap : UInt8 := 0x7c
def opAdd : UInt8 := 0x93
def opGreaterThanOrEqual : UInt8 := 0xa2
def opChecksig : UInt8 := 0xac
def opCsv : UInt8 := 0xb2

/-- The condition of a branch has to be empty or one. -/
def beginIf (s : State) : Option State :=
  if s.executing then
    match s.stack with
    | [] => none
    | c :: rest =>
      if c = [] ∨ c = [1] then
        some { s with stack := rest, conditions := decide (c = [1]) :: s.conditions }
      else none
  else some { s with conditions := false :: s.conditions }

def endIf (s : State) : Option State :=
  match s.conditions with
  | [] => none
  | _ :: rest => some { s with conditions := rest }

variable (verify : Item → Item → Bool) (mature : Item → Bool)

/-- An empty signature is false. Any other one costs weight and has to verify against a
key of 32 bytes; keys of another size are not checked. -/
def checkSig (s : State) : Option State :=
  match s.stack with
  | key :: sig :: rest =>
    if key = [] then none
    else if sig = [] then some { s with stack := boolItem false :: rest }
    else if s.budget < sigopCost then none
    else if key.length = 32 ∧ verify sig key = false then none
    else some { s with stack := boolItem true :: rest, budget := s.budget - sigopCost }
  | _ => none

/-- The two numbers on the top of the stack, replaced by one item. -/
def binary (f : Int → Int → Item) (s : State) : Option State :=
  match s.stack with
  | b :: a :: rest => do
    let x ← decodeNum a
    let y ← decodeNum b
    return { s with stack := f x y :: rest }
  | _ => none

/-- The check of a timelock leaves the stack as it is. -/
def checkSequence (s : State) : Option State :=
  match s.stack with
  | [] => none
  | lock :: _ => if mature lock then some s else none

def runOp (code : UInt8) (s : State) : Option State :=
  if 0x51 ≤ code ∧ code ≤ 0x60 then some (s.pushed [code - 0x50])
  else if code = opSwap then
    match s.stack with
    | a :: b :: rest => some { s with stack := b :: a :: rest }
    | _ => none
  else if code = opDrop then
    match s.stack with
    | [] => none
    | _ :: rest => some { s with stack := rest }
  else if code = opCsv then checkSequence mature s
  else if code = opChecksig then checkSig verify s
  else if code = opAdd then binary (fun x y => encodeNum (x + y)) s
  else if code = opGreaterThanOrEqual then binary (fun x y => boolItem (decide (y ≤ x))) s
  else none

def runInstruction (i : Instruction) (s : State) : Option State :=
  match i with
  | .push data =>
    if maxItemSize < data.length then none
    else if s.executing then some (s.pushed data) else some s
  | .op code =>
    if code = opIf then beginIf s
    else if code = opEndif then endIf s
    else if s.executing then runOp verify mature code s
    else some s

/-- One instruction, and the check on the size of the stack after it. -/
def step (i : Instruction) (s : State) : Option State := do
  let s' ← runInstruction verify mature i s
  if s'.stack.length ≤ maxStackSize then some s' else none

def exec : List Instruction → State → Option State
  | [], s => some s
  | i :: rest, s => (step verify mature i s).bind (exec rest)

/-- The stack that a script leaves, from the stack it starts with. -/
def evaluate (script : List Instruction) (stack : List Item) (budget : Nat) :
    Option (List Item) := do
  if stack.length ≤ maxStackSize ∧ ∀ i ∈ stack, i.length ≤ maxItemSize then
    let s ← exec verify mature script ⟨stack, [], budget⟩
    if s.conditions = [] then some s.stack else none
  else none

variable {verify mature}

theorem exec_append (a b : List Instruction) (s : State) :
    exec verify mature (a ++ b) s = (exec verify mature a s).bind (exec verify mature b) := by
  induction a generalizing s with
  | nil => rfl
  | cons i rest ih =>
    rw [List.cons_append, exec, exec]
    cases step verify mature i s with
    | none => rfl
    | some s' => exact ih s'

theorem exec_cons_of_step {i : Instruction} {rest : List Instruction} {s s' : State}
    (h : step verify mature i s = some s') :
    exec verify mature (i :: rest) s = exec verify mature rest s' := by
  rw [exec, h]
  rfl

theorem step_of_run {i : Instruction} {s s' : State}
    (h : runInstruction verify mature i s = some s') (hsize : s'.stack.length ≤ maxStackSize) :
    step verify mature i s = some s' := by
  rw [step, h]
  exact if_pos hsize

section Rules

variable {st : List Item} {cs : List Bool} {budget : Nat}

theorem step_push {data : Item} (hc : cs.all id = true) (hdata : data.length ≤ maxItemSize)
    (hsize : st.length + 1 ≤ maxStackSize) :
    step verify mature (.push data) ⟨st, cs, budget⟩ = some ⟨data :: st, cs, budget⟩ := by
  refine step_of_run ?_ hsize
  rw [runInstruction, if_neg (Nat.not_lt.mpr hdata)]
  exact if_pos hc

/-- A push that would overflow the stack fails. -/
theorem step_push_full {data : Item} (hc : cs.all id = true)
    (hsize : maxStackSize < st.length + 1) :
    step verify mature (.push data) ⟨st, cs, budget⟩ = none := by
  have hexec : (State.mk st cs budget).executing = true := hc
  rw [step, runInstruction, if_pos hexec]
  split_ifs with hdata
  · rfl
  · exact if_neg (Nat.not_le.mpr hsize)

/-- Outside of the branches that are executed, only conditionals are read. -/
theorem step_skip {i : Instruction} (hc : cs.all id = false) (hsize : st.length ≤ maxStackSize)
    (hi : (∃ data, i = .push data ∧ data.length ≤ maxItemSize) ∨
      ∃ code, i = .op code ∧ code ≠ opIf ∧ code ≠ opEndif) :
    step verify mature i ⟨st, cs, budget⟩ = some ⟨st, cs, budget⟩ := by
  have hexec : ¬ (State.mk st cs budget).executing = true := by
    rw [State.executing, hc]
    simp
  refine step_of_run ?_ hsize
  rcases hi with ⟨data, rfl, hdata⟩ | ⟨code, rfl, hif, hendif⟩
  · rw [runInstruction, if_neg (Nat.not_lt.mpr hdata), if_neg hexec]
  · rw [runInstruction, if_neg hif, if_neg hendif, if_neg hexec]

/-- An operation that is no conditional, in a branch that is executed. -/
theorem step_op {code : UInt8} {s' : State} (hc : cs.all id = true) (hif : code ≠ opIf)
    (hendif : code ≠ opEndif) (hrun : runOp verify mature code ⟨st, cs, budget⟩ = some s')
    (hsize : s'.stack.length ≤ maxStackSize) :
    step verify mature (.op code) ⟨st, cs, budget⟩ = some s' := by
  have hexec : (State.mk st cs budget).executing = true := hc
  refine step_of_run ?_ hsize
  rw [runInstruction, if_neg hif, if_neg hendif, if_pos hexec]
  exact hrun

theorem step_number {code : UInt8} (hc : cs.all id = true) (hlo : 0x51 ≤ code) (hhi : code ≤ 0x60)
    (hsize : st.length + 1 ≤ maxStackSize) :
    step verify mature (.op code) ⟨st, cs, budget⟩ = some ⟨[code - 0x50] :: st, cs, budget⟩ := by
  have hne : code ≠ opIf ∧ code ≠ opEndif := by
    constructor
    · rintro rfl
      exact absurd hhi (by decide)
    · rintro rfl
      exact absurd hhi (by decide)
  refine step_op hc hne.1 hne.2 ?_ hsize
  rw [runOp, if_pos ⟨hlo, hhi⟩]
  rfl

theorem step_drop {item : Item} (hc : cs.all id = true) (hsize : st.length ≤ maxStackSize) :
    step verify mature (.op opDrop) ⟨item :: st, cs, budget⟩ = some ⟨st, cs, budget⟩ :=
  step_op hc (by decide) (by decide) rfl hsize

theorem step_swap {a b : Item} (hc : cs.all id = true)
    (hsize : (a :: b :: st).length ≤ maxStackSize) :
    step verify mature (.op opSwap) ⟨a :: b :: st, cs, budget⟩ = some ⟨b :: a :: st, cs, budget⟩ :=
  step_op hc (by decide) (by decide) rfl hsize

/-- No signature counts as a failed check. -/
theorem step_checksig_empty {key : Item} (hc : cs.all id = true) (hkey : key ≠ [])
    (hsize : st.length + 1 ≤ maxStackSize) :
    step verify mature (.op opChecksig) ⟨key :: [] :: st, cs, budget⟩ =
      some ⟨[] :: st, cs, budget⟩ := by
  refine step_op hc (by decide) (by decide) ?_ hsize
  have hrun : runOp verify mature opChecksig ⟨key :: [] :: st, cs, budget⟩ =
    checkSig verify ⟨key :: [] :: st, cs, budget⟩ := rfl
  rw [hrun, checkSig]
  dsimp only
  rw [if_neg hkey, if_pos rfl]
  rfl

theorem step_checksig_valid {key sig : Item} (hc : cs.all id = true) (hkey : key ≠ [])
    (hsig : sig ≠ []) (hverify : verify sig key = true) (hbudget : sigopCost ≤ budget)
    (hsize : st.length + 1 ≤ maxStackSize) :
    step verify mature (.op opChecksig) ⟨key :: sig :: st, cs, budget⟩ =
      some ⟨[1] :: st, cs, budget - sigopCost⟩ := by
  refine step_op hc (by decide) (by decide) ?_ hsize
  have hrun : runOp verify mature opChecksig ⟨key :: sig :: st, cs, budget⟩ =
    checkSig verify ⟨key :: sig :: st, cs, budget⟩ := rfl
  rw [hrun, checkSig]
  dsimp only
  rw [if_neg hkey, if_neg hsig, if_neg (Nat.not_lt.mpr hbudget), if_neg]
  · rfl
  · rintro ⟨-, hfalse⟩
    rw [hverify] at hfalse
    cases hfalse

/-- A signature that does not verify fails the script. -/
theorem step_checksig_invalid {key sig : Item} (hc : cs.all id = true) (hkey : key.length = 32)
    (hsig : sig ≠ []) (hverify : verify sig key = false) :
    step verify mature (.op opChecksig) ⟨key :: sig :: st, cs, budget⟩ = none := by
  have hexec : (State.mk (key :: sig :: st) cs budget).executing = true := hc
  have hne : key ≠ [] := by
    intro hnil
    simp [hnil] at hkey
  have hcheck : checkSig verify ⟨key :: sig :: st, cs, budget⟩ = none := by
    simp [checkSig, hne, hsig, hkey, hverify]
  have hrun : runInstruction verify mature (.op opChecksig) ⟨key :: sig :: st, cs, budget⟩ =
      if (State.mk (key :: sig :: st) cs budget).executing then
        checkSig verify ⟨key :: sig :: st, cs, budget⟩
      else some ⟨key :: sig :: st, cs, budget⟩ := rfl
  rw [step, hrun, if_pos hexec, hcheck]
  rfl

/-- A branch is opened with the truth of its condition. -/
theorem step_if {b : Bool} (hc : cs.all id = true) (hsize : st.length ≤ maxStackSize) :
    step verify mature (.op opIf) ⟨boolItem b :: st, cs, budget⟩ = some ⟨st, b :: cs, budget⟩ := by
  have hexec : (State.mk (boolItem b :: st) cs budget).executing = true := hc
  refine step_of_run ?_ hsize
  rw [runInstruction, if_pos rfl, beginIf, if_pos hexec]
  cases b <;> rfl

theorem step_endif {b : Bool} (hsize : st.length ≤ maxStackSize) :
    step verify mature (.op opEndif) ⟨st, b :: cs, budget⟩ = some ⟨st, cs, budget⟩ :=
  step_of_run rfl hsize

/-- An operation on two numbers. -/
theorem step_binary {code : UInt8} {f : Int → Int → Item} {a b : Item} {x y : Int}
    (hc : cs.all id = true) (hif : code ≠ opIf) (hendif : code ≠ opEndif)
    (hcode : ∀ s, runOp verify mature code s = binary f s) (hx : decodeNum a = some x)
    (hy : decodeNum b = some y) (hsize : st.length + 1 ≤ maxStackSize) :
    step verify mature (.op code) ⟨b :: a :: st, cs, budget⟩ = some ⟨f x y :: st, cs, budget⟩ := by
  refine step_op hc hif hendif ?_ hsize
  rw [hcode]
  simp only [binary, hx, hy]
  rfl

theorem step_add {a b : Item} {x y : Int} (hc : cs.all id = true) (hx : decodeNum a = some x)
    (hy : decodeNum b = some y) (hsize : st.length + 1 ≤ maxStackSize) :
    step verify mature (.op opAdd) ⟨b :: a :: st, cs, budget⟩ =
      some ⟨encodeNum (x + y) :: st, cs, budget⟩ := by
  have hif : opAdd ≠ opIf := by decide
  have hendif : opAdd ≠ opEndif := by decide
  exact step_binary hc hif hendif (fun _ => rfl) hx hy hsize

theorem step_greaterThanOrEqual {a b : Item} {x y : Int} (hc : cs.all id = true)
    (hx : decodeNum a = some x) (hy : decodeNum b = some y)
    (hsize : st.length + 1 ≤ maxStackSize) :
    step verify mature (.op opGreaterThanOrEqual) ⟨b :: a :: st, cs, budget⟩ =
      some ⟨boolItem (decide (y ≤ x)) :: st, cs, budget⟩ := by
  have hif : opGreaterThanOrEqual ≠ opIf := by decide
  have hendif : opGreaterThanOrEqual ≠ opEndif := by decide
  exact step_binary hc hif hendif (fun _ => rfl) hx hy hsize

end Rules

end Tapscript
