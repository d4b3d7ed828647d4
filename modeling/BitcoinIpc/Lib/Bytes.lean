import Mathlib.Data.List.Basic
import Mathlib.Tactic.Ring

/-!
# Byte strings of fixed width

Values of a fixed number of bytes, and the two fixed-width encodings of a
natural number. The width of an encoding is exact, and decoding returns the
number modulo the range of the width.
-/

namespace Bytes

/-- A byte string of length `n`. -/
structure FixedBytes (n : Nat) where
  bytes : List UInt8
  length_eq : bytes.length = n
deriving DecidableEq

namespace FixedBytes

theorem ext_bytes {n : Nat} {a b : FixedBytes n} (h : a.bytes = b.bytes) : a = b := by
  cases a; cases b; simpa using h

def zeros (n : Nat) : FixedBytes n := ⟨List.replicate n 0, List.length_replicate⟩

/-- Reads a value of exactly `n` bytes. -/
def ofList? (n : Nat) (l : List UInt8) : Option (FixedBytes n) :=
  if h : l.length = n then some ⟨l, h⟩ else none

@[simp] theorem ofList?_bytes {n : Nat} (a : FixedBytes n) :
    ofList? n a.bytes = some a := by
  simp [ofList?, a.length_eq]

theorem ofList?_eq_some {n : Nat} {l : List UInt8} {a : FixedBytes n} :
    ofList? n l = some a ↔ a.bytes = l := by
  constructor
  · intro h
    simp only [ofList?] at h
    split at h
    · exact congrArg FixedBytes.bytes (Option.some.inj h).symm
    · cases h
  · rintro rfl
    exact ofList?_bytes a

end FixedBytes

/-- Little-endian bytes of `n`, in width `w`. -/
def toLe : Nat → Nat → List UInt8
  | 0, _ => []
  | w + 1, n => UInt8.ofNat (n % 256) :: toLe w (n / 256)

def fromLe : List UInt8 → Nat
  | [] => 0
  | b :: rest => b.toNat + 256 * fromLe rest

def toBe (w n : Nat) : List UInt8 := (toLe w n).reverse

def fromBe (l : List UInt8) : Nat := fromLe l.reverse

@[simp] theorem length_toLe (w n : Nat) : (toLe w n).length = w := by
  induction w generalizing n with
  | zero => rfl
  | succ w ih => simp [toLe, ih]

@[simp] theorem length_toBe (w n : Nat) : (toBe w n).length = w := by
  simp [toBe]

theorem fromLe_toLe (w n : Nat) : fromLe (toLe w n) = n % 256 ^ w := by
  induction w generalizing n with
  | zero => simp [toLe, fromLe, Nat.mod_one]
  | succ w ih =>
    have hb : (UInt8.ofNat (n % 256)).toNat = n % 256 := by
      simp
    rw [toLe, fromLe, hb, ih, pow_succ, Nat.mul_comm (256 ^ w) 256, Nat.mod_mul]

theorem fromLe_toLe_of_lt {w n : Nat} (h : n < 256 ^ w) : fromLe (toLe w n) = n := by
  rw [fromLe_toLe, Nat.mod_eq_of_lt h]

theorem fromBe_toBe_of_lt {w n : Nat} (h : n < 256 ^ w) : fromBe (toBe w n) = n := by
  simp [fromBe, toBe, fromLe_toLe_of_lt h]

theorem fromLe_lt (l : List UInt8) : fromLe l < 256 ^ l.length := by
  induction l with
  | nil => simp [fromLe]
  | cons b rest ih =>
    have hb := b.toNat_lt
    rw [fromLe, List.length_cons, pow_succ]
    omega

theorem fromBe_lt (l : List UInt8) : fromBe l < 256 ^ l.length := by
  have h := fromLe_lt l.reverse
  rwa [List.length_reverse] at h

theorem fromLe_append_zeros (l : List UInt8) (n : Nat) :
    fromLe (l ++ List.replicate n 0) = fromLe l := by
  induction l with
  | nil =>
    induction n with
    | zero => rfl
    | succ n ih =>
      rw [List.nil_append] at ih ⊢
      simp only [List.replicate_succ, fromLe] at ih ⊢
      rw [ih]
      rfl
  | cons b rest ih => rw [List.cons_append, fromLe, ih, fromLe]

/-- Leading zeros do not change the number. -/
theorem fromBe_zeros_append (n : Nat) (l : List UInt8) :
    fromBe (List.replicate n 0 ++ l) = fromBe l := by
  rw [fromBe, List.reverse_append, List.reverse_replicate, fromLe_append_zeros, fromBe]

theorem fromLe_injective {a b : List UInt8} (hl : a.length = b.length)
    (h : fromLe a = fromLe b) : a = b := by
  induction a generalizing b with
  | nil => exact (List.length_eq_zero_iff.mp hl.symm).symm
  | cons x a ih =>
    cases b with
    | nil => simp at hl
    | cons y b =>
      simp only [fromLe] at h
      have hx := x.toNat_lt
      have hy := y.toNat_lt
      have hxy : x.toNat = y.toNat := by omega
      have hab : fromLe a = fromLe b := by omega
      rw [UInt8.toNat_inj.mp hxy, ih (by simpa using hl) hab]

/-- The number a byte string reads as, big-endian. Byte strings of one length are
ordered lexicographically exactly as these numbers are. -/
def FixedBytes.num {n : Nat} (a : FixedBytes n) : Nat := fromBe a.bytes

theorem FixedBytes.num_injective (n : Nat) : Function.Injective (num (n := n)) := by
  intro a b h
  apply FixedBytes.ext_bytes
  have := fromLe_injective (a := a.bytes.reverse) (b := b.bytes.reverse)
    (by simp [a.length_eq, b.length_eq]) h
  simpa using this

end Bytes
