import BitcoinIpc.Lib.Bytes
import Mathlib.Data.Nat.Digits.Defs
import Mathlib.Tactic.IntervalCases

/-!
# Printed keys

Decimal numbers and hexadecimal bytes as texts, and texts joined by a separator
character. Fields that do not hold the separator can be read back from the
joined text, and so can the fact that one text is the start of another.
-/

namespace Text

open Bytes

def decimal (n : Nat) : List Char := Nat.toDigits 10 n

theorem decimal_injective : Function.Injective decimal := by
  intro a b h
  rw [← Nat.ofDigitChars_ten_toDigits (n := a), ← Nat.ofDigitChars_ten_toDigits (n := b)]
  exact congrArg _ h

theorem decimal_no_colon (n : Nat) : ':' ∉ decimal n := by
  intro h
  have := Nat.isDigit_of_mem_toDigits (b := 10) (by omega) (by omega) h
  exact absurd this (by decide)

theorem decimal_no_slash (n : Nat) : '/' ∉ decimal n := by
  intro h
  have := Nat.isDigit_of_mem_toDigits (b := 10) (by omega) (by omega) h
  exact absurd this (by decide)

/-- Numbers of one digit are printed in their order. -/
theorem decimal_lt_of_digit {n m : Nat} (h : n < m) (hm : m ≤ 9) : decimal n < decimal m := by
  have hn : n ≤ 8 := by omega
  interval_cases m <;> interval_cases n <;> first | omega | decide

/-- Ten is printed before two. -/
theorem decimal_ten_lt_two : decimal 10 < decimal 2 := by decide

def hexDigit (n : Nat) : Char := "0123456789abcdef".toList.getD n '0'

def hexByte (b : UInt8) : List Char := [hexDigit (b.toNat / 16), hexDigit (b.toNat % 16)]

def hexBytes (l : List UInt8) : List Char := l.flatMap hexByte

def unhexDigit (c : Char) : Nat := "0123456789abcdef".toList.idxOf c

theorem unhexDigit_hexDigit {n : Nat} (h : n < 16) : unhexDigit (hexDigit n) = n := by
  interval_cases n <;> decide

theorem hexDigit_ne_colon (n : Nat) : hexDigit n ≠ ':' := by
  by_cases h : n < 16
  · interval_cases n <;> decide
  · have hlen : "0123456789abcdef".toList.length ≤ n := by
      have : "0123456789abcdef".toList.length = 16 := by decide
      omega
    have : hexDigit n = '0' := by
      rw [hexDigit, List.getD_eq_getElem?_getD, List.getElem?_eq_none hlen]
      rfl
    rw [this]
    decide

theorem hexByte_injective : Function.Injective hexByte := by
  intro a b h
  simp only [hexByte, List.cons.injEq, and_true] at h
  have ha := a.toNat_lt
  have hb := b.toNat_lt
  have hdiv := congrArg unhexDigit h.1
  have hmod := congrArg unhexDigit h.2
  rw [unhexDigit_hexDigit (by omega), unhexDigit_hexDigit (by omega)] at hdiv hmod
  exact UInt8.toNat_inj.mp (by omega)

theorem hexBytes_injective : Function.Injective hexBytes := by
  intro a
  induction a with
  | nil =>
    intro b h
    cases b with
    | nil => rfl
    | cons y b => simp [hexBytes, hexByte] at h
  | cons x a ih =>
    intro b h
    cases b with
    | nil => simp [hexBytes, hexByte] at h
    | cons y b =>
      have h' : hexByte x ++ hexBytes a = hexByte y ++ hexBytes b := h
      obtain ⟨hx, hr⟩ := List.append_inj h' rfl
      rw [hexByte_injective hx, ih hr]

theorem hexBytes_no_colon (l : List UInt8) : ':' ∉ hexBytes l := by
  intro h
  obtain ⟨b, -, hb⟩ := List.mem_flatMap.mp h
  simp only [hexByte, List.mem_cons, List.not_mem_nil, or_false] at hb
  rcases hb with hb | hb
  · exact hexDigit_ne_colon _ hb.symm
  · exact hexDigit_ne_colon _ hb.symm

theorem hexBytes_no_slash (l : List UInt8) : '/' ∉ hexBytes l := by
  have hdigit : ∀ n, n < 16 → '/' ≠ hexDigit n := by
    intro n hn
    interval_cases n <;> decide
  intro h
  obtain ⟨b, -, hb⟩ := List.mem_flatMap.mp h
  have hlt := b.toNat_lt
  rcases List.mem_pair.mp hb with hb | hb
  · exact hdigit _ (by omega) hb
  · exact hdigit _ (by omega) hb

section Joined

variable {α : Type} {c : α}

/-- The first field of a joined text is what stands before the first separator. -/
theorem join_inj {a b s t : List α} (ha : c ∉ a) (hb : c ∉ b)
    (h : a ++ c :: s = b ++ c :: t) : a = b ∧ s = t := by
  induction a generalizing b with
  | nil =>
    cases b with
    | nil => exact ⟨rfl, List.tail_eq_of_cons_eq h⟩
    | cons y b =>
      have : c = y := List.head_eq_of_cons_eq h
      exact absurd (by simp [this]) hb
  | cons x a ih =>
    cases b with
    | nil =>
      have : x = c := List.head_eq_of_cons_eq h
      exact absurd (by simp [this]) ha
    | cons y b =>
      have hxy : x = y := List.head_eq_of_cons_eq h
      have htail := List.tail_eq_of_cons_eq h
      have ⟨hab, hst⟩ := ih (fun m => ha (List.mem_cons_of_mem x m))
        (fun m => hb (List.mem_cons_of_mem y m)) htail
      exact ⟨by rw [hxy, hab], hst⟩

/-- Among texts of one length, starting with a text means having it as first field. -/
theorem eq_of_prefix_of_length {a b s : List α} (hl : a.length = b.length)
    (h : a <+: b ++ s) : a = b := by
  obtain ⟨r, hr⟩ := h
  exact (List.append_inj hr hl).1

end Joined

end Text
