import PodConsole.Decimal.Digits

namespace PodConsole.Proofs.DecimalDigits
open Decimal

theorem to_digits_digit {n : Nat} {d : Char} (h : d ∈ Nat.toDigits 10 n) : isDigit d = true := by
  have := Nat.isDigit_of_mem_toDigits (by decide) (by decide) h
  simpa [isDigit, Char.isDigit, Char.le_def] using this

theorem of_digits_to_digits (n : Nat) : ofDigits (Nat.toDigits 10 n) = n := by
  have h := @Nat.ofDigitChars_ten_toDigits n
  rw [Nat.ofDigitChars_eq_foldl] at h
  have hstep : (fun n d => n * 10 + digitValue d) =
      fun (sofar : Nat) (c : Char) => 10 * sofar + (c.toNat - '0'.toNat) := by
    funext n d
    rw [Nat.mul_comm]
    rfl
  rw [ofDigits, hstep, h]

/-- Only zero itself begins with a zero. -/
theorem to_digits_zero {n : Nat} (h : (Nat.toDigits 10 n).head? = some '0') :
    Nat.toDigits 10 n = ['0'] := by
  induction n using Nat.strongRecOn with
  | ind n ih =>
    by_cases hn : n < 10
    · rw [Nat.toDigits_of_lt_base hn] at h ⊢
      simpa using h
    · rw [Nat.toDigits_of_base_le (by decide) (Nat.not_lt.mp hn)] at h
      have hne : Nat.toDigits 10 (n / 10) ≠ [] := Nat.toDigits_ne_nil
      obtain ⟨d, ds, hds⟩ := List.exists_cons_of_ne_nil hne
      have hz := ih (n / 10) (Nat.div_lt_self (by omega) (by decide)) (by simpa [hds] using h)
      have hv := of_digits_to_digits (n / 10)
      rw [hz] at hv
      have : n / 10 = 0 := hv.symm
      omega

end PodConsole.Proofs.DecimalDigits
