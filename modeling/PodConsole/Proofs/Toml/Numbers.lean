import PodConsole.Toml.Scalar
import PodConsole.Proofs.Decimal.Digits

namespace PodConsole.Proofs.TomlNumbers
open Toml Decimal DecimalDigits

def Digits (ds : List Char) : Prop :=
  ∀ d ∈ ds, isDigit d = true

/-- What a number, a date or a time may go on with after digits. -/
def further : List Char :=
  ['_', '-', ':', '.', 'e', 'E', 'x', 'o', 'b']

/-- What may stand behind a whole number. -/
def Stops (r : List Char) : Prop :=
  ∀ c r', r = c :: r' → isDigit c = false ∧ c ∉ further

theorem digit_ne {c d : Char} (digit : isDigit c = true) (other : isDigit d = false) : c ≠ d := by
  rintro rfl
  rw [digit] at other
  cases other

theorem Stops.head_ne {c : Char} {r : List Char} (h : Stops (c :: r)) {d : Char}
    (stop : d ∈ further) : c ≠ d := by
  rintro rfl
  exact (h c r rfl).2 stop

section
variable {ds r : List Char}

theorem read_groups_none (stops : Stops r) : readGroups isDigit r = none := by
  cases r with
  | nil => rfl
  | cons c r =>
    obtain ⟨hc, -⟩ := stops c r rfl
    unfold readGroups
    simp [hc]

theorem starts_no_group (stops : Stops r) : readGroups.startsGroup isDigit r = false := by
  cases r with
  | nil => rfl
  | cons c r => exact (stops c r rfl).1

theorem read_groups (digits : Digits ds) (present : ds ≠ []) (stops : Stops r) :
    readGroups isDigit (ds ++ r) = some (ds, r) := by
  induction ds with
  | nil => exact absurd rfl present
  | cons d ds ih =>
    obtain ⟨hd, hds⟩ := List.forall_mem_cons.mp digits
    have hscore : ∀ r', ds ++ r ≠ '_' :: r' := by
      intro r' h
      cases ds with
      | nil => exact (stops _ r' h).2 (by decide)
      | cons e ds =>
        obtain ⟨rfl, -⟩ := List.cons.inj h
        exact absurd (hds _ List.mem_cons_self) (by decide)
    rw [List.cons_append, readGroups.eq_3 _ _ _ hscore]
    cases ds with
    | nil => simp [hd, read_groups_none stops, starts_no_group stops]
    | cons e ds =>
      rw [ih hds (List.cons_ne_nil e ds)]
      simp [hd]

/-- Two digits are taken from the number itself. -/
theorem read_two_rest {low high n : Nat} {rest : List Char} (digits : Digits ds) (stops : Stops r)
    (h : readTwo low high (ds ++ r) = some (n, rest)) : ∃ ds', rest = ds' ++ r ∧ Digits ds' := by
  unfold readTwo at h
  split at h
  · rename_i a b rest' heq
    split at h
    · rename_i htwo
      simp only at h
      split at h
      · cases h
        obtain ⟨ha, hb⟩ : isDigit a = true ∧ isDigit b = true := by simpa using htwo
        -- what stands behind the number does not begin with a digit
        match ds with
        | [] => exact absurd ha (by simp [(stops a _ heq).1])
        | [d] =>
          obtain ⟨rfl, htail⟩ := List.cons.inj heq
          exact absurd hb (by simp [(stops b _ htail).1])
        | d :: e :: ds =>
          obtain ⟨-, htail⟩ := List.cons.inj heq
          obtain ⟨-, rfl⟩ := List.cons.inj htail
          exact ⟨ds, rfl, fun d hd => digits d (by simp [hd])⟩
      · cases h
    · cases h
  · cases h

theorem expect_none {c : Char} (other : isDigit c = false)
    (stop : c ∈ further) (digits : Digits ds)
    (stops : Stops r) : expect c (ds ++ r) = none := by
  match ds, r with
  | [], [] => rfl
  | [], d :: r => simp [expect, stops.head_ne stop]
  | d :: ds, r => simp [expect, digit_ne (digits d List.mem_cons_self) other]

theorem read_date_none (digits : Digits ds) (stops : Stops r) : readDate (ds ++ r) = none := by
  unfold readDate
  rcases hcentury : readTwo 0 99 (ds ++ r) with _ | ⟨century, rest⟩
  · rfl
  obtain ⟨ds, rfl, digits⟩ := read_two_rest digits stops hcentury
  rcases hyears : readTwo 0 99 (ds ++ r) with _ | ⟨years, rest⟩
  · simp [hyears]
  obtain ⟨ds, rfl, digits⟩ := read_two_rest digits stops hyears
  simp [hyears, expect_none (show isDigit '-' = false by decide) (by decide) digits stops]

theorem read_time_none (digits : Digits ds) (stops : Stops r) : readTime (ds ++ r) = none := by
  unfold readTime
  rcases hhours : readTwo 0 23 (ds ++ r) with _ | ⟨hours, rest⟩
  · rfl
  obtain ⟨ds, rfl, digits⟩ := read_two_rest digits stops hhours
  simp [expect_none (show isDigit ':' = false by decide) (by decide) digits stops]

theorem read_moment_none (digits : Digits ds) (stops : Stops r) : readMoment (ds ++ r) = none := by
  simp [readMoment, read_date_none digits stops, read_time_none digits stops]

end

/-- Decimal digits of a whole number, and what stands behind them. -/
structure Written (ds r : List Char) : Prop where
  digits : Digits ds
  present : ds ≠ []
  /-- Only zero itself begins with a zero. -/
  zero : ds.head? = some '0' → ds = ['0']
  stops : Stops r

namespace Written
variable {ds r : List Char}

theorem head_ne (h : Written ds r) {c : Char} (other : isDigit c = false) (r' : List Char) :
    ds ++ r ≠ c :: r' := by
  intro heq
  obtain ⟨d, ds', rfl⟩ := List.exists_cons_of_ne_nil h.present
  obtain ⟨rfl, -⟩ := List.cons.inj heq
  exact digit_ne (h.digits d List.mem_cons_self) other rfl

theorem read_flag (h : Written ds r) : readFlag (ds ++ r) = none :=
  readFlag.eq_3 _ (fun _ => h.head_ne (by decide) _) (fun _ => h.head_ne (by decide) _)

theorem read_sign (h : Written ds r) : readSign (ds ++ r) = (false, ds ++ r) :=
  readSign.eq_3 _ (h.head_ne (by decide)) (h.head_ne (by decide))

theorem read_decimal (h : Written ds r) : readDecimal (ds ++ r) = some (ds, r) := by
  by_cases hzero : ds.head? = some '0'
  · rw [h.zero hzero]
    rfl
  · rw [readDecimal.eq_2 _ _, read_groups h.digits h.present h.stops]
    intro r' h'
    obtain ⟨d, ds', rfl⟩ := List.exists_cons_of_ne_nil h.present
    obtain ⟨rfl, -⟩ := List.cons.inj h'
    exact hzero rfl

theorem read_exponent (h : Written ds r) : readExponent r = none := by
  cases r with
  | nil => rfl
  | cons c r =>
    simp [readExponent, h.stops.head_ne (d := 'e') (by decide),
      h.stops.head_ne (d := 'E') (by decide)]

theorem read_plain_float (h : Written ds r) : readPlainFloat (ds ++ r) = none := by
  have hdot : ∀ r', r ≠ '.' :: r' := by
    intro r' heq
    exact (h.stops _ r' heq).2 (by decide)
  simp [readPlainFloat, h.read_sign, h.read_decimal, h.read_exponent]

theorem read_special_float (h : Written ds r) : readSpecialFloat (ds ++ r) = none := by
  rw [readSpecialFloat, h.read_sign]
  simp only
  split
  · rename_i heq
    exact absurd heq (h.head_ne (by decide) _)
  · rename_i heq
    exact absurd heq (h.head_ne (by decide) _)
  · rfl

/-- No base is named, since what stands behind a zero is not its letter. -/
theorem no_base (h : Written ds r) {c : Char} (base : c ∈ ['x', 'o', 'b']) (r' : List Char) :
    ds ++ r ≠ '0' :: c :: r' := by
  intro heq
  obtain ⟨d, ds', rfl⟩ := List.exists_cons_of_ne_nil h.present
  obtain ⟨rfl, -⟩ := List.cons.inj heq
  rw [h.zero rfl] at heq
  obtain ⟨-, hr⟩ := List.cons.inj heq
  have hstop := (h.stops c r' hr).2
  simp only [List.mem_cons, List.not_mem_nil, or_false] at base
  rcases base with rfl | rfl | rfl <;> exact hstop (by decide)

theorem read_integer (h : Written ds r) (fits : ofDigits ds ≤ maxSigned) :
    readInteger (ds ++ r) = some (.integer (ofDigits ds), r) := by
  rw [readInteger.eq_4 _ (h.no_base (by decide)) (h.no_base (by decide)) (h.no_base (by decide))]
  simp [h.read_sign, h.read_decimal, signed?, fits]

theorem read_scalar (h : Written ds r) (fits : ofDigits ds ≤ maxSigned) :
    readScalar (ds ++ r) = some (.integer (ofDigits ds), r) := by
  simp [readScalar, readFloat, h.read_flag, read_moment_none h.digits h.stops, h.read_plain_float,
    h.read_special_float, h.read_integer fits]

end Written

theorem written_digits (n : Nat) {r : List Char} (stops : Stops r) :
    Written (Nat.toDigits 10 n) r where
  digits _ := to_digits_digit
  present := Nat.toDigits_ne_nil
  zero := to_digits_zero
  stops := stops

/-- A number that fits is read back as it was. -/
theorem read_number {n : Nat} (fits : n ≤ maxSigned) {r : List Char} (stops : Stops r) :
    readScalar (Nat.toDigits 10 n ++ r) = some (.integer n, r) := by
  have h := (written_digits n stops).read_scalar (by rwa [of_digits_to_digits])
  rwa [of_digits_to_digits] at h

end PodConsole.Proofs.TomlNumbers
