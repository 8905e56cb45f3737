import PodConsole.Proofs.Json.Grammar
import Mathlib.Data.List.TakeWhile

namespace PodConsole.Proofs.JsonNumbers
open Json Decimal Grammar

variable {cs ds r : List Char}

/-- No number goes on with this text. -/
def Ended (r : List Char) : Prop :=
  ∀ c ∈ r.head?, isDigit c = false ∧ c ≠ '.' ∧ c ≠ 'e' ∧ c ≠ 'E'

theorem take_digits (h : Digits ds) (hr : ∀ c ∈ r.head?, isDigit c = false) :
    (ds ++ r).takeWhile isDigit = ds := by
  rw [List.takeWhile_append_of_pos h.2]
  cases r with
  | nil => simp
  | cons c r => simp [hr c rfl]

theorem drop_digits (h : Digits ds) (hr : ∀ c ∈ r.head?, isDigit c = false) :
    (ds ++ r).dropWhile isDigit = r := by
  rw [List.dropWhile_append_of_pos h.2]
  cases r with
  | nil => simp
  | cons c r => simp [hr c rfl]

theorem digits_of_take (h : cs.takeWhile isDigit ≠ []) : Digits (cs.takeWhile isDigit) :=
  ⟨h, fun _ hd => List.mem_takeWhile_imp hd⟩

theorem read_whole (h : Whole ds) (hr : ∀ c ∈ r.head?, isDigit c = false) :
    readWhole? (ds ++ r) = some (ds, r) := by
  obtain ⟨hd, hz⟩ := h
  unfold readWhole?
  simp only [take_digits hd hr, drop_digits hd hr]
  split
  · exact absurd rfl hd.1
  · rfl
  · rename_i rest hne
    exact absurd (List.cons.inj (hz rfl)).2 hne
  · rfl

theorem whole_of_read (h : readWhole? cs = some (ds, r)) : cs = ds ++ r ∧ Whole ds := by
  unfold readWhole? at h
  have he : cs = cs.takeWhile isDigit ++ cs.dropWhile isDigit :=
    List.takeWhile_append_dropWhile.symm
  have hd : cs.takeWhile isDigit ≠ [] → Digits (cs.takeWhile isDigit) := digits_of_take
  generalize cs.takeWhile isDigit = ds' at h he hd
  simp only at h
  split at h
  · cases h
  · cases h
    exact ⟨he, hd (by simp), fun _ => rfl⟩
  · cases h
  · rename_i hne hsole hzero
    cases h
    refine ⟨he, hd hne, fun hh => ?_⟩
    cases ds with
    | nil => cases hh
    | cons d rest =>
      cases hh
      exact absurd rfl (hzero rest)

theorem read_fraction {f fraction : List Char} (h : Fraction f fraction)
    (hr : ∀ c ∈ r.head?, isDigit c = false ∧ c ≠ '.') :
    readFraction? (f ++ r) = some (fraction, r) := by
  cases h with
  | absent =>
    rw [List.nil_append]
    unfold readFraction?
    split
    · exact absurd rfl (hr '.' rfl).2
    · rfl
  | present digits =>
    have hn : ∀ c ∈ r.head?, isDigit c = false := fun c hc => (hr c hc).1
    simp [readFraction?, take_digits digits hn, drop_digits digits hn, digits.1]

theorem fraction_of_read {fraction : List Char} (h : readFraction? cs = some (fraction, r)) :
    ∃ f, cs = f ++ r ∧ Fraction f fraction := by
  unfold readFraction? at h
  split at h
  · rename_i r'
    simp only at h
    split at h
    · cases h
    · rename_i hne
      cases h
      refine ⟨'.' :: r'.takeWhile isDigit, by simp, .present (digits_of_take ?_)⟩
      simpa using hne
  · cases h
    exact ⟨[], rfl, .absent⟩

theorem exponent_sign {sign : List Char} {down : Bool} (h : Sign sign down)
    (hr : ∀ c ∈ r.head?, c ≠ '-' ∧ c ≠ '+') : exponentSign (sign ++ r) = (down, r) := by
  cases h with
  | absent =>
    rw [List.nil_append]
    unfold exponentSign
    split
    · exact absurd rfl (hr '-' rfl).1
    · exact absurd rfl (hr '+' rfl).2
    · rfl
  | plus | minus => rfl

theorem sign_of_exponent (cs : List Char) :
    ∃ sign, cs = sign ++ (exponentSign cs).2 ∧ Sign sign (exponentSign cs).1 := by
  unfold exponentSign
  split
  · exact ⟨['-'], rfl, .minus⟩
  · exact ⟨['+'], rfl, .plus⟩
  · exact ⟨[], rfl, .absent⟩

theorem read_exponent {e : List Char} {exponent : Option (Bool × List Char)}
    (h : Exponent e exponent) (hr : Ended r) : readExponent? (e ++ r) = some (exponent, r) := by
  cases h with
  | absent =>
    cases r with
    | nil => rfl
    | cons c r =>
      obtain ⟨-, -, he, hE⟩ := hr c rfl
      simp [readExponent?, he, hE]
  | @present e sign ds down letter signed digits =>
    have hn : ∀ c ∈ r.head?, isDigit c = false := fun c hc => (hr c hc).1
    have hs : ∀ c ∈ (ds ++ r).head?, c ≠ '-' ∧ c ≠ '+' := by
      intro c hc
      obtain ⟨d, rest, rfl⟩ := List.exists_cons_of_ne_nil digits.1
      cases hc
      have := digits.2 c (by simp)
      constructor <;> rintro rfl <;> simp [isDigit] at this
    have hsign : exponentSign (sign ++ (ds ++ r)) = (down, ds ++ r) := exponent_sign signed hs
    simp [readExponent?, letter, hsign, take_digits digits hn, drop_digits digits hn, digits.1]

theorem exponent_of_read {exponent : Option (Bool × List Char)}
    (h : readExponent? cs = some (exponent, r)) : ∃ e, cs = e ++ r ∧ Exponent e exponent := by
  unfold readExponent? at h
  split at h
  · rename_i c r'
    split at h
    · rename_i letter
      obtain ⟨sign, hr, hsign⟩ := sign_of_exponent r'
      simp only at h
      split at h
      · cases h
      · rename_i hne
        cases h
        refine ⟨c :: sign ++ (exponentSign r').2.takeWhile isDigit, ?_,
          .present (by simpa using letter) hsign (digits_of_take (by simpa using hne))⟩
        simpa using hr
    · cases h
      exact ⟨[], rfl, .absent⟩
  · cases h
    exact ⟨[], rfl, .absent⟩

theorem head_exponent {e : List Char} {exponent : Option (Bool × List Char)}
    (h : Exponent e exponent) (hr : Ended r) :
    ∀ c ∈ (e ++ r).head?, isDigit c = false ∧ c ≠ '.' := by
  intro c hc
  cases h with
  | absent =>
    obtain ⟨hd, hp, -⟩ := hr c hc
    exact ⟨hd, hp⟩
  | present letter signed digits =>
    cases hc
    rcases letter with rfl | rfl <;> decide

theorem head_fraction {f fraction : List Char} (h : Fraction f fraction)
    (hr : ∀ c ∈ r.head?, isDigit c = false ∧ c ≠ '.') :
    ∀ c ∈ (f ++ r).head?, isDigit c = false := by
  intro c hc
  cases h with
  | absent => exact (hr c hc).1
  | present digits =>
    cases hc
    decide

variable {negative : Bool} {n : Numeral}

theorem read_numeral (h : Numeric negative cs n) (hr : Ended r) :
    readNumeral? negative (cs ++ r) = some (n, r) := by
  obtain ⟨integer, fractional, scaled⟩ := h
  have he := head_exponent scaled hr
  simp only [List.append_assoc, readNumeral?, read_whole integer (head_fraction fractional he),
    read_fraction fractional he, read_exponent scaled hr, Option.bind_eq_bind, Option.bind_some,
    Option.pure_def]

theorem numeral_of_read (h : readNumeral? negative cs = some (n, r)) :
    ∃ t, cs = t ++ r ∧ Numeric negative t n := by
  simp only [readNumeral?, Option.bind_eq_bind, Option.bind_eq_some_iff, Prod.exists,
    Option.pure_def, Option.some.injEq, Prod.mk.injEq] at h
  obtain ⟨whole, r₁, hw, fraction, r₂, hf, exponent, r₃, he, rfl, rfl⟩ := h
  obtain ⟨rfl, integer⟩ := whole_of_read hw
  obtain ⟨f, rfl, fractional⟩ := fraction_of_read hf
  obtain ⟨e, rfl, scaled⟩ := exponent_of_read he
  exact ⟨whole ++ f ++ e, by simp, .mk integer fractional scaled⟩

/-- A number begins with a digit. -/
theorem numeric_head (h : Numeric negative cs n) : ∃ d rest, cs = d :: rest ∧ isDigit d = true := by
  obtain ⟨integer, -, -⟩ := h
  obtain ⟨d, rest, rfl⟩ := List.exists_cons_of_ne_nil integer.1.1
  exact ⟨d, _, rfl, integer.1.2 d (by simp)⟩

end PodConsole.Proofs.JsonNumbers
