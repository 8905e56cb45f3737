import PodConsole.Proofs.Decimal.Digits
import PodConsole.Proofs.Json.Grammar
import PodConsole.Json.Writer
import Mathlib.Data.List.Forall2

namespace PodConsole.Proofs.JsonWriting
open Json Grammar DecimalDigits

theorem digit_digit : ∀ n < 16, Text.Hex.digit? (Text.Hex.digit n) = some n := by
  decide

/-- A unit that two digits write, behind two zeros. -/
theorem hex_unit_low {high low : Char} {n : Nat} (hhigh : Text.Hex.digit? high = some (n / 16))
    (hlow : Text.Hex.digit? low = some (n % 16)) : hexUnit? '0' '0' high low = some n := by
  have hzero : Text.Hex.digit? '0' = some 0 := by decide
  simp only [hexUnit?, hzero, hhigh, hlow, Option.bind_eq_bind, Option.bind_some, Option.pure_def,
    Option.some.injEq]
  omega

theorem spells_escape (c : Char) {r t : List Char} (rest : Spells r t) :
    Spells (escapeChar c ++ r) (c :: t) := by
  unfold escapeChar
  split
  all_goals try exact .short rfl rest
  rename_i hquote hslash _ _ _ _ _
  split
  · rename_i hcontrol
    have hlt : c.toNat < 32 := hcontrol
    have hhigh : c.toNat / 16 < 16 := by omega
    have hlow : c.toNat % 16 < 16 := Nat.mod_lt _ (by decide)
    have hhex := hex_unit_low (digit_digit _ hhigh) (digit_digit _ hlow)
    have hunit := Spells.unit hhex (by simp [isHigh]; omega) (by simp [isLow]; omega) rest
    rwa [Char.ofNat_toNat] at hunit
  · rename_i hprintable
    exact .plain (Char.not_lt.mp hprintable) hquote hslash rest

theorem spells_escaped (cs : List Char) : Spells (cs.flatMap escapeChar) cs := by
  induction cs with
  | nil => exact .nil
  | cons c cs ih => exact spells_escape c ih

theorem quoted_quote (text : String) :
    ∃ raw, (quote text).toList = '"' :: raw ++ ['"'] ∧ Quoted raw (some text) := by
  refine ⟨text.toList.flatMap escapeChar, by simp [quote], ?_⟩
  have h := Quoted.text (spells_escaped text.toList)
  rwa [String.ofList_toList] at h

theorem writes_quote (text : String) : Writes (quote text).toList (.string (some text)) := by
  obtain ⟨raw, hraw, quoted⟩ := quoted_quote text
  rw [hraw]
  exact .string quoted

/-- A number is written with its digits alone. -/
theorem writes_digits (n : Nat) :
    Writes (toString n).toList (.number { whole := Nat.toDigits 10 n }) := by
  have hdigits : Whole (Nat.toDigits 10 n) :=
    ⟨⟨Nat.toDigits_ne_nil, fun _ => to_digits_digit⟩, to_digits_zero⟩
  have h : Numeric false _ { whole := Nat.toDigits 10 n } := .mk hdigits .absent .absent
  simpa using Writes.number h

/-- The members of an object in order, none of them broken. -/
def bound : List (String × Value) → Members
  | [] => .closed
  | (name, v) :: rest => .cons (some name) v (bound rest)

/-- What is written of a member is its name and its value. -/
def Means (written : String × String) (meant : String × Value) : Prop :=
  written.1 = meant.1 ∧ Writes written.2.toList meant.2

theorem blanks_nil : Blanks [] :=
  nofun

theorem writes_members {written : List (String × String)} {meant : List (String × Value)}
    (h : List.Forall₂ Means written meant) (hne : written ≠ []) :
    WritesMembers (",".intercalate (written.map fun (name, value) =>
      quote name ++ ":" ++ value)).toList (bound meant) := by
  induction h with
  | nil => exact absurd rfl hne
  | @cons member mean rest means hm hr ih =>
    obtain ⟨name, value⟩ := member
    obtain ⟨name', v⟩ := mean
    obtain ⟨rfl, hv⟩ := hm
    obtain ⟨raw, hraw, quoted⟩ := quoted_quote name
    cases hr with
    | nil =>
      have := WritesMembers.last blanks_nil quoted blanks_nil blanks_nil hv blanks_nil
      simpa [bound, hraw] using this
    | cons hm' hr' =>
      have := WritesMembers.more blanks_nil quoted blanks_nil blanks_nil hv blanks_nil
        (ih (by simp))
      simpa [bound, hraw, List.intercalate_cons_cons] using this

/-- An object written is the object meant. -/
theorem writes_object {written : List (String × String)} {meant : List (String × Value)}
    (h : List.Forall₂ Means written meant) (hne : written ≠ []) :
    WritesObject (writeObject written).toList (bound meant) := by
  refine ⟨[], (writeObject written).toList, [], by simp, blanks_nil, ?_, blanks_nil⟩
  simpa [writeObject] using Writes.object (writes_members h hne)

end PodConsole.Proofs.JsonWriting
