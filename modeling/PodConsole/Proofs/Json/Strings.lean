import PodConsole.Proofs.Json.Grammar

namespace PodConsole.Proofs.JsonStrings
open Json Grammar

variable {back raw t r : List Char} {sound : Bool}

theorem read_close (back : List Char) (sound : Bool) (r : List Char) :
    readString back sound ('"' :: r) =
      some (if sound then some (String.ofList back.reverse) else none, r) := by
  rw [readString]

theorem escape_not_unit {e c : Char} (h : escape? e = some c) : e ≠ 'u' := by
  rintro rfl
  cases h

theorem read_plain {c : Char} (printable : ' ' ≤ c) (no_quote : c ≠ '"') (no_escape : c ≠ '\\')
    (back : List Char) (sound : Bool) (r : List Char) :
    readString back sound (c :: r) = readString (c :: back) sound r := by
  rw [readString]
  · rw [if_neg (Char.not_lt.mpr printable)]
  · exact fun h => no_quote h
  · intro _ _ _ _ _ h
    exact absurd h no_escape
  · intro _ _ h
    exact absurd h no_escape

theorem read_short {e c : Char} (named : escape? e = some c) (back : List Char) (sound : Bool)
    (r : List Char) : readString back sound ('\\' :: e :: r) = readString (c :: back) sound r := by
  rw [readString]
  · rw [named]
  · intro _ _ _ _ _ h
    exact absurd h (escape_not_unit named)

theorem read_unit {a b c d : Char} {n : Nat} (code : hexUnit? a b c d = some n)
    (not_high : isHigh n = false) (not_low : isLow n = false) (back : List Char) (sound : Bool)
    (r : List Char) : readString back sound ('\\' :: 'u' :: a :: b :: c :: d :: r) =
      readString (Char.ofNat n :: back) sound r := by
  rw [readString]
  simp [code, not_high, not_low]

theorem read_pair {a b c d e f g h : Char} {high low : Nat} (first : hexUnit? a b c d = some high)
    (is_high : isHigh high = true) (second : hexUnit? e f g h = some low)
    (is_low : isLow low = true) (back : List Char) (sound : Bool) (r : List Char) :
    readString back sound
        ('\\' :: 'u' :: a :: b :: c :: d :: '\\' :: 'u' :: e :: f :: g :: h :: r) =
      readString (Json.pair high low :: back) sound r := by
  have not_low : isLow high = false := by
    simp only [isHigh, isLow, Bool.and_eq_true, decide_eq_true_eq, Bool.and_eq_false_imp,
      decide_eq_false_iff_not] at is_high ⊢
    omega
  rw [readString]
  simp [first, second, is_high, is_low, not_low]

/-- What spells a text is read as that text. -/
theorem read_spelled (h : Spells raw t) (back r : List Char) :
    readString back true (raw ++ '"' :: r) =
      some (some (String.ofList (back.reverse ++ t)), r) := by
  induction h generalizing back with
  | nil => simp [read_close]
  | plain printable no_quote no_escape _ ih =>
    rw [List.cons_append, read_plain printable no_quote no_escape, ih]
    simp
  | short named _ ih =>
    rw [List.cons_append, List.cons_append, read_short named, ih]
    simp
  | unit code not_high not_low _ ih =>
    simp only [List.cons_append]
    rw [read_unit code not_high not_low, ih]
    simp
  | pair first is_high second is_low _ ih =>
    simp only [List.cons_append]
    rw [read_pair first is_high second is_low, ih]
    simp

theorem read_low {a b c d : Char} {n : Nat} (code : hexUnit? a b c d = some n)
    (is_low : isLow n = true) (back : List Char) (sound : Bool) (r : List Char) :
    readString back sound ('\\' :: 'u' :: a :: b :: c :: d :: r) = readString back false r := by
  rw [readString]
  simp [code, is_low]

/-- A high surrogate without a low one behind it only spoils the text. -/
theorem read_high {a b c d : Char} {n : Nat} (code : hexUnit? a b c d = some n)
    (is_high : isHigh n = true) (not_low : isLow n = false)
    (apart : ∀ e f g h r', r = '\\' :: 'u' :: e :: f :: g :: h :: r' →
      ∃ m, hexUnit? e f g h = some m ∧ isLow m = false)
    (back : List Char) (sound : Bool) :
    readString back sound ('\\' :: 'u' :: a :: b :: c :: d :: r) = readString back false r := by
  rw [readString]
  simp only [code, is_high, not_low, Bool.false_eq_true, if_false, if_true]
  split
  · rename_i e f g h r'
    obtain ⟨m, hm, hl⟩ := apart e f g h r' rfl
    simp [hm, hl]
  · rfl

/-- Whatever is well formed between two quotes is read up to the second one. -/
theorem read_escaped (h : Escaped raw) (back : List Char) (sound : Bool) (r : List Char) :
    ∃ text, readString back sound (raw ++ '"' :: r) = some (text, r) := by
  -- Two surrogates are read at once, so the induction is on the length.
  induction hn : raw.length using Nat.strongRecOn generalizing raw back sound with
  | ind n ih =>
    cases h with
    | nil => exact ⟨_, read_close back sound r⟩
    | plain printable no_quote no_escape rest =>
      rw [List.cons_append, read_plain printable no_quote no_escape]
      exact ih _ (by simp at hn; omega) rest _ _ rfl
    | short named rest =>
      rw [List.cons_append, List.cons_append, read_short named]
      exact ih _ (by simp at hn; omega) rest _ _ rfl
    | @unit a b c d m tail code rest =>
      simp only [List.cons_append]
      simp only [List.length_cons] at hn
      cases hl : isLow m with
      | true =>
        rw [read_low code hl]
        exact ih _ (by omega) rest _ _ rfl
      | false =>
        cases hh : isHigh m with
        | false =>
          rw [read_unit code hh hl]
          exact ih _ (by omega) rest _ _ rfl
        | true =>
          cases rest with
          | nil =>
            rw [read_high code hh hl (by simp)]
            exact ⟨_, read_close back false r⟩
          | plain printable no_quote no_escape rest =>
            rw [read_high code hh hl (by simp [no_escape])]
            exact ih _ (by omega) (.plain printable no_quote no_escape rest) _ _ rfl
          | short named rest =>
            rw [read_high code hh hl (by simp [escape_not_unit named])]
            exact ih _ (by omega) (.short named rest) _ _ rfl
          | @unit e f g h low tail' code' rest' =>
            simp only [List.length_cons] at hn
            cases hl' : isLow low with
            | true =>
              simp only [List.cons_append]
              rw [read_pair code hh code' hl']
              exact ih _ (by omega) rest' _ _ rfl
            | false =>
              have hapart : ∀ e' f' g' h' r',
                  ('\\' :: 'u' :: e :: f :: g :: h :: tail') ++ '"' :: r =
                    '\\' :: 'u' :: e' :: f' :: g' :: h' :: r' →
                  ∃ m, hexUnit? e' f' g' h' = some m ∧ isLow m = false := by
                intro e' f' g' h' r' he
                simp only [List.cons_append, List.cons.injEq, true_and] at he
                obtain ⟨rfl, rfl, rfl, rfl, -⟩ := he
                exact ⟨low, code', hl'⟩
              rw [read_high code hh hl hapart]
              exact ih _ (by simp; omega) (.unit code' rest') _ _ rfl

/-- What the reader has taken when it stops behind the closing quote. -/
def Taken (back : List Char) (sound : Bool) (cs : List Char) (text : Option String)
    (r : List Char) : Prop :=
  ∃ raw, cs = raw ++ '"' :: r ∧ Escaped raw ∧ ∀ s, text = some s →
    sound = true ∧ ∃ t, Spells raw t ∧ s = String.ofList (back.reverse ++ t)

variable {cs : List Char} {text : Option String}

theorem Taken.character {c : Char} (h : Taken (c :: back) sound cs text r) (piece : List Char)
    (escapes : ∀ raw, Escaped raw → Escaped (piece ++ raw))
    (spells : ∀ raw t, Spells raw t → Spells (piece ++ raw) (c :: t)) :
    Taken back sound (piece ++ cs) text r := by
  obtain ⟨raw, rfl, he, hs⟩ := h
  refine ⟨piece ++ raw, by simp, escapes raw he, fun s ht => ?_⟩
  obtain ⟨hsound, t, hsp, rfl⟩ := hs s ht
  exact ⟨hsound, c :: t, spells raw t hsp, by simp⟩

theorem Taken.spoiled (h : Taken back false cs text r) (piece : List Char)
    (escapes : ∀ raw, Escaped raw → Escaped (piece ++ raw)) :
    Taken back sound (piece ++ cs) text r := by
  obtain ⟨raw, rfl, he, hs⟩ := h
  refine ⟨piece ++ raw, by simp, escapes raw he, fun s ht => ?_⟩
  exact absurd (hs s ht).1 nofun

/-- Whatever the reader accepts is well formed, and the text it tells is the one spelled. -/
theorem taken_of_read (h : readString back sound cs = some (text, r)) :
    Taken back sound cs text r := by
  fun_induction readString back sound cs with
  | case1 | case3 | case5 | case11 | case12 => cases h
  | case2 back sound r' =>
    simp only [Option.some.injEq, Prod.mk.injEq] at h
    obtain ⟨rfl, rfl⟩ := h
    refine ⟨[], rfl, .nil, fun s ht => ?_⟩
    cases sound with
    | false => cases ht
    | true => exact ⟨rfl, [], .nil, by simpa using ht.symm⟩
  | case4 back sound a b c d r' n code is_low ih =>
    exact (ih h).spoiled ['\\', 'u', a, b, c, d] fun _ => .unit code
  | case6 back sound a b c d high code not_low is_high e f g h' r' low code' is_low ih =>
    exact (ih h).character ['\\', 'u', a, b, c, d, '\\', 'u', e, f, g, h']
      (fun _ he => .unit code (.unit code' he)) fun _ _ => .pair code is_high code' is_low
  | case7 back sound a b c d high code not_low is_high e f g h' r' low code' not_low' ih =>
    exact (ih h).spoiled ['\\', 'u', a, b, c, d] fun _ => .unit code
  | case8 back sound a b c d high code not_low is_high r' apart ih =>
    exact (ih h).spoiled ['\\', 'u', a, b, c, d] fun _ => .unit code
  | case9 back sound a b c d r' n code not_low not_high ih =>
    exact (ih h).character ['\\', 'u', a, b, c, d] (fun _ => .unit code) fun _ _ =>
      .unit code (by simpa using not_high) (by simpa using not_low)
  | case10 back sound e r' not_unit c named ih =>
    exact (ih h).character ['\\', e] (fun _ => .short named) fun _ _ => .short named
  | case13 back sound c r' no_quote no_unit no_short printable ih =>
    have no_escape : c ≠ '\\' := by
      rintro rfl
      cases r' with
      | nil => simp [readString] at h
      | cons e r'' => exact no_short e r'' rfl rfl
    have printable : ' ' ≤ c := Char.not_lt.mp printable
    exact (ih h).character [c] (fun _ => .plain printable no_quote no_escape) fun _ _ =>
      .plain printable no_quote no_escape

/-- A string is read as what is quoted, and nothing else is. -/
theorem read_string_iff {cs r : List Char} {text : Option String} :
    readString [] true cs = some (text, r) ↔ ∃ raw, cs = raw ++ '"' :: r ∧ Quoted raw text := by
  constructor
  · intro h
    obtain ⟨raw, rfl, he, hs⟩ := taken_of_read h
    refine ⟨raw, rfl, ?_⟩
    cases text with
    | some s =>
      obtain ⟨-, t, ht, rfl⟩ := hs s rfl
      exact .text ht
    | none =>
      refine .lone he fun t ht => ?_
      rw [read_spelled ht] at h
      cases h
  · rintro ⟨raw, rfl, hq⟩
    cases hq with
    | text ht => exact read_spelled ht [] r
    | lone he alone =>
      obtain ⟨text, ht⟩ := read_escaped he [] true r
      cases text with
      | none => exact ht
      | some s =>
        obtain ⟨raw', hr, -, hs⟩ := taken_of_read ht
        obtain ⟨-, t, hsp, -⟩ := hs s rfl
        rw [← List.append_cancel_right hr] at hsp
        exact absurd hsp (alone t)

end PodConsole.Proofs.JsonStrings
