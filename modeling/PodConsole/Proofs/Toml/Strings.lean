import PodConsole.Proofs.Json.Writing
import PodConsole.Toml.Quote
import PodConsole.Toml.Writer
import Mathlib.Data.List.TakeWhile

namespace PodConsole.Proofs.TomlStrings
open Toml

/-- How many of one character stand in front. -/
def lead (q : Char) (cs : List Char) : Nat :=
  (cs.takeWhile (· = q)).length

@[simp] theorem lead_nil (q : Char) : lead q [] = 0 := rfl

@[simp] theorem lead_same (q : Char) (cs : List Char) : lead q (q :: cs) = lead q cs + 1 := by
  simp [lead]

theorem lead_other {c q : Char} (h : c ≠ q) (cs : List Char) : lead q (c :: cs) = 0 := by
  simp [lead, h]

/-- One step of counting: the run that lasts, and the longest. -/
def count (q : Char) (runs : Nat × Nat) (c : Char) : Nat × Nat :=
  if c = q then (runs.1 + 1, max runs.2 (runs.1 + 1)) else (0, runs.2)

theorem longest_run_eq (q : Char) (cs : List Char) :
    longestRun q cs = (cs.foldl (count q) (0, 0)).2 := rfl

theorem count_mono (q : Char) (cs : List Char) {run longest run' longest' : Nat}
    (hrun : run ≤ run') (hlongest : longest ≤ longest') :
    (cs.foldl (count q) (run, longest)).2 ≤ (cs.foldl (count q) (run', longest')).2 := by
  induction cs generalizing run longest run' longest' with
  | nil => exact hlongest
  | cons c cs ih =>
    by_cases h : c = q
    · simpa [count, h] using ih (by omega) (by omega)
    · simpa [count, h] using ih (Nat.le_refl 0) hlongest

theorem longest_run_tail (q c : Char) (cs : List Char) :
    longestRun q cs ≤ longestRun q (c :: cs) := by
  rw [longest_run_eq, longest_run_eq, List.foldl_cons]
  exact count_mono q cs (Nat.zero_le _) (Nat.zero_le _)

theorem lead_le_count (q : Char) (cs : List Char) {run longest : Nat} (h : run ≤ longest) :
    longest ≤ (cs.foldl (count q) (run, longest)).2 ∧
      run + lead q cs ≤ (cs.foldl (count q) (run, longest)).2 := by
  induction cs generalizing run longest with
  | nil => simpa using h
  | cons c cs ih =>
    by_cases hc : c = q
    · subst hc
      obtain ⟨hlongest, hrun⟩ := ih (Nat.le_max_right longest (run + 1))
      rw [lead_same, List.foldl_cons]
      simp only [count, if_true]
      omega
    · obtain ⟨hlongest, -⟩ := ih (Nat.zero_le longest)
      rw [lead_other hc, List.foldl_cons]
      simp only [count, hc, if_false]
      omega

theorem lead_le_longest_run (q : Char) (cs : List Char) : lead q cs ≤ longestRun q cs := by
  simpa [longest_run_eq] using (lead_le_count q cs (Nat.le_refl 0)).2

theorem no_run {q : Char} {cs : List Char} (h : longestRun q cs = 0) : q ∉ cs := by
  induction cs with
  | nil => exact List.not_mem_nil
  | cons c cs ih =>
    have hlead := lead_le_longest_run q (c :: cs)
    have htail := longest_run_tail q c cs
    rw [List.mem_cons, not_or]
    refine ⟨?_, ih (by omega)⟩
    rintro rfl
    rw [lead_same] at hlead
    omega

theorem reverse_run {q : Char} {cs : List Char} (h : ∀ c ∈ cs, c = q) : cs.reverse = cs := by
  rw [List.eq_replicate_of_mem h, List.reverse_replicate]

/-- The closing quotes are found where only quotes are left before them. -/
theorem read_closing_run {q : Char} (back : List Char) {ws r : List Char}
    (run : ∀ c ∈ ws, c = q) (few : lead q ws ≤ 2) (clear : r.head? ≠ some q) :
    readClosing q back (ws ++ q :: q :: q :: r) = finishText (ws.reverse ++ back) r := by
  have hrest : r.takeWhile (· = q) = [] := by
    cases r with
    | nil => rfl
    | cons c r => exact List.takeWhile_cons_of_neg (by simpa using clear)
  have hwhole : (ws ++ q :: q :: q :: r).takeWhile (· = q) = ws ++ [q, q, q] := by
    rw [List.takeWhile_append_of_pos (by simpa using run)]
    simp [hrest]
  have hlead : lead q ws = ws.length := by
    rw [lead, List.takeWhile_eq_self_iff.mpr (by simpa using run)]
  have hkept : min 2 (ws.length + 3 - 3) = ws.length := by omega
  simp only [readClosing, hwhole, List.length_append, List.length_cons, List.length_nil, hkept]
  rw [if_neg (by omega), reverse_run run]
  congr 1
  · rw [List.eq_replicate_of_mem run, List.length_replicate]
  · rw [← List.drop_drop, List.drop_left]
    rfl

/-- They are not taken for found before something else. -/
theorem read_closing_early {q : Char} (back : List Char) {ws : List Char} (r : List Char)
    (broken : ¬ ∀ c ∈ ws, c = q) (few : lead q ws ≤ 2) :
    readClosing q back (ws ++ q :: q :: q :: r) = none := by
  have hlead : (ws ++ q :: q :: q :: r).takeWhile (· = q) = ws.takeWhile (· = q) := by
    rw [List.takeWhile_append, if_neg]
    intro hlength
    have := List.takeWhile_eq_self_iff.mp ((List.takeWhile_prefix _).eq_of_length hlength)
    exact broken (by simpa using this)
  have hshort : (ws.takeWhile (· = q)).length < 3 := Nat.lt_succ_of_le few
  simp only [readClosing, hlead, if_pos hshort]

theorem read_closed {q : Char} (back : List Char) {r : List Char} (clear : r.head? ≠ some q) :
    readClosing q back (q :: q :: q :: r) = finishText back r := by
  simpa using read_closing_run back (List.forall_mem_nil _) (Nat.zero_le 2) clear

theorem read_literal {cs : List Char} (back r : List Char) (plain : ∀ c ∈ cs, isPlain c = true)
    (free : '\'' ∉ cs) :
    readLiteral back (cs ++ '\'' :: r) = finishText (cs.reverse ++ back) r := by
  induction cs generalizing back with
  | nil => simp [readLiteral]
  | cons c cs ih =>
    rw [List.forall_mem_cons] at plain
    rw [List.mem_cons, not_or] at free
    rw [List.cons_append, readLiteral.eq_3 _ _ _ (Ne.symm free.1), if_pos plain.1,
      ih _ plain.2 free.2, List.reverse_cons, List.append_assoc]
    rfl

theorem plain_not_break {c : Char} (h : isPlain c = true) : c ≠ '\n' ∧ c ≠ '\r' := by
  constructor <;> rintro rfl <;> simp [isPlain] at h

theorem read_literal_lines {cs : List Char} (back : List Char) {r : List Char}
    (plain : ∀ c ∈ cs, c = '\n' ∨ isPlain c = true) (few : longestRun '\'' cs ≤ 2)
    (clear : r.head? ≠ some '\'') :
    readLiteralLines back (cs ++ '\'' :: '\'' :: '\'' :: r) =
      finishText (cs.reverse ++ back) r := by
  induction cs generalizing back with
  | nil =>
    simp [readLiteralLines, read_closed back clear, finishText]
  | cons c cs ih =>
    have hlead := Nat.le_trans (lead_le_longest_run '\'' (c :: cs)) few
    have hrest := fun back => ih back (List.forall_mem_cons.mp plain).2
      (Nat.le_trans (longest_run_tail _ c cs) few)
    have happ : (c :: cs).reverse ++ back = cs.reverse ++ c :: back := by simp
    by_cases hquote : c = '\''
    · subst hquote
      rw [List.cons_append, readLiteralLines]
      -- the string ends here if only quotes are left of it, which the closing ones then follow
      by_cases hall : ∀ c ∈ '\'' :: cs, c = '\''
      · have hclose := read_closing_run back hall hlead clear
        rw [List.cons_append] at hclose
        simp only [hclose, finishText]
      · have hclose := read_closing_early back r hall hlead
        rw [List.cons_append] at hclose
        simp only [hclose, hrest, happ]
    · by_cases hline : c = '\n'
      · subst hline
        rw [List.cons_append, readLiteralLines, hrest, happ]
      · have hplain := (plain c List.mem_cons_self).resolve_left hline
        rw [List.cons_append, readLiteralLines.eq_5 _ _ _ hquote hline, if_pos hplain, hrest, happ]
        intro _ hreturn
        exact absurd hreturn (plain_not_break hplain).2

/-- How a character may be written between double quotes. What stands behind a backslash is no
blank, so that no lines are joined there. -/
inductive Written (lines : Bool) (c : Char) : List Char → Prop where
  | plain (h : isPlain c = true) (no_quote : c ≠ '"') (no_slash : c ≠ '\\') : Written lines c [c]
  | line (h : lines = true) (line_feed : c = '\n') : Written lines c [c]
  | coded {e : Char} {code : List Char} (dark : isGap e = false ∧ e ≠ '\n' ∧ e ≠ '\r')
      (read : ∀ r, readEscape (e :: code ++ r) = some (c, r)) : Written lines c ('\\' :: e :: code)

theorem upper_digit_digit : ∀ n < 16, Text.Hex.digit? (Text.Hex.digit n).toUpper = some n := by
  decide

theorem needs_code_small {c : Char} (h : needsCode c = true) : c.toNat < 128 := by
  simp only [needsCode, Bool.or_eq_true, Bool.and_eq_true, decide_eq_true_eq] at h
  rcases h with ⟨⟨hlt, -⟩, -⟩ | rfl
  · have : c.toNat < 32 := hlt
    omega
  · decide

theorem code_text_written {lines : Bool} {c : Char} (h : needsCode c = true) :
    Written lines c (codeText c) := by
  have hsmall := needs_code_small h
  have hhigh : c.toNat / 16 < 16 := by omega
  have hlow : c.toNat % 16 < 16 := Nat.mod_lt _ (by decide)
  have hhex := JsonWriting.hex_unit_low (upper_digit_digit _ hhigh) (upper_digit_digit _ hlow)
  have hvalid : c.toNat.isValidChar := c.valid
  refine .coded (by decide) fun r => ?_
  simp [readEscape, hhex, scalar?, hvalid, Char.ofNat_toNat]

theorem plain_of_no_code {c : Char} (h : needsCode c = false) : c = '\n' ∨ isPlain c = true := by
  simp only [needsCode, Bool.or_eq_false_iff, Bool.and_eq_false_iff, decide_eq_false_iff_not] at h
  by_cases htab : c = '\t'
  · exact .inr (by simp [isPlain, htab])
  by_cases hline : c = '\n'
  · exact .inl hline
  · have hspace : ' ' ≤ c := by simpa [htab, hline] using h.1
    exact .inr (by simp [isPlain, hspace, h.2])

theorem escape_char_written (lines : Bool) {c : Char} (h : c ≠ '"') :
    Written lines c (escapeChar lines c) := by
  unfold escapeChar
  split
  · exact .coded (by decide) fun _ => rfl
  · exact .coded (by decide) fun _ => rfl
  · split
    · exact .line ‹_› rfl
    · exact .coded (by decide) fun _ => rfl
  · exact .coded (by decide) fun _ => rfl
  · exact .coded (by decide) fun _ => rfl
  · exact .coded (by decide) fun _ => rfl
  · rename_i hline _ _ hslash
    split
    · exact code_text_written ‹_›
    · have hfree : needsCode c = false := by simpa using ‹¬needsCode c = true›
      exact .plain ((plain_of_no_code hfree).resolve_left hline) h hslash

theorem quote_written (lines : Bool) : Written lines '"' ['\\', '"'] :=
  .coded (by decide) fun _ => rfl

theorem read_basic_written {c : Char} {piece : List Char} (h : Written false c piece)
    (back r : List Char) : readBasic back (piece ++ r) = readBasic (c :: back) r := by
  cases h with
  | plain hplain hquote hslash =>
    rw [List.singleton_append, readBasic.eq_4 _ _ _ hquote hslash, if_pos hplain]
  | line h => cases h
  | coded dark read =>
    rw [List.cons_append, readBasic.eq_3]
    split <;> rename_i hread <;> rw [read] at hread <;> cases hread
    rfl

theorem read_basic {cs : List Char} (back r : List Char) :
    readBasic back (escape false 0 cs ++ '"' :: r) = finishText (cs.reverse ++ back) r := by
  induction cs generalizing back with
  | nil => simp [escape, readBasic]
  | cons c cs ih =>
    have happ : (c :: cs).reverse ++ back = cs.reverse ++ c :: back := by simp
    by_cases hquote : c = '"'
    · subst hquote
      have := read_basic_written (quote_written false) back (escape false 0 cs ++ '"' :: r)
      rw [happ, ← ih, ← this]
      simp [escape]
    · have := read_basic_written (escape_char_written false hquote) back
        (escape false 0 cs ++ '"' :: r)
      rw [happ, ← ih, ← this, ← List.append_assoc]
      simp [escape]

theorem join_dark {e : Char} (dark : isGap e = false ∧ e ≠ '\n' ∧ e ≠ '\r') (r : List Char) :
    skipJoin? (e :: r) = none := by
  obtain ⟨hgap, hline, hreturn⟩ := dark
  have hskip : skipGap (e :: r) = e :: r := List.dropWhile_cons_of_neg (by simp [hgap])
  simp [skipJoin?, hskip, readLineEnd, hline, hreturn]

theorem read_basic_lines_written {c : Char} {piece : List Char} (h : Written true c piece)
    (back r : List Char) : readBasicLines back (piece ++ r) = readBasicLines (c :: back) r := by
  cases h with
  | plain hplain hquote hslash =>
    obtain ⟨hline, hreturn⟩ := plain_not_break hplain
    rw [List.singleton_append, readBasicLines.eq_6 _ _ _ hquote hslash hline
      (fun _ h => absurd h hreturn), if_pos hplain]
  | line _ hline => rw [hline, List.singleton_append, readBasicLines]
  | coded dark read =>
    rw [List.cons_append, readBasicLines.eq_3]
    split
    · rename_i hjoin
      rw [List.cons_append, join_dark dark] at hjoin
      cases hjoin
    · split <;> rename_i hread <;> rw [read] at hread <;> cases hread
      rfl

theorem written_head {lines : Bool} {c : Char} {piece : List Char} (h : Written lines c piece) :
    ∃ d ds, piece = d :: ds ∧ d ≠ '"' ∧ d ≠ '\r' ∧ (d = '\n' → c = '\n') := by
  cases h with
  | plain hplain hquote => exact ⟨c, [], rfl, hquote, (plain_not_break hplain).2, id⟩
  | line _ hline => exact ⟨c, [], rfl, by simp [hline], by simp [hline], id⟩
  | coded => exact ⟨'\\', _, rfl, by decide, by decide, fun h => absurd h (by decide)⟩

/-- A text with escapes begins with a quote there was room for, or with a character written by
itself. -/
theorem escape_cases (lines : Bool) (room : Nat) (c : Char) (cs : List Char) :
    (∃ n, c = '"' ∧ room = n + 1 ∧ escape lines room (c :: cs) = '"' :: escape lines n cs) ∨
      ∃ piece, Written lines c piece ∧
        escape lines room (c :: cs) = piece ++ escape lines (if lines then 2 else 0) cs := by
  by_cases hquote : c = '"'
  · subst hquote
    cases room with
    | zero => exact .inr ⟨_, quote_written lines, rfl⟩
    | succ n => exact .inl ⟨n, rfl, rfl, rfl⟩
  · exact .inr ⟨_, escape_char_written lines hquote, by simp [escape]⟩

theorem escape_lead (lines : Bool) (room : Nat) (cs : List Char) :
    lead '"' (escape lines room cs) ≤ room := by
  induction cs generalizing room with
  | nil => simp [escape]
  | cons c cs ih =>
    rcases escape_cases lines room c cs with ⟨n, -, rfl, h⟩ | ⟨piece, hpiece, h⟩
    · rw [h, lead_same]
      exact Nat.succ_le_succ (ih n)
    · obtain ⟨d, ds, rfl, hquote, -⟩ := written_head hpiece
      rw [h, List.cons_append, lead_other hquote]
      exact Nat.zero_le _

/-- Nothing but quotes is written of quotes alone. -/
theorem escape_run {lines : Bool} {room : Nat} {cs : List Char}
    (h : ∀ c ∈ escape lines room cs, c = '"') : escape lines room cs = cs := by
  induction cs generalizing room with
  | nil => rfl
  | cons c cs ih =>
    rcases escape_cases lines room c cs with ⟨n, rfl, rfl, heq⟩ | ⟨piece, hpiece, heq⟩
    · rw [heq, List.forall_mem_cons] at h
      rw [heq, ih h.2]
    · obtain ⟨d, ds, rfl, hquote, -⟩ := written_head hpiece
      rw [heq] at h
      exact absurd (h d (by simp)) hquote

theorem read_basic_lines {cs : List Char} {room : Nat} (back : List Char) {r : List Char}
    (few : room ≤ 2) (clear : r.head? ≠ some '"') :
    readBasicLines back (escape true room cs ++ '"' :: '"' :: '"' :: r) =
      finishText (cs.reverse ++ back) r := by
  induction cs generalizing room back with
  | nil =>
    simp [escape, readBasicLines, read_closed back clear, finishText]
  | cons c cs ih =>
    have happ : (c :: cs).reverse ++ back = cs.reverse ++ c :: back := by simp
    have hlead := Nat.le_trans (escape_lead true room (c :: cs)) few
    -- only a quote written as it stands meets the closing ones; `room` bounds the run it begins
    rcases escape_cases true room c cs with ⟨n, rfl, rfl, h⟩ | ⟨piece, hpiece, h⟩
    · have hrun := @escape_run true (n + 1) ('"' :: cs)
      rw [h] at hlead hrun
      rw [h, List.cons_append, readBasicLines]
      by_cases hall : ∀ c ∈ '"' :: escape true n cs, c = '"'
      · have hclose := read_closing_run back hall hlead clear
        rw [List.cons_append, hrun hall] at hclose
        simp only [hclose, finishText]
      · have hclose := read_closing_early back r hall hlead
        rw [List.cons_append] at hclose
        simp only [hclose, ih ('"' :: back) (Nat.le_of_succ_le few), happ]
    · rw [h, List.append_assoc, read_basic_lines_written hpiece, happ]
      exact ih _ (Nat.le_refl 2)

theorem skip_no_line {c : Char} (line : c ≠ '\n') (ret : c ≠ '\r') (r : List Char) :
    skipLineEnd (c :: r) = c :: r := by
  simp [skipLineEnd, readLineEnd, line, ret]

/-- The line end written after the opening quotes is what is dropped there. -/
theorem skip_opening {cs body r : List Char} {q : Char} (quote : q ≠ '\n' ∧ q ≠ '\r')
    (head : ∀ d ds, body = d :: ds → d ≠ '\r' ∧ (d = '\n' → '\n' ∈ cs)) :
    skipLineEnd ((if cs.contains '\n' then ['\n'] else []) ++ (body ++ q :: r)) =
      body ++ q :: r := by
  by_cases hline : '\n' ∈ cs
  · simp [hline, skipLineEnd, readLineEnd]
  · cases body with
    | nil => simpa [hline] using skip_no_line quote.1 quote.2 r
    | cons d ds =>
      obtain ⟨hreturn, himp⟩ := head d ds rfl
      simpa [hline] using skip_no_line (fun h => hline (himp h)) hreturn (ds ++ q :: r)

theorem plain_of_uncoded {cs : List Char} (h : cs.any needsCode = false) :
    ∀ c ∈ cs, c = '\n' ∨ isPlain c = true := by
  intro c hc
  have := List.any_eq_false.mp h c hc
  exact plain_of_no_code (by simpa using this)

/-- What is known of a text from the style chosen for it. -/
def Suits (cs : List Char) : Style → Prop
  | .literal => (∀ c ∈ cs, isPlain c = true) ∧ '\'' ∉ cs
  | .literalLines => (∀ c ∈ cs, c = '\n' ∨ isPlain c = true) ∧ longestRun '\'' cs ≤ 2
  | _ => True

theorem style_suits (cs : List Char) : Suits cs (.of cs) := by
  unfold Style.of
  simp only
  -- one case for each way that the choice ends
  split
  · trivial
  split
  · rename_i h
    simp only [Bool.and_eq_true, Bool.not_eq_true', decide_eq_true_eq, List.contains_eq_mem,
      decide_eq_false_iff_not] at h
    obtain ⟨⟨huncoded, hsingle⟩, hwhole⟩ := h
    refine ⟨fun c hc => (plain_of_uncoded huncoded c hc).resolve_left ?_, no_run hsingle⟩
    rintro rfl
    exact hwhole hc
  split
  · trivial
  split
  · rename_i h
    simp only [Bool.and_eq_true, Bool.not_eq_true', decide_eq_true_eq] at h
    exact ⟨plain_of_uncoded h.1, h.2⟩
  split <;> trivial

/-- No quotes that would go on with a string stand in front. -/
def Clear (r : List Char) : Prop :=
  r.head? ≠ some '"' ∧ r.head? ≠ some '\''

/-- A string on one line does not begin like one of several lines. -/
theorem not_tripled {q : Char} {ws r : List Char} (free : lead q ws = 0)
    (clear : r.head? ≠ some q) (r' : List Char) : ws ++ q :: r ≠ q :: q :: r' := by
  intro h
  cases ws with
  | nil =>
    obtain ⟨-, rfl⟩ := List.cons.inj h
    exact clear rfl
  | cons c ws =>
    obtain ⟨rfl, -⟩ := List.cons.inj h
    simp at free

theorem lead_of_free {q : Char} {cs : List Char} (h : q ∉ cs) : lead q cs = 0 := by
  cases cs with
  | nil => rfl
  | cons c cs => exact lead_other (fun hc => h (by simp [hc])) cs

theorem read_line_text {q : Char} {ws r : List Char} (free : lead q ws = 0)
    (clear : r.head? ≠ some q) :
    readText (q :: (ws ++ q :: r)) = readLineText (q :: (ws ++ q :: r)) := by
  apply readText.eq_3
  · intro r' h
    obtain ⟨rfl, h⟩ := List.cons.inj h
    exact not_tripled free clear r' h
  · intro r' h
    obtain ⟨rfl, h⟩ := List.cons.inj h
    exact not_tripled free clear r' h

theorem escape_opening (cs : List Char) (d : Char) (ds : List Char)
    (h : escape true 2 cs = d :: ds) : d ≠ '\r' ∧ (d = '\n' → '\n' ∈ cs) := by
  cases cs with
  | nil => simp [escape] at h
  | cons c cs =>
    rcases escape_cases true 2 c cs with ⟨n, -, -, heq⟩ | ⟨piece, hpiece, heq⟩
    · rw [h] at heq
      obtain ⟨rfl, -⟩ := List.cons.inj heq
      exact ⟨by decide, fun h => absurd h (by decide)⟩
    · obtain ⟨e, es, rfl, -, hreturn, hline⟩ := written_head hpiece
      rw [h] at heq
      obtain ⟨rfl, -⟩ := List.cons.inj heq
      exact ⟨hreturn, fun hd => by simp [hline hd]⟩

theorem read_quoted {cs : List Char} {style : Style} (suits : Suits cs style) {r : List Char}
    (clear : Clear r) : readText (quoteWith style cs ++ r) = some (String.ofList cs, r) := by
  have hfinish : finishText (cs.reverse ++ []) r = some (String.ofList cs, r) := by
    simp [finishText]
  cases style with
  | basic =>
    have hfree : lead '"' (escape false 0 cs) = 0 := Nat.le_zero.mp (escape_lead false 0 cs)
    have hline := read_line_text hfree clear.1
    rw [readLineText, read_basic, hfinish] at hline
    simpa [quoteWith] using hline
  | literal =>
    obtain ⟨hplain, hfree⟩ := suits
    have hline := read_line_text (lead_of_free hfree) clear.2
    rw [readLineText, read_literal [] r hplain hfree, hfinish] at hline
    simpa [quoteWith] using hline
  | basicLines =>
    have hopen := @skip_opening cs (escape true 2 cs) ('"' :: '"' :: r) '"' (by decide)
      (escape_opening cs)
    simp only [quoteWith, List.append_assoc, List.cons_append, List.nil_append, readText] at hopen ⊢
    rw [hopen, read_basic_lines [] (Nat.le_refl 2) clear.1, hfinish]
  | literalLines =>
    obtain ⟨hplain, hfew⟩ := suits
    have hopen := @skip_opening cs cs ('\'' :: '\'' :: r) '\'' (by decide) ?_
    · simp only [quoteWith, List.append_assoc, List.cons_append, List.nil_append, readText]
        at hopen ⊢
      rw [hopen, read_literal_lines [] hplain hfew clear.2, hfinish]
    · rintro d ds rfl
      refine ⟨?_, fun hd => by simp [hd]⟩
      rintro rfl
      simpa [isPlain] using hplain '\r' List.mem_cons_self

/-- A string that is written is read back, and nothing behind it is taken. -/
theorem read_quote (text : String) {r : List Char} (clear : Clear r) :
    readText ((Toml.quote text).toList ++ r) = some (text, r) := by
  rw [Toml.quote, String.toList_ofList, read_quoted (style_suits _) clear, String.ofList_toList]

end PodConsole.Proofs.TomlStrings
