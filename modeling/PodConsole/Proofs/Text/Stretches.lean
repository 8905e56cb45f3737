import Mathlib.Data.List.DropRight
import PodConsole.Proofs.Text.Decoding
import PodConsole.Text.Blank

namespace PodConsole.Proofs.Stretches
open Text

def isBlankLine (line : List Char) : Bool :=
  line.all isBlankChar

/-- The lines that hold more than blanks. The last of them may go on. -/
def textLines (cs : List Char) : List (List Char) :=
  (cs.splitOn '\n').filter fun line => !isBlankLine line

/-- The stretches that a line feed has ended. -/
def ended (cs : List Char) : List (List Char) :=
  (cs.splitOn '\n').dropLast

/-- The lines that have ended. -/
def endedLines (cs : List Char) : List (List Char) :=
  (ended cs).filter fun line => !isBlankLine line

theorem split_lines_eq (cs : List Char) : splitLines cs = cs.splitOn '\n' := by
  induction cs with
  | nil => rfl
  | cons c r ih =>
    rw [splitLines, List.splitOn_cons_eq_if_modifyHead, ih]
    by_cases hc : c = '\n'
    · simp [hc]
    · cases hr : r.splitOn '\n' with
      | nil => exact (List.splitOn_ne_nil '\n' r hr).elim
      | cons line rest => simp [hc]

theorem trim_eq (cs : List Char) :
    trim cs = (cs.dropWhile isBlankChar).rdropWhile isBlankChar := rfl

theorem trim_eq_nil_iff (cs : List Char) : trim cs = [] ↔ isBlankLine cs = true := by
  have hd : (∀ c ∈ cs.dropWhile isBlankChar, isBlankChar c = true) ↔
      ∀ c ∈ cs, isBlankChar c = true := by
    refine ⟨fun h => ?_, fun h c hc => h c ((List.dropWhile_sublist _).mem hc)⟩
    rw [← List.dropWhile_eq_nil_iff, ← List.dropWhile_idempotent]
    exact List.dropWhile_eq_nil_iff.mpr h
  rw [trim_eq, List.rdropWhile_eq_nil_iff, hd, isBlankLine, List.all_eq_true]

theorem mem_of_mem_trim {cs : List Char} {c : Char} (h : c ∈ trim cs) : c ∈ cs := by
  rw [trim_eq] at h
  exact (List.dropWhile_sublist _).mem ((List.rdropWhile_prefix isBlankChar _).mem h)

/-- What is left once the beginning was trimmed begins as before when the end is trimmed. -/
theorem trim_trim (cs : List Char) : trim (trim cs) = trim cs := by
  have hs : (trim cs).dropWhile isBlankChar = trim cs := by
    rw [List.dropWhile_eq_self_iff]
    intro hl
    have hp := List.rdropWhile_prefix isBlankChar (cs.dropWhile isBlankChar)
    have hd : cs.dropWhile isBlankChar ≠ [] := by
      intro he
      rw [trim_eq, he] at hl
      cases hl
    have hh := List.head_dropWhile_not isBlankChar hd
    rw [List.head_eq_getElem, ← hp.getElem hl] at hh
    exact Bool.eq_false_iff.mp hh
  rw [trim_eq (trim cs), hs, trim_eq, List.rdropWhile_idempotent]

theorem text_lines_not_blank {cs line : List Char} (h : line ∈ textLines cs) : trim line ≠ [] := by
  intro ht
  have hb := (List.mem_filter.mp h).2
  simp [(trim_eq_nil_iff line).mp ht] at hb

theorem lines_eq (cs : List Char) : lines cs = (textLines cs).map trim := by
  rw [lines, split_lines_eq, List.filter_map, textLines]
  congr 1
  apply List.filter_congr
  intro line _
  have h := trim_eq_nil_iff line
  cases hb : isBlankLine line with
  | true => simp [h.mpr hb]
  | false => simpa [hb] using h

/-- A text has no line feed, or a last one. -/
theorem complete_lines_cases (cs : List Char) :
    ('\n' ∉ cs ∧ completeLines? cs = none) ∨
    ∃ before after, cs = before ++ '\n' :: after ∧ '\n' ∉ after ∧
      completeLines? cs = some before := by
  have hcs : cs.reverse.takeWhile (· ≠ '\n') ++ cs.reverse.dropWhile (· ≠ '\n') = cs.reverse :=
    List.takeWhile_append_dropWhile
  have hfree : '\n' ∉ cs.reverse.takeWhile (· ≠ '\n') := fun hm => by
    simpa using List.mem_takeWhile_imp hm
  unfold completeLines?
  cases hd : cs.reverse.dropWhile (· ≠ '\n') with
  | nil =>
    rw [hd, List.append_nil] at hcs
    refine .inl ⟨fun hm => hfree ?_, rfl⟩
    rw [hcs]
    exact List.mem_reverse.mpr hm
  | cons c r =>
    have hc : c = '\n' := by
      have hh := List.head?_dropWhile_not (· ≠ '\n') cs.reverse
      rw [hd] at hh
      simpa using hh
    subst hc
    refine .inr ⟨r.reverse, (cs.reverse.takeWhile (· ≠ '\n')).reverse, ?_, ?_, rfl⟩
    · rw [hd] at hcs
      simpa using (congrArg List.reverse hcs).symm
    · exact fun hm => hfree (List.mem_reverse.mp hm)

theorem ended_of_not_mem {cs : List Char} (h : '\n' ∉ cs) : ended cs = [] := by
  rw [ended, List.splitOn_eq_singleton h]
  rfl

theorem ended_break (before after : List Char) :
    ended (before ++ '\n' :: after) = before.splitOn '\n' ++ ended after := by
  rw [ended, List.splitOn_append_cons_self,
    List.dropLast_append_of_ne_nil (List.splitOn_ne_nil '\n' after), ended]

/-- A line that has ended stays as it is. -/
theorem ended_append (cs more : List Char) : ended cs <+: ended (cs ++ more) := by
  rcases complete_lines_cases cs with ⟨hn, _⟩ | ⟨before, after, rfl, hn, _⟩
  · rw [ended_of_not_mem hn]
    exact List.nil_prefix
  · rw [List.append_assoc, List.cons_append, ended_break, ended_break, ended_of_not_mem hn,
      List.append_nil]
    exact List.prefix_append _ _

theorem ended_append_of_not_mem (cs : List Char) {more : List Char} (h : '\n' ∉ more) :
    ended (cs ++ more) = ended cs := by
  rcases complete_lines_cases cs with ⟨hn, _⟩ | ⟨before, after, rfl, hn, _⟩
  · rw [ended_of_not_mem hn, ended_of_not_mem (by simp [hn, h])]
  · rw [List.append_assoc, List.cons_append, ended_break, ended_break, ended_of_not_mem hn,
      ended_of_not_mem (by simp [hn, h])]

theorem ended_lines_subset (cs : List Char) : endedLines cs ⊆ textLines cs :=
  ((List.dropLast_sublist _).filter _).subset

theorem complete_lines_eq (cs : List Char) :
    ((completeLines? cs).map lines).getD [] = (endedLines cs).map trim := by
  rcases complete_lines_cases cs with ⟨hn, hc⟩ | ⟨before, after, rfl, hn, hc⟩
  · rw [hc, endedLines, ended_of_not_mem hn]
    rfl
  · rw [hc, endedLines, ended_break, ended_of_not_mem hn, List.append_nil]
    exact lines_eq before

/-- What octets have ended is not read differently when more octets come. The character that is
replaced at their end is no line feed. -/
theorem lossy_ended (bytes more : Bytes) :
    endedLines (Utf8.lossyChars bytes) <+: endedLines (Utf8.lossyChars (bytes ++ more)) := by
  apply List.IsPrefix.filter
  have hc : '\n' ∉ Decoding.closing (Decoding.left bytes) := by
    cases Decoding.left bytes with
    | none => simp [Decoding.closing]
    | some p => simp [Decoding.closing, Utf8.replacement]
  rw [Decoding.lossy_chars_eq, ended_append_of_not_mem _ hc, Decoding.lossy_chars_eq,
    Decoding.decode_append, List.append_assoc]
  exact ended_append _ _

end PodConsole.Proofs.Stretches
