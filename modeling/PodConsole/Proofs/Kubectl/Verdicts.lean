import PodConsole.Kubectl.Warmup
import PodConsole.Proofs.Decimal.Digits
import PodConsole.Proofs.Text.Stretches

namespace PodConsole.Proofs.Verdicts
open Exec Kubectl Warmup Stretches
open Text (Bytes trim)

/-- The lines that octets give. The last of them may go on. -/
def heldLines (bytes : Bytes) : List (List Char) :=
  textLines (Text.Utf8.lossyChars bytes)

def heldEnded (bytes : Bytes) : List (List Char) :=
  endedLines (Text.Utf8.lossyChars bytes)

/-- A failure of `kubectl` itself, and no report of the remote exit. -/
def isOwnError (line : List Char) : Bool :=
  Line.origin line = .client && !Line.isExitReport (trim line)

theorem origin_trim (line : List Char) : Line.origin (trim line) = Line.origin line := by
  simp only [Line.origin, trim_trim]

theorem lines_held (w : Warmup) : w.lines = (heldLines w.output).map trim :=
  lines_eq _

theorem complete_lines_held (w : Warmup) : w.completeLines = (heldEnded w.output).map trim := by
  rw [heldEnded, ← complete_lines_eq, completeLines]
  cases Text.completeLines? (Text.Utf8.lossyChars w.output) <;> rfl

theorem any_origin (lines : List (List Char)) (o : Origin) :
    (lines.map trim).any (fun line => Line.origin line = o) =
      lines.any fun line => Line.origin line = o := by
  rw [List.any_map]
  congr 1
  funext line
  rw [Function.comp_apply, origin_trim]

theorem find_client_error (lines : List (List Char)) :
    (lines.map trim).find? isClientError = (lines.find? isOwnError).map trim := by
  have hp : isClientError ∘ trim = isOwnError := by
    funext line
    rw [Function.comp_apply, isClientError, origin_trim, isOwnError]
  rw [List.find?_map, hp]

/-- Every way to judge an exit. -/
inductive Judged (w : Warmup) (shell : String) (code : Nat) : Option Failure → Prop
  | spoken : w.live = true → Judged w shell code none
  | unstarted : w.live = false → (∃ line ∈ heldLines w.output, Line.origin line = .runtime) →
      Judged w shell code (some (.shellUnavailable shell))
  | silent : w.live = false → (∀ line ∈ heldLines w.output, Line.origin line ≠ .runtime) →
      code = 0 → Judged w shell code none
  | reported (line : List Char) : w.live = false →
      (∀ line ∈ heldLines w.output, Line.origin line ≠ .runtime) → code ≠ 0 →
      (heldLines w.output).find? isOwnError = some line →
      Judged w shell code (some (.establish (String.ofList (trim line))))
  | unrunnable : w.live = false →
      (∀ line ∈ heldLines w.output, Line.origin line ≠ .runtime) →
      (heldLines w.output).find? isOwnError = none → code = 126 ∨ code = 127 →
      Judged w shell code (some (.shellUnavailable shell))
  | other : w.live = false → (∀ line ∈ heldLines w.output, Line.origin line ≠ .runtime) →
      code ≠ 0 → (heldLines w.output).find? isOwnError = none → ¬ (code = 126 ∨ code = 127) →
      Judged w shell code (some (.establish (w.otherReason code)))

theorem exit_judged (w : Warmup) (shell : String) (code : Nat) :
    Judged w shell code (w.exitFailure? shell code) := by
  unfold exitFailure?
  rw [lines_held, any_origin, find_client_error]
  split
  · rename_i hl
    exact .spoken hl
  rename_i hl
  have hl : w.live = false := by simpa using hl
  split
  · rename_i hr
    exact .unstarted hl (by simpa using hr)
  rename_i hr
  have hr : ∀ line ∈ heldLines w.output, Line.origin line ≠ .runtime := by simpa using hr
  split
  · rename_i hc
    exact .silent hl hr hc
  rename_i hc
  cases hf : (heldLines w.output).find? isOwnError with
  | some line => exact .reported line hl hr hc hf
  | none =>
    have hu : unrunnableCodes.contains code = true ↔ code = 126 ∨ code = 127 := by
      simp [unrunnableCodes]
    simp only [Option.map_none]
    split
    · rename_i hm
      exact .unrunnable hl hr hf (hu.mp hm)
    · rename_i hm
      exact .other hl hr hc hf (mt hu.mpr hm)

theorem own_errors_none {lines : List (List Char)} :
    lines.find? isOwnError = none ↔ ∀ line ∈ lines, isOwnError line = false := by
  simp

theorem exit_none_iff (w : Warmup) (shell : String) (code : Nat) :
    w.exitFailure? shell code = none ↔
      w.live = true ∨ code = 0 ∧ ∀ line ∈ heldLines w.output, Line.origin line ≠ .runtime := by
  have hj := exit_judged w shell code
  generalize w.exitFailure? shell code = exit at hj
  cases hj with
  | spoken hl => exact iff_of_true rfl (.inl hl)
  | silent hl hr hc => exact iff_of_true rfl (.inr ⟨hc, hr⟩)
  | unstarted hl hr =>
    obtain ⟨line, hm, ho⟩ := hr
    refine iff_of_false nofun ?_
    rintro (hs | ⟨_, hr⟩)
    · exact absurd (hl.symm.trans hs) nofun
    · exact hr line hm ho
  | unrunnable hl hr hf hc =>
    refine iff_of_false nofun ?_
    rintro (hs | ⟨hz, _⟩)
    · exact absurd (hl.symm.trans hs) nofun
    · omega
  | reported line hl hr hc hf | other hl hr hc hf hu =>
    refine iff_of_false nofun ?_
    rintro (hs | ⟨hz, _⟩)
    · exact absurd (hl.symm.trans hs) nofun
    · exact hc hz

theorem exit_unavailable_iff (w : Warmup) (shell : String) (code : Nat) :
    w.exitFailure? shell code = some (.shellUnavailable shell) ↔
      w.live = false ∧ ((∃ line ∈ heldLines w.output, Line.origin line = .runtime) ∨
        (code = 126 ∨ code = 127) ∧ ∀ line ∈ heldLines w.output, isOwnError line = false) := by
  have hj := exit_judged w shell code
  generalize w.exitFailure? shell code = exit at hj
  cases hj with
  | unstarted hl hr => exact iff_of_true rfl ⟨hl, .inl hr⟩
  | unrunnable hl hr hf hc => exact iff_of_true rfl ⟨hl, .inr ⟨hc, own_errors_none.mp hf⟩⟩
  | spoken hl =>
    refine iff_of_false nofun ?_
    rintro ⟨hn, _⟩
    exact absurd (hl.symm.trans hn) nofun
  | silent hl hr hc =>
    refine iff_of_false nofun ?_
    rintro ⟨_, ⟨line, hm, ho⟩ | ⟨hu, _⟩⟩
    · exact hr line hm ho
    · omega
  | reported line hl hr hc hf =>
    refine iff_of_false nofun ?_
    rintro ⟨_, ⟨line, hm, ho⟩ | ⟨_, hn⟩⟩
    · exact hr line hm ho
    · rw [own_errors_none.mpr hn] at hf
      cases hf
  | other hl hr hc hf hu =>
    refine iff_of_false nofun ?_
    rintro ⟨_, ⟨line, hm, ho⟩ | ⟨hu', _⟩⟩
    · exact hr line hm ho
    · exact hu hu'

/-- A reason that says something, and says it in no words of the runtime's and in no mere report of
an exit. -/
structure Telling (reason : String) : Prop where
  nonempty : reason ≠ ""
  report : Line.isExitReport reason.toList = false
  runtime : Line.origin reason.toList ≠ .runtime

theorem telling_line {cs line : List Char} (h : line ∈ textLines cs)
    (hr : Line.origin line ≠ .runtime) (hx : Line.isExitReport (trim line) = false) :
    Telling (String.ofList (trim line)) where
  nonempty := by
    intro he
    have ht := congrArg String.toList he
    rw [String.toList_ofList] at ht
    exact text_lines_not_blank h ht
  report := by rwa [String.toList_ofList]
  runtime := by rwa [String.toList_ofList, origin_trim]

theorem mem_of_holds {part text : List Char} (h : Text.holds part text = true) :
    ∀ c ∈ part, c ∈ text := by
  induction text with
  | nil =>
    rw [List.isEmpty_iff.mp h]
    simp
  | cons d text ih =>
    rw [Text.holds, Bool.or_eq_true] at h
    rcases h with h | h
    · exact fun c hc => (List.isPrefixOf_iff_prefix.mp h).mem hc
    · exact fun c hc => List.mem_cons_of_mem d (ih h c hc)

/-- A text that lacks a character of each mark is not the runtime's. -/
theorem origin_ne_runtime {text : List Char}
    (h : ∀ mark ∈ Line.runtimeMarks, ∃ c ∈ mark.toList, c ∉ text) :
    Line.origin text ≠ .runtime := by
  have hm : ¬ (Line.runtimeMarks.any fun mark => Text.holds mark.toList (trim text)) = true := by
    rw [List.any_eq_true]
    rintro ⟨mark, hmark, hh⟩
    obtain ⟨c, hc, hn⟩ := h mark hmark
    exact hn (mem_of_mem_trim (mem_of_holds hh c hc))
  unfold Line.origin
  dsimp only
  rw [if_neg hm]
  split <;> simp

theorem telling_code (code : Nat) : Telling ("kubectl exited with code " ++ toString code) := by
  have ht : ("kubectl exited with code " ++ toString code).toList =
      "kubectl exited with code ".toList ++ Nat.toDigits 10 code := by simp
  refine ⟨fun he => ?_, ?_, ?_⟩
  · rw [he] at ht
    cases ht
  · rw [ht]
    rfl
  · have lacks {c : Char} (hd : Decimal.isDigit c = false)
        (hn : c ∉ "kubectl exited with code ".toList) :
        c ∉ ("kubectl exited with code " ++ toString code).toList := by
      rw [ht]
      intro hm
      rcases List.mem_append.mp hm with hm | hm
      · exact hn hm
      · have hdigit := DecimalDigits.to_digits_digit hm
        rw [hd] at hdigit
        cases hdigit
    apply origin_ne_runtime
    intro mark hm
    simp only [Line.runtimeMarks, List.mem_cons, List.not_mem_nil, or_false] at hm
    rcases hm with rfl | rfl | rfl
    · exact ⟨'f', by decide, lacks rfl (by decide)⟩
    · exact ⟨'O', by decide, lacks rfl (by decide)⟩
    · exact ⟨'T', by decide, lacks rfl (by decide)⟩

theorem telling_other {w : Warmup} (h : ∀ line ∈ heldLines w.output, Line.origin line ≠ .runtime)
    (code : Nat) : Telling (w.otherReason code) := by
  unfold otherReason
  split
  · rename_i reason hf
    have hm := List.mem_of_find?_eq_some hf
    have hx := List.find?_some hf
    rw [lines_held] at hm
    obtain ⟨line, hline, rfl⟩ := List.mem_map.mp hm
    exact telling_line hline (h line hline) (by simpa using hx)
  · exact telling_code code

/-- Every other exit has a reason: the first error of `kubectl`'s own, if there is one. -/
theorem exit_established (w : Warmup) (shell : String) (code : Nat)
    (hn : w.exitFailure? shell code ≠ none)
    (hu : w.exitFailure? shell code ≠ some (.shellUnavailable shell)) :
    ∃ reason, w.exitFailure? shell code = some (.establish reason) ∧ Telling reason ∧
      ∀ line, (heldLines w.output).find? isOwnError = some line →
        reason = String.ofList (trim line) := by
  have hj := exit_judged w shell code
  generalize w.exitFailure? shell code = exit at hj hn hu
  cases hj with
  | spoken hl | silent hl hr hc => exact (hn rfl).elim
  | unstarted hl hr | unrunnable hl hr hf hc => exact (hu rfl).elim
  | reported line hl hr hc hf =>
    have hm := List.mem_of_find?_eq_some hf
    have ho := List.find?_some hf
    rw [isOwnError, Bool.and_eq_true, Bool.not_eq_true'] at ho
    refine ⟨_, rfl, telling_line hm (hr line hm) ho.2, fun first he => ?_⟩
    rw [hf] at he
    rw [Option.some.inj he]
  | other hl hr hc hf hx =>
    refine ⟨_, rfl, telling_other hr code, fun first he => ?_⟩
    rw [hf] at he
    cases he

end PodConsole.Proofs.Verdicts
