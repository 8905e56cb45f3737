import Mathlib.Data.List.Induction
import PodConsole.Kubectl.Watch
import PodConsole.Proofs.Kubectl.Verdicts

namespace PodConsole.Proofs.Signs
open Exec Kubectl Warmup Verdicts Stretches
open Text (Bytes)

def outputOf : Sign → Bytes
  | .output bytes => bytes
  | .quiet => []

/-- All output, in the order in which it came. -/
def received (signs : List Sign) : Bytes :=
  signs.flatMap outputOf

theorem received_snoc (signs : List Sign) (s : Sign) :
    received (signs ++ [s]) = received signs ++ outputOf s := by
  simp [received]

theorem received_output (pieces : List Bytes) :
    received (pieces.map .output) = pieces.flatten := by
  rw [received, List.flatMap_map]
  exact List.flatMap_id'

theorem run_snoc (x : Watch) (signs : List Sign) (s : Sign) :
    x.run (signs ++ [s]) = (x.run signs).step s := by
  simp [Watch.run]

theorem run_append (x : Watch) (signs later : List Sign) :
    x.run (signs ++ later) = (x.run signs).run later := by
  simp [Watch.run]

/-- A line of the shell. Of output that may go on it has ended; after a quiet it need not have, and
no line is anybody else's. -/
def Speaks (bytes : Bytes) : Sign → Prop
  | .output _ => ∃ line ∈ heldEnded bytes, Line.origin line = .shell
  | .quiet => (∃ line ∈ heldLines bytes, Line.origin line = .shell) ∧
      ∀ line ∈ heldLines bytes, Line.origin line = .shell

/-- There is something, and no line in it. -/
def Blank (bytes : Bytes) : Prop :=
  bytes ≠ [] ∧ heldLines bytes = []

/-- What makes a session live. -/
def Persuades (bytes : Bytes) (s : Sign) : Prop :=
  Speaks bytes s ∨ s = .quiet ∧ Blank bytes

theorem persuades_quiet (bytes : Bytes) :
    Persuades bytes .quiet ↔
      bytes ≠ [] ∧ ∀ line ∈ heldLines bytes, Line.origin line = .shell := by
  constructor
  · rintro (⟨⟨line, hm, _⟩, hall⟩ | ⟨_, hne, hn⟩)
    · refine ⟨fun he => ?_, hall⟩
      subst he
      cases hm
    · exact ⟨hne, by simp [hn]⟩
  · rintro ⟨hne, hall⟩
    cases hl : heldLines bytes with
    | nil => exact .inr ⟨rfl, hne, hl⟩
    | cons line rest =>
      have hm : line ∈ heldLines bytes := by simp [hl]
      exact .inl ⟨⟨line, hm, hall line hm⟩, hall⟩

theorem persuades_output (bytes piece : Bytes) :
    Persuades bytes (.output piece) ↔ ∃ line ∈ heldEnded bytes, Line.origin line = .shell := by
  simp [Persuades, Speaks]

theorem any_shell (lines : List (List Char)) :
    (lines.map Text.trim).any isShellLine = true ↔ ∃ line ∈ lines, Line.origin line = .shell := by
  simp [isShellLine, origin_trim]

theorem all_shell (lines : List (List Char)) :
    (lines.map Text.trim).all isShellLine = true ↔ ∀ line ∈ lines, Line.origin line = .shell := by
  simp [isShellLine, origin_trim]

/-- Once a session is live a sign only adds to its output. -/
theorem note_live {w : Warmup} (h : w.live = true) (s : Sign) :
    w.note s = (false, { w with output := w.output ++ outputOf s }) := by
  cases s with
  | output bytes => simp [note, pushOutput, outputOf, h]
  | quiet => rw [note, settle, outputOf, List.append_nil, if_pos (by simp [h])]

/-- Until then each sign is weighed with all that is held. -/
theorem note_waiting {w : Warmup} (h : w.live = false) (s : Sign) :
    ∃ spoke, w.note s = (spoke, { w with output := w.output ++ outputOf s, live := spoke }) ∧
      (spoke = true ↔ Persuades (w.output ++ outputOf s) s) := by
  cases s with
  | output bytes =>
    refine ⟨_, push_output_waiting h bytes, ?_⟩
    rw [complete_lines_held, any_shell, persuades_output]
    rfl
  | quiet =>
    rw [outputOf, List.append_nil, persuades_quiet]
    by_cases ho : w.output = []
    · refine ⟨false, ?_, by simp [ho]⟩
      rw [note, settle, if_pos (by simp [ho]), ← h]
    · refine ⟨_, settle_waiting h ho, ?_⟩
      rw [lines_held, all_shell]
      exact (and_iff_right ho).symm

/-- At some sign there was what makes a session live. -/
def Persuaded (signs : List Sign) : Prop :=
  ∃ before s after, signs = before ++ s :: after ∧ Persuades (received (before ++ [s])) s

theorem persuaded_snoc (signs : List Sign) (s : Sign) :
    Persuaded (signs ++ [s]) ↔ Persuaded signs ∨ Persuades (received (signs ++ [s])) s := by
  constructor
  · rintro ⟨before, t, after, he, hp⟩
    cases after using List.reverseRecOn with
    | nil =>
      obtain ⟨rfl, hs⟩ := List.append_inj' he rfl
      cases hs
      exact .inr hp
    | append_singleton after u =>
      rw [← List.cons_append, ← List.append_assoc] at he
      exact .inl ⟨before, t, after, (List.append_inj' he rfl).1, hp⟩
  · rintro (⟨before, t, after, rfl, hp⟩ | hp)
    · exact ⟨before, t, after ++ [s], by simp, hp⟩
    · exact ⟨signs, s, [], rfl, hp⟩

/-- What a watch holds and has concluded after its signs. -/
structure Watched (signs : List Sign) (x : Watch) : Prop where
  output : x.warmup.output = received signs
  input : x.warmup.input = []
  live : x.warmup.live = true ↔ Persuaded signs
  waiting : x.warmup.live = false →
    ∀ line ∈ heldEnded (received signs), Line.origin line ≠ .shell
  once : x.answers.count true = if x.warmup.live then 1 else 0

theorem watched_start : Watched [] {} where
  output := rfl
  input := rfl
  live := by simp [Persuaded]
  waiting := by
    intro _ line hm
    cases hm
  once := rfl

variable {signs : List Sign} {x : Watch}

theorem Watched.step_live (h : Watched signs x) (hl : x.warmup.live = true) (s : Sign) :
    Watched (signs ++ [s]) (x.step s) := by
  have hx : x.step s = ⟨{ x.warmup with output := x.warmup.output ++ outputOf s },
      x.answers ++ [false]⟩ := by
    rw [Watch.step, note_live hl]
  rw [hx]
  refine ⟨?_, h.input, iff_of_true hl ?_, fun hf => absurd (hl.symm.trans hf) nofun, ?_⟩
  · rw [received_snoc, ← h.output]
  · exact (persuaded_snoc signs s).mpr (.inl (h.live.mp hl))
  · simpa using h.once

theorem Watched.step_waiting (h : Watched signs x) (hl : x.warmup.live = false) (s : Sign) :
    Watched (signs ++ [s]) (x.step s) := by
  have hr := received_snoc signs s
  have hno : ¬ Persuaded signs := fun hp => absurd (hl.symm.trans (h.live.mpr hp)) nofun
  have hzero : x.answers.count true = 0 := by simpa [hl] using h.once
  obtain ⟨spoke, hn, hs⟩ := note_waiting hl s
  have hx : x.step s = ⟨{ x.warmup with output := x.warmup.output ++ outputOf s, live := spoke },
      x.answers ++ [spoke]⟩ := by
    rw [Watch.step, hn]
  rw [h.output, ← hr] at hs
  rw [hx]
  refine ⟨?_, h.input, ?_, ?_, ?_⟩
  · rw [hr, ← h.output]
  · rw [persuaded_snoc, or_iff_right hno]
    exact hs
  · rintro rfl
    -- a quiet adds no output, so what had ended before is all that has ended
    cases s with
    | output bytes =>
      rw [persuades_output] at hs
      simpa using hs
    | quiet =>
      rw [hr, outputOf, List.append_nil]
      exact h.waiting hl
  · cases spoke <;> simp [hzero]

theorem Watched.step (h : Watched signs x) (s : Sign) : Watched (signs ++ [s]) (x.step s) := by
  cases hl : x.warmup.live with
  | true => exact h.step_live hl s
  | false => exact h.step_waiting hl s

theorem run_watched (signs : List Sign) : Watched signs (Watch.run {} signs) := by
  induction signs using List.reverseRecOn with
  | nil => exact watched_start
  | append_singleton signs s ih =>
    rw [run_snoc]
    exact ih.step s

/-- A session that is live stays so. -/
theorem run_live (signs later : List Sign) (h : (Watch.run {} signs).warmup.live = true) :
    ((Watch.run {} signs).run later).warmup.live = true := by
  rw [← run_append, (run_watched (signs ++ later)).live]
  obtain ⟨before, s, after, rfl, hp⟩ := (run_watched signs).live.mp h
  exact ⟨before, s, after ++ later, by simp, hp⟩

/-- What has ended is among the lines of all that comes later. -/
theorem held_ended_mono {bytes : Bytes} {line : List Char} (more : Bytes)
    (h : line ∈ heldEnded bytes) : line ∈ heldEnded (bytes ++ more) :=
  (lossy_ended bytes more).mem h

/-- While output only comes in, a session is live exactly if a line of the shell has ended. -/
theorem live_of_output {pieces : List Bytes} :
    (Watch.run {} (pieces.map .output)).warmup.live = true ↔
      ∃ line ∈ heldEnded pieces.flatten, Line.origin line = .shell := by
  have hw := run_watched (pieces.map Sign.output)
  constructor
  · intro hl
    obtain ⟨before, s, after, he, hp⟩ := hw.live.mp hl
    have hm : s ∈ pieces.map Sign.output := by simp [he]
    obtain ⟨piece, _, rfl⟩ := List.mem_map.mp hm
    obtain ⟨line, hline, ho⟩ := (persuades_output _ _).mp hp
    refine ⟨line, ?_, ho⟩
    have hr : pieces.flatten = received (before ++ [.output piece]) ++ received after := by
      rw [← received_output, he]
      simp [received]
    rw [hr]
    exact held_ended_mono _ hline
  · rintro ⟨line, hline, ho⟩
    by_contra hn
    rw [← received_output] at hline
    exact hw.waiting (by simpa using hn) line hline ho

/-- However output is divided, the same is held of it, the session is live or not, and every exit
is judged the same. The session is live exactly if a line of the shell has ended. -/
theorem output_reads_as_whole (pieces : List Bytes) :
    let w := (Watch.run {} (pieces.map .output)).warmup
    w.output = pieces.flatten ∧
    (w.live = true ↔ ∃ line ∈ heldEnded pieces.flatten, Line.origin line = .shell) ∧
    ∀ others : List Bytes, others.flatten = pieces.flatten →
      let v := (Watch.run {} (others.map .output)).warmup
      v.live = w.live ∧ v.output = w.output ∧
      ∀ shell code, v.exitFailure? shell code = w.exitFailure? shell code := by
  intro w
  have held (others : List Bytes) :
      (Watch.run {} (others.map .output)).warmup.output = others.flatten := by
    rw [(run_watched _).output, received_output]
  refine ⟨held pieces, live_of_output, ?_⟩
  intro others he v
  have hl : v.live = w.live := by
    rw [Bool.eq_iff_iff, live_of_output, live_of_output, he]
  have ho : v.output = w.output := by
    rw [held others, held pieces, he]
  have hi : v.input = w.input := by
    rw [(run_watched _).input, (run_watched _).input]
  have hw : v = w := by
    calc v = ⟨v.output, v.input, v.live⟩ := rfl
      _ = ⟨w.output, w.input, w.live⟩ := by rw [ho, hi, hl]
      _ = w := rfl
  exact ⟨hl, ho, fun shell code => by rw [hw]⟩

/-- A session goes live once at most and stays so. Until then every line that has ended is the
runtime's or `kubectl`'s. An exit is no failure after that, and before it only with the code of
success and no line of the runtime's; the shell is missing if there is such a line, or if a code
says so and no error of `kubectl`'s own does not; every other exit has a reason, which is the first
of those errors if there is one. -/
theorem exits_are_judged (signs : List Sign) (shell : String) (code : Nat) :
    let x := Watch.run {} signs
    let w := x.warmup
    let held := heldLines w.output
    let exit := w.exitFailure? shell code
    (w.live = true → ∀ later, (x.run later).warmup.live = true) ∧
    x.answers.count true = (if w.live then 1 else 0) ∧
    (w.live = false → ∀ line ∈ heldEnded w.output,
      Line.origin line = .runtime ∨ Line.origin line = .client) ∧
    (exit = none ↔
      w.live = true ∨ code = 0 ∧ ∀ line ∈ held, Line.origin line ≠ .runtime) ∧
    (exit = some (.shellUnavailable shell) ↔
      w.live = false ∧ ((∃ line ∈ held, Line.origin line = .runtime) ∨
        (code = 126 ∨ code = 127) ∧ ∀ line ∈ held, isOwnError line = false)) ∧
    (exit ≠ none → exit ≠ some (.shellUnavailable shell) →
      ∃ reason, exit = some (.establish reason) ∧ Telling reason ∧
        ∀ line, held.find? isOwnError = some line →
          reason = String.ofList (Text.trim line)) := by
  intro x w held exit
  have hw : Watched signs x := run_watched signs
  refine ⟨fun hl later => run_live signs later hl, hw.once, ?_, ?_⟩
  · intro hl line hm
    rw [hw.output] at hm
    have hs := hw.waiting hl line hm
    cases ho : Line.origin line with
    | runtime => exact .inl rfl
    | client => exact .inr rfl
    | shell => exact (hs ho).elim
  refine ⟨exit_none_iff w shell code, exit_unavailable_iff w shell code, ?_⟩
  exact exit_established w shell code

theorem persuades_lines {bytes : Bytes} {s : Sign} (h : Persuades bytes s) :
    (∃ line ∈ heldLines bytes, Line.origin line = .shell) ∨ s = .quiet ∧ Blank bytes := by
  rcases h with h | h
  · cases s with
    | output piece =>
      obtain ⟨line, hm, ho⟩ := h
      exact .inl ⟨line, ended_lines_subset _ hm, ho⟩
    | quiet => exact .inl h.1
  · exact .inr h

/-- A session goes live at a sign only with a line of the shell, or at a quiet in which there was
something and no line in it; and it is live exactly if there was such a sign. So where no line is
the shell's it is live exactly if there was such a quiet. While it is not, a line of the runtime's
means that the shell is missing, whatever the code. -/
theorem live_by_line_or_by_blanks (signs : List Sign) :
    let w := (Watch.run {} signs).warmup
    (∀ before s after, signs = before ++ s :: after →
      (Watch.run {} before).warmup.live = false →
      (Watch.run {} (before ++ [s])).warmup.live = true →
      Persuades (received (before ++ [s])) s) ∧
    (w.live = true ↔ ∃ before s after, signs = before ++ s :: after ∧
      Persuades (received (before ++ [s])) s) ∧
    ((∀ before after, signs = before ++ after →
        ∀ line ∈ heldLines (received before), Line.origin line ≠ .shell) →
      (w.live = true ↔
        ∃ before after, signs = before ++ .quiet :: after ∧ Blank (received before))) ∧
    (w.live = false → (∃ line ∈ heldLines w.output, Line.origin line = .runtime) →
      ∀ shell code, w.exitFailure? shell code = some (.shellUnavailable shell)) := by
  intro w
  have hw := run_watched signs
  have quiet (before : List Sign) : received (before ++ [.quiet]) = received before := by
    rw [received_snoc, outputOf, List.append_nil]
  refine ⟨?_, hw.live, ?_, ?_⟩
  · rintro before s after rfl hl hs
    rw [(run_watched _).live, persuaded_snoc, ← (run_watched before).live, hl] at hs
    exact hs.resolve_left nofun
  · intro hno
    rw [hw.live]
    constructor
    · rintro ⟨before, s, after, rfl, hp⟩
      rcases persuades_lines hp with ⟨line, hm, ho⟩ | ⟨rfl, hb⟩
      · exact (hno (before ++ [s]) after (by simp) line hm ho).elim
      · rw [quiet] at hb
        exact ⟨before, after, rfl, hb⟩
    · rintro ⟨before, after, rfl, hb⟩
      refine ⟨before, .quiet, after, rfl, .inr ⟨rfl, ?_⟩⟩
      rwa [quiet]
  · intro hl hr shell code
    exact (exit_unavailable_iff w shell code).mpr ⟨hl, .inl hr⟩

/-- One line feed and a quiet, and the runtime's own failure is shown as the shell's output. -/
theorem live_by_one_line_feed :
    let x := Watch.run {} [.output [0x0A], .quiet]
    let y := x.step (.output (Text.Utf8.encode "OCI runtime exec failed\n"))
    x.warmup.live = true ∧ heldLines x.warmup.output = [] ∧
    Line.origin "OCI runtime exec failed".toList = .runtime ∧
    y.warmup.exitFailure? "bash" 126 = none :=
  ⟨rfl, rfl, by decide, rfl⟩

end PodConsole.Proofs.Signs
