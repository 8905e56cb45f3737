import PodConsole.Proofs.Kubectl.Moves

namespace PodConsole.Proofs.Output
open Exec Kubectl Attempt Moves
open Text (Bytes)
open Wire (Size)

def outputOf : Event → Bytes
  | .output bytes => bytes
  | _ => []

/-- All output, in the order in which it came. -/
def received (log : List Event) : Bytes :=
  log.flatMap outputOf

theorem received_snoc (log : List Event) (e : Event) :
    received (log ++ [e]) = received log ++ outputOf e := by
  simp [received]

/-- The exit was judged well, and what is left is shown. -/
def Closing (s : Stage) : Prop :=
  (∃ bytes, s = .writing bytes .flush) ∨ s = .flushing ∨ s = .over (.ok ())

theorem not_closing_of_forwarding {s : Stage} (h : s = .forwarding) : ¬ Closing s := by
  subst h
  simp [Closing]

theorem not_closing_of_draining {s : Stage} (h : s = .draining) : ¬ Closing s := by
  subst h
  simp [Closing]

theorem not_closing_of_writing {s : Stage} {bytes : Bytes} {next : Next}
    (h : s = .writing bytes next) (hn : next ≠ .flush) : ¬ Closing s := by
  subst h
  simpa [Closing] using hn

structure Kept (got : Bytes) (a : Attempt) : Prop where
  conserved : a.written.flatten ++ a.warmup.output = got
  live : a.warmup.live = true → a.warmup.output = []
  silent : a.warmup.live = false → ¬ Closing a.stage → a.written = []
  closing : Closing a.stage → a.warmup.output = []
  writing : ∀ bytes next, a.stage = .writing bytes next →
    bytes ∈ a.written ∧ (next ≠ .flush → a.warmup.live = true)
  failed : ∀ failure, a.stage = .over (.error failure) → isVerdict failure = true →
    a.warmup.live = false ∧ a.written = []

theorem kept_start (shell : String) (screen : Size) : Kept [] (.start shell screen) where
  conserved := rfl
  live _ := rfl
  silent _ _ := rfl
  closing _ := rfl
  writing _ _ h := by cases h
  failed _ h := by cases h

/-- Neither output nor its place has changed, and the attempt goes on. -/
theorem Kept.go_on {got : Bytes} {a b : Attempt} (h : Kept got a) (hc : ¬ Closing a.stage)
    (hw : b.written = a.written) (ho : b.warmup.output = a.warmup.output)
    (hl : b.warmup.live = a.warmup.live) (hs : b.stage = .forwarding ∨ b.stage = .draining) :
    Kept got b where
  conserved := by rw [hw, ho]; exact h.conserved
  live := by rw [hl, ho]; exact h.live
  silent := by
    intro hb _
    rw [hw]
    exact h.silent (hl ▸ hb) hc
  closing := by
    intro hb
    rcases hs with hs | hs
    · exact (not_closing_of_forwarding hs hb).elim
    · exact (not_closing_of_draining hs hb).elim
  writing := by
    intro bytes next hb
    rcases hs with hs | hs <;> rw [hs] at hb <;> cases hb
  failed := by
    intro failure hb
    rcases hs with hs | hs <;> rw [hs] at hb <;> cases hb

/-- Output written as it comes; nothing was held before it. -/
theorem Kept.relay {got : Bytes} {a : Attempt} (h : Kept got a) (hl : a.warmup.live = true)
    (bytes : Bytes) {next : Next} (hn : next ≠ .flush) :
    Kept (got ++ bytes) (a.write bytes next) where
  conserved := by
    have ho := h.live hl
    have hc := h.conserved
    rw [ho, List.append_nil] at hc
    simp [write, ho, hc]
  live := h.live
  silent := by
    intro hb
    rw [show (a.write bytes next).warmup.live = true from hl] at hb
    cases hb
  closing hb := (not_closing_of_writing rfl hn hb).elim
  writing := by
    intro b n hb
    cases hb
    exact ⟨by simp [write], fun _ => hl⟩
  failed _ hb := by cases hb

theorem Kept.gather {got : Bytes} {a : Attempt} (h : Kept got a) (hc : ¬ Closing a.stage)
    (hl : a.warmup.live = false) (bytes : Bytes) : Kept (got ++ bytes) (gather a bytes) where
  conserved := by
    rw [← h.conserved]
    simp [Moves.gather]
  live := by
    intro hb
    rw [show (Moves.gather a bytes).warmup.live = false from hl] at hb
    cases hb
  silent _ hb := h.silent hl hb
  closing hb := (hc hb).elim
  writing := h.writing
  failed := h.failed

/-- All that was held is written, the last of it included. -/
theorem Kept.speak {got : Bytes} {a : Attempt} (h : Kept got a) (bytes : Bytes) {next : Next}
    (hn : next ≠ .flush) : Kept (got ++ bytes) (speak a bytes next) where
  conserved := by
    rw [← h.conserved]
    simp [Moves.speak, write]
  live _ := rfl
  silent hb := by cases hb
  closing hb := (not_closing_of_writing rfl hn hb).elim
  writing := by
    intro b n hb
    cases hb
    exact ⟨by simp [Moves.speak, write], fun _ => rfl⟩
  failed _ hb := by cases hb

theorem Kept.concluded {got : Bytes} {a b : Attempt} (h : Kept got a) (hc : ¬ Closing a.stage)
    (hb : Concluded a b) : Kept got b := by
  cases hb with
  | @failed failure hl hv =>
    refine ⟨h.conserved, h.live, fun _ _ => h.silent hl hc, ?_, ?_, ?_⟩
    · rintro (⟨_, hs⟩ | hs | hs) <;> cases hs
    · intro _ _ hs
      cases hs
    · intro _ _ _
      exact ⟨hl, h.silent hl hc⟩
  | silent ho =>
    refine ⟨?_, fun _ => rfl, ?_, fun _ => rfl, ?_, ?_⟩
    · rw [← h.conserved, ho]
    · intro _ hs
      exact (hs (.inr (.inl rfl))).elim
    · intro _ _ hs
      cases hs
    · intro _ hs
      cases hs
  | shown =>
    refine ⟨?_, fun _ => rfl, ?_, fun _ => rfl, ?_, ?_⟩
    · rw [← h.conserved]
      simp [write]
    · intro _ hs
      exact (hs (.inl ⟨_, rfl⟩)).elim
    · intro _ _ hs
      cases hs
      exact ⟨by simp [write], fun hn => (hn rfl).elim⟩
    · intro _ hs
      cases hs

/-- An end for a reason that is no judgement of the exit. -/
theorem Kept.broken {got : Bytes} {a : Attempt} (h : Kept got a) (hc : ¬ Closing a.stage)
    {failure : Failure} (hf : isVerdict failure = false) :
    Kept got (a.finish (.error failure)) where
  conserved := h.conserved
  live := h.live
  silent hl _ := h.silent hl hc
  closing := by rintro (⟨_, hs⟩ | hs | hs) <;> cases hs
  writing _ _ hs := by cases hs
  failed := by
    intro _ hs hv
    cases hs
    rw [hf] at hv
    cases hv

/-- The last steps of an attempt whose exit was judged well. -/
theorem Kept.close {got : Bytes} {a b : Attempt} (h : Kept got a) (hc : Closing a.stage)
    (hw : b.written = a.written) (hu : b.warmup = a.warmup)
    (hs : b.stage = .flushing ∨ b.stage = .over (.ok ())) : Kept got b where
  conserved := by rw [hw, hu]; exact h.conserved
  live := by rw [hu]; exact h.live
  silent := by
    intro _ hb
    exact (hb (.inr hs)).elim
  closing _ := by rw [hu]; exact h.closing hc
  writing := by
    intro _ _ hb
    rcases hs with hs | hs <;> rw [hs] at hb <;> cases hb
  failed := by
    intro _ hb
    rcases hs with hs | hs <;> rw [hs] at hb <;> cases hb

theorem Kept.without_output {got : Bytes} {b : Attempt} {e : Event} (h : Kept got b)
    (he : outputOf e = []) : Kept (got ++ outputOf e) b := by
  rwa [he, List.append_nil]

theorem Kept.move {got : Bytes} {a b : Attempt} {e : Event} (h : Kept got a) (hm : Move a e b) :
    Kept (got ++ outputOf e) b := by
  cases hm with
  | relay bytes hs hl => exact h.relay hl bytes (by simp)
  | drain bytes hs hl => exact h.relay hl bytes (by simp)
  | gather bytes hs hl =>
    rcases hs with hs | hs
    · exact h.gather (not_closing_of_forwarding hs) hl bytes
    · exact h.gather (not_closing_of_draining hs) hl bytes
  | speak bytes hs hl => exact h.speak bytes (by simp)
  | speakLate bytes hs hl => exact h.speak bytes (by simp)
  | settle hs hl => exact h.speak [] (by simp)
  | quiet hs => exact h.without_output rfl
  | outputEnd hs | deadline hs | hold _ hs | hand _ hs | size _ hs =>
    apply Kept.without_output _ rfl
    exact h.go_on (not_closing_of_forwarding hs) rfl rfl rfl (.inl hs)
  | exit code hs =>
    apply Kept.without_output _ rfl
    exact h.go_on (not_closing_of_forwarding hs) rfl rfl rfl (.inr rfl)
  | judged code hs hb =>
    have hc := not_closing_of_forwarding hs
    have hk : Kept got { a with code } := h.go_on hc rfl rfl rfl (.inl hs)
    exact (hk.concluded hc hb).without_output rfl
  | drained hs he hb =>
    have hk := h.concluded (not_closing_of_draining hs) hb
    rcases he with rfl | rfl <;> exact hk.without_output rfl
  | cut hs he hb =>
    have hk := h.concluded (not_closing_of_writing hs (by simp)) hb
    rcases he with rfl | rfl <;> exact hk.without_output rfl
  | lost reason hs => exact (h.broken (not_closing_of_forwarding hs) rfl).without_output rfl
  | left hs => exact (h.broken (not_closing_of_forwarding hs) rfl).without_output rfl
  | gone hs hn =>
    have hc := not_closing_of_writing hs (by rcases hn with rfl | rfl <;> simp)
    exact (h.broken hc rfl).without_output rfl
  | forwarded hs =>
    apply Kept.without_output _ rfl
    exact h.go_on (not_closing_of_writing hs (by simp)) rfl rfl rfl (.inl rfl)
  | released hs =>
    apply Kept.without_output _ rfl
    exact h.go_on (not_closing_of_writing hs (by simp)) rfl rfl rfl (.inl rfl)
  | written hs =>
    apply Kept.without_output _ rfl
    exact h.go_on (not_closing_of_writing hs (by simp)) rfl rfl rfl (.inr rfl)
  | flush hs he =>
    have hk : Kept got { a with stage := .flushing } :=
      h.close (.inl ⟨_, hs⟩) rfl rfl (.inl rfl)
    rcases he with rfl | rfl <;> exact hk.without_output rfl
  | flushed hs he =>
    have hk : Kept got (a.finish (.ok ())) := h.close (.inr (.inl hs)) rfl rfl (.inr rfl)
    rcases he with rfl | rfl <;> exact hk.without_output rfl

/-- What every attempt keeps, whatever it has heard. -/
theorem history_kept {shell : String} {screen : Size} {log : List Event} {a : Attempt}
    (h : History shell screen log a) : Kept (received log) a := by
  induction h with
  | start => exact kept_start shell screen
  | hear _ hh ih =>
    rw [received_snoc]
    exact ih.move (step_move hh)

end PodConsole.Proofs.Output
