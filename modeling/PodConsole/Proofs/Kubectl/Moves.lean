import PodConsole.Kubectl.Attempt

namespace PodConsole.Proofs.Moves
open Exec Kubectl Attempt
open Text (Bytes)
open Wire (Size)

/-- Output that does not make the shell count as up is held. -/
def gather (a : Attempt) (bytes : Bytes) : Attempt :=
  { a with warmup := { a.warmup with output := a.warmup.output ++ bytes } }

/-- The shell has just spoken: all that was held is written. -/
def speak (a : Attempt) (bytes : Bytes) (next : Next) : Attempt :=
  { a with warmup := { a.warmup with output := [], live := true } }.write
    (a.warmup.output ++ bytes) next

/-- The failures by which an exit is judged. -/
def isVerdict : Failure → Bool
  | .shellUnavailable _ | .establish _ => true
  | .noShellAvailable _ | .stream _ | .disconnected => false

inductive Concluded (a : Attempt) : Attempt → Prop
  | failed {failure : Failure} : a.warmup.live = false → isVerdict failure = true →
      Concluded a (a.finish (.error failure))
  | silent : a.warmup.output = [] →
      Concluded a { a with warmup := { a.warmup with output := [] }, stage := .flushing }
  | shown : Concluded a
      ({ a with warmup := { a.warmup with output := [] } }.write a.warmup.output .flush)

theorem exit_failure_verdict {w : Warmup} {shell : String} {code : Nat} {failure : Failure}
    (h : w.exitFailure? shell code = some failure) :
    w.live = false ∧ isVerdict failure = true := by
  unfold Warmup.exitFailure? at h
  split at h
  · cases h
  · rename_i hl
    refine ⟨by simpa using hl, ?_⟩
    repeat' split at h
    all_goals cases h
    all_goals rfl

theorem conclude_concluded (a : Attempt) : Concluded a a.conclude := by
  unfold conclude
  split
  · rename_i failure hf
    obtain ⟨hl, hv⟩ := exit_failure_verdict hf
    exact .failed hl hv
  · dsimp only [Warmup.takeOutput]
    split
    · rename_i he
      exact .silent (List.isEmpty_iff.mp he)
    · exact .shown

inductive Move (a : Attempt) : Event → Attempt → Prop
  | relay (bytes : Bytes) : a.stage = .forwarding → a.warmup.live = true →
      Move a (.output bytes) (a.write bytes .forward)
  | drain (bytes : Bytes) : a.stage = .draining → a.warmup.live = true →
      Move a (.output bytes) (a.write bytes .drain)
  | gather (bytes : Bytes) : a.stage = .forwarding ∨ a.stage = .draining →
      a.warmup.live = false → Move a (.output bytes) (gather a bytes)
  | speak (bytes : Bytes) : a.stage = .forwarding → a.warmup.live = false →
      Move a (.output bytes) (speak a bytes .release)
  | speakLate (bytes : Bytes) : a.stage = .draining → a.warmup.live = false →
      Move a (.output bytes) (speak a bytes .drain)
  | quiet : a.stage = .forwarding → Move a .settle a
  | settle : a.stage = .forwarding → a.warmup.live = false → Move a .settle (speak a [] .release)
  | outputEnd : a.stage = .forwarding → Move a .outputEnd { a with outputEnded := true }
  | exit (code : Nat) : a.stage = .forwarding →
      Move a (.exit code) { a with code, stage := .draining }
  | judged (code : Nat) {b : Attempt} : a.stage = .forwarding → Concluded { a with code } b →
      Move a (.exit code) b
  | drained {e : Event} {b : Attempt} : a.stage = .draining → e = .outputEnd ∨ e = .drained →
      Concluded a b → Move a e b
  | cut {bytes : Bytes} {e : Event} {b : Attempt} : a.stage = .writing bytes .drain →
      e = .refused ∨ e = .drained → Concluded a b → Move a e b
  | lost (reason : String) : a.stage = .forwarding →
      Move a (.lost reason) (a.finish (.error (.stream reason)))
  | left : a.stage = .forwarding → Move a .left (a.finish (.error .disconnected))
  | gone {bytes : Bytes} {next : Next} : a.stage = .writing bytes next →
      next = .forward ∨ next = .release → Move a .refused (a.finish (.error .disconnected))
  | deadline : a.stage = .forwarding → a.released = false → Move a .deadline a.release
  | hold (bytes : Bytes) : a.stage = .forwarding → a.released = false →
      Move a (.keys bytes) { a with warmup := a.warmup.holdInput bytes }
  | hand (bytes : Bytes) : a.stage = .forwarding → a.released = true →
      Move a (.keys bytes) { a with handed := a.handed ++ [bytes] }
  | size (screen : Size) : a.stage = .forwarding → Move a (.size screen) { a with screen }
  | forwarded {bytes : Bytes} : a.stage = .writing bytes .forward →
      Move a .taken { a with stage := .forwarding }
  | released {bytes : Bytes} : a.stage = .writing bytes .release →
      Move a .taken { a.release with stage := .forwarding }
  | written {bytes : Bytes} : a.stage = .writing bytes .drain →
      Move a .taken { a with stage := .draining }
  | flush {bytes : Bytes} {e : Event} : a.stage = .writing bytes .flush →
      e = .taken ∨ e = .refused → Move a e { a with stage := .flushing }
  | flushed {e : Event} : a.stage = .flushing → e = .taken ∨ e = .refused →
      Move a e (a.finish (.ok ()))

/-- What the held output says of the shell decides whether it is written or held on. -/
theorem follow_eq {a : Attempt} (h : a.warmup.live = false) (bytes : Bytes) (next : Next)
    (spoke : Bool) :
    a.follow (spoke, { a.warmup with output := a.warmup.output ++ bytes, live := spoke }) next =
      if spoke then speak a bytes next else gather a bytes := by
  cases spoke with
  | true => rfl
  | false =>
    have hw : { a.warmup with output := a.warmup.output ++ bytes, live := false } =
        { a.warmup with output := a.warmup.output ++ bytes } := by rw [← h]
    simp only [follow, hw]
    rfl

theorem push_output_follow {a : Attempt} (h : a.warmup.live = false) (bytes : Bytes) (next : Next) :
    a.follow (a.warmup.pushOutput bytes) next = speak a bytes next ∨
      a.follow (a.warmup.pushOutput bytes) next = gather a bytes := by
  rw [Warmup.push_output_waiting h]
  dsimp only
  rw [follow_eq h]
  split
  · exact .inl rfl
  · exact .inr rfl

theorem settle_follow {a : Attempt} (h : a.settling = true) (next : Next) :
    a.follow a.warmup.settle next = speak a [] next ∨ a.follow a.warmup.settle next = a := by
  simp only [settling, Bool.and_eq_true, Bool.not_eq_true'] at h
  obtain ⟨hl, ho⟩ := h
  have hs := Warmup.settle_waiting hl (by simpa using ho)
  rw [← List.append_nil a.warmup.output] at hs
  rw [hs]
  dsimp only
  rw [follow_eq hl]
  split
  · exact .inl rfl
  · exact .inr (by simp [gather])

theorem forwarding_move {a : Attempt} {e : Event} (hs : a.stage = .forwarding)
    (h : a.hears e = true) : Move a e (a.forwarding e) := by
  cases e with
  | output bytes =>
    simp only [forwarding]
    cases hl : a.warmup.live with
    | true => exact .relay bytes hs hl
    | false =>
      rcases push_output_follow hl bytes .release with hf | hf
      · simpa [hf] using Move.speak bytes hs hl
      · simpa [hf] using Move.gather bytes (.inl hs) hl
  | outputEnd => exact .outputEnd hs
  | exit code =>
    simp only [forwarding]
    split
    · exact .judged code hs (conclude_concluded _)
    · exact .exit code hs
  | lost reason => exact .lost reason hs
  | settle =>
    have ht : a.settling = true := by simpa [hears, hs, Stage.isForwarding] using h
    have hl : a.warmup.live = false := by
      simp only [settling, Bool.and_eq_true, Bool.not_eq_true'] at ht
      exact ht.1
    simp only [forwarding]
    rcases settle_follow ht .release with hf | hf
    · rw [hf]
      exact .settle hs hl
    · rw [hf]
      exact .quiet hs
  | deadline => exact .deadline hs (by simpa [hears, hs, Stage.isForwarding] using h)
  | keys bytes =>
    simp only [forwarding]
    split
    · rename_i hr
      exact .hand bytes hs hr
    · rename_i hr
      exact .hold bytes hs (by simpa using hr)
  | size screen => exact .size screen hs
  | left => exact .left hs
  | drained => simp [hears, hs, Stage.isDraining] at h
  | taken => simp [hears, hs, Stage.isHanding] at h
  | refused => simp [hears, hs, Stage.isHanding] at h

theorem draining_move {a : Attempt} (hs : a.stage = .draining) (bytes : Bytes) :
    Move a (.output bytes) (a.draining bytes) := by
  unfold draining
  split
  · rename_i hl
    exact .drain bytes hs hl
  · rename_i hl
    have hl : a.warmup.live = false := by simpa using hl
    rcases push_output_follow hl bytes .drain with hf | hf
    · rw [hf]
      exact .speakLate bytes hs hl
    · rw [hf]
      exact .gather bytes (.inr hs) hl

theorem taken_move {a : Attempt} {bytes : Bytes} {next : Next}
    (hs : a.stage = .writing bytes next) : Move a .taken (a.taken next) := by
  cases next with
  | forward => exact .forwarded hs
  | release => exact .released hs
  | drain => exact .written hs
  | flush => exact .flush hs (.inl rfl)

theorem refused_move {a : Attempt} {bytes : Bytes} {next : Next}
    (hs : a.stage = .writing bytes next) : Move a .refused (a.refused next) := by
  cases next with
  | forward => exact .gone hs (.inl rfl)
  | release => exact .gone hs (.inr rfl)
  | drain => exact .cut hs (.inl rfl) (conclude_concluded a)
  | flush => exact .flush hs (.inr rfl)

/-- Whatever an attempt hears is one of its moves. -/
theorem step_move {a : Attempt} {e : Event} (h : a.hears e = true) : Move a e (a.step e) := by
  rw [step, if_pos h]
  cases hs : a.stage with
  | forwarding =>
    simp only [react, hs]
    exact forwarding_move hs h
  | writing bytes next =>
    cases e with
    | taken =>
      simp only [react, hs]
      exact taken_move hs
    | refused =>
      simp only [react, hs]
      exact refused_move hs
    | drained =>
      cases next with
      | drain =>
        simp only [react, hs]
        exact .cut hs (.inr rfl) (conclude_concluded a)
      | forward | release | flush => simp [hears, hs, Stage.isDraining] at h
    | output _ | outputEnd | exit _ | lost _ | settle | deadline | keys _ | size _ | left =>
      simp [hears, hs, Stage.isForwarding] at h
  | draining =>
    cases e with
    | output bytes =>
      simp only [react, hs]
      exact draining_move hs bytes
    | outputEnd =>
      simp only [react, hs]
      exact .drained hs (.inl rfl) (conclude_concluded a)
    | drained =>
      simp only [react, hs]
      exact .drained hs (.inr rfl) (conclude_concluded a)
    | taken | refused | exit _ | lost _ | settle | deadline | keys _ | size _ | left =>
      simp [hears, hs, Stage.isForwarding, Stage.isHanding] at h
  | flushing =>
    cases e with
    | taken =>
      simp only [react, hs]
      exact .flushed hs (.inl rfl)
    | refused =>
      simp only [react, hs]
      exact .flushed hs (.inr rfl)
    | output _ | outputEnd | exit _ | lost _ | settle | deadline | keys _ | size _ | left
    | drained =>
      simp [hears, hs, Stage.isForwarding, Stage.isDraining] at h
  | _ =>
    -- what is over hears nothing
    cases e <;>
      simp [hears, hs, Stage.isForwarding, Stage.isDraining, Stage.isHanding] at h

/-- An attempt with all that it has heard. -/
inductive History (shell : String) (screen : Size) : List Event → Attempt → Prop
  | start : History shell screen [] (.start shell screen)
  | hear {log : List Event} {a : Attempt} {e : Event} : History shell screen log a →
      a.hears e = true → History shell screen (log ++ [e]) (a.step e)

end PodConsole.Proofs.Moves
