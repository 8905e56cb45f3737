import PodConsole.Proofs.Kubectl.Hearing
import PodConsole.Proofs.Kubectl.Output

namespace PodConsole.Proofs.Keystrokes
open Kubectl Attempt Moves Output Hearing
open Session (Answer Terminal)
open Text (Bytes)
open Wire (Size)

def keysOf? : Event → Option Bytes
  | .keys bytes => some bytes
  | _ => none

/-- The keystrokes that were read, in order. -/
def keysRead (log : List Event) : List Bytes :=
  log.filterMap keysOf?

theorem keys_read_snoc (log : List Event) (e : Event) :
    keysRead (log ++ [e]) = keysRead log ++ (keysOf? e).toList := by
  cases h : keysOf? e <;> simp [keysRead, h]

/-- The forwarding loop, a write of output as it comes included. -/
def Looping (s : Stage) : Prop :=
  s = .forwarding ∨ ∃ bytes, s = .writing bytes .forward

structure Queued (log : List Event) (a : Attempt) : Prop where
  order : a.handed ++ a.warmup.input = keysRead log
  held : a.released = false → a.handed = []
  nothing : a.released = true → a.warmup.input = []
  cause : a.released = true → a.warmup.live = true ∨ .deadline ∈ log
  deadline : .deadline ∈ log → a.released = true
  live : Looping a.stage → a.warmup.live = true → a.released = true

theorem queued_start (shell : String) (screen : Size) : Queued [] (.start shell screen) where
  order := rfl
  held _ := rfl
  nothing h := by cases h
  cause h := by cases h
  deadline h := by cases h
  live _ h := by cases h

variable {log : List Event} {a b : Attempt} {e : Event}

/-- Nothing has happened to the keystrokes; the shell may have spoken, outside the loop. -/
theorem Queued.keep (h : Queued log a) (he : keysOf? e = none) (hd : e ≠ .deadline)
    (hh : b.handed = a.handed) (hi : b.warmup.input = a.warmup.input)
    (hr : b.released = a.released) (hl : a.warmup.live = true → b.warmup.live = true)
    (hs : Looping b.stage → b.warmup.live = true → a.released = true) :
    Queued (log ++ [e]) b where
  order := by
    rw [hh, hi, h.order, keys_read_snoc, he]
    simp
  held := by rw [hh, hr]; exact h.held
  nothing := by rw [hi, hr]; exact h.nothing
  cause := by
    intro hb
    rcases h.cause (hr ▸ hb) with hc | hc
    · exact .inl (hl hc)
    · exact .inr (List.mem_append_left _ hc)
  deadline := by
    intro hb
    rcases List.mem_append.mp hb with hb | hb
    · rw [hr]
      exact h.deadline hb
    · exact (hd (List.mem_singleton.mp hb).symm).elim
  live := by rw [hr]; exact hs

/-- What was held is handed over, once there is a reason to. -/
theorem Queued.release (h : Queued log a) (he : keysOf? e = none)
    (hc : a.warmup.live = true ∨ e = .deadline) (hh : b.handed = a.handed ++ a.warmup.input)
    (hi : b.warmup.input = []) (hr : b.released = true) (hl : b.warmup.live = a.warmup.live) :
    Queued (log ++ [e]) b where
  order := by
    rw [hh, hi, List.append_nil, h.order, keys_read_snoc, he]
    simp
  held := by
    intro hb
    rw [hr] at hb
    cases hb
  nothing _ := hi
  cause _ := by
    rw [hl]
    rcases hc with hc | rfl
    · exact .inl hc
    · exact .inr (by simp)
  deadline _ := hr
  live _ _ := hr

theorem Queued.hold (h : Queued log a) (hr : a.released = false) (bytes : Bytes) :
    Queued (log ++ [.keys bytes]) { a with warmup := a.warmup.holdInput bytes } where
  order := by
    have ho := h.order
    rw [keys_read_snoc, ← ho]
    simp [Warmup.holdInput, keysOf?]
  held := h.held
  nothing hb := by
    rw [show a.released = true from hb] at hr
    cases hr
  cause hb := by
    rw [show a.released = true from hb] at hr
    cases hr
  deadline hb := h.deadline (by simpa using hb)
  live := h.live

theorem Queued.hand (h : Queued log a) (hr : a.released = true) (bytes : Bytes) :
    Queued (log ++ [.keys bytes]) { a with handed := a.handed ++ [bytes] } where
  order := by
    have ho := h.order
    rw [h.nothing hr, List.append_nil] at ho
    rw [keys_read_snoc, ← ho]
    simp [h.nothing hr, keysOf?]
  held hb := by
    rw [show a.released = false from hb] at hr
    cases hr
  nothing := h.nothing
  cause hb := (h.cause hb).imp_right (List.mem_append_left _)
  deadline hb := h.deadline (by simpa using hb)
  live := h.live

theorem Queued.concluded (h : Queued log a) (he : keysOf? e = none) (hd : e ≠ .deadline)
    (hb : Concluded a b) : Queued (log ++ [e]) b := by
  cases hb with
  | failed => exact h.keep he hd rfl rfl rfl id (by rintro (hs | ⟨_, hs⟩) <;> cases hs)
  | silent => exact h.keep he hd rfl rfl rfl id (by rintro (hs | ⟨_, hs⟩) <;> cases hs)
  | shown => exact h.keep he hd rfl rfl rfl id (by rintro (hs | ⟨_, hs⟩) <;> cases hs)

theorem Queued.move {got : Bytes} (h : Queued log a) (hk : Kept got a) (hm : Move a e b) :
    Queued (log ++ [e]) b := by
  have out {s : Stage} (hs : ¬ Looping s) {p : Prop} : Looping s → p := fun hl => (hs hl).elim
  cases hm with
  | relay bytes hs hl =>
    exact h.keep rfl (by simp) rfl rfl rfl id fun _ _ => h.live (.inl hs) hl
  | drain bytes hs hl => exact h.keep rfl (by simp) rfl rfl rfl id (out (by simp [write, Looping]))
  | gather bytes hs hl => exact h.keep rfl (by simp) rfl rfl rfl id h.live
  | speak bytes hs hl | speakLate bytes hs hl | settle hs hl =>
    exact h.keep rfl (by simp) rfl rfl rfl (fun _ => rfl) (out (by simp [speak, write, Looping]))
  | quiet hs | outputEnd hs | size _ hs => exact h.keep rfl (by simp) rfl rfl rfl id h.live
  | exit code hs => exact h.keep rfl (by simp) rfl rfl rfl id (out (by simp [Looping]))
  | judged code hs hb =>
    have hq : Queued log { a with code } :=
      ⟨h.order, h.held, h.nothing, h.cause, h.deadline, h.live⟩
    exact hq.concluded rfl (by simp) hb
  | drained hs he hb => rcases he with rfl | rfl <;> exact h.concluded rfl (by simp) hb
  | cut hs he hb => rcases he with rfl | rfl <;> exact h.concluded rfl (by simp) hb
  | lost _ hs | left hs | gone hs =>
    exact h.keep rfl (by simp) rfl rfl rfl id (out (by simp [finish, Looping]))
  | deadline hs hr => exact h.release rfl (.inr rfl) rfl rfl rfl rfl
  | hold bytes hs hr => exact h.hold hr bytes
  | hand bytes hs hr => exact h.hand hr bytes
  | forwarded hs =>
    exact h.keep rfl (by simp) rfl rfl rfl id fun _ hl => h.live (.inr ⟨_, hs⟩) hl
  | released hs =>
    -- what is written before the release is what the shell said
    have hl := (hk.writing _ _ hs).2 (by simp)
    exact h.release rfl (.inl hl) rfl rfl rfl rfl
  | written hs => exact h.keep rfl (by simp) rfl rfl rfl id (out (by simp [Looping]))
  | flush hs he | flushed hs he =>
    rcases he with rfl | rfl <;>
      exact h.keep rfl (by simp) rfl rfl rfl id (out (by simp [finish, Looping]))

theorem history_queued {shell : String} {screen : Size} (h : History shell screen log a) :
    Queued log a := by
  induction h with
  | start => exact queued_start shell screen
  | hear hh he ih => exact ih.move (history_kept hh) (step_move he)

def keyed? : Answer → Option Bytes
  | .keys bytes => some bytes
  | .pending | .size _ | .ended | .done | .full _ | .refused => none

/-- The keystrokes that the terminal gives out in an event. -/
def typed (x : Exchange) (e : Exchange.Event) : List Bytes :=
  ((x.act? e).bind fun act => keyed? (x.terminal.perform act).1).toList

/-- All keystrokes that the terminal gives out are read, and no others. -/
theorem step_keys_read (x : Exchange) (e : Exchange.Event) :
    keysRead (x.step e).heard = keysRead x.heard ++ typed x e := by
  refine step_given (f := keysOf?) (g := keyed?) (fun r => ?_) (fun n hn => ?_) rfl rfl x e
  · cases r <;> rfl
  · cases n <;> first | rfl | cases hn

/-- What was read is all that the terminal has given out. What was handed over and what is held are
together what was read, in order; nothing is handed over before the shell has spoken or the deadline
has passed, and after either the loop goes on with nothing held and hands over at once what it
reads. -/
theorem keystrokes_in_order (shell : String) (t : Terminal) (events : List Exchange.Event) :
    let x := (Exchange.start shell t).run events
    keysRead x.heard = along typed (Exchange.start shell t) events ∧
    x.attempt.handed ++ x.attempt.warmup.input = keysRead x.heard ∧
    (x.attempt.handed ≠ [] → x.attempt.warmup.live = true ∨ .deadline ∈ x.heard) ∧
    (x.attempt.stage = .forwarding → x.attempt.warmup.live = true ∨ .deadline ∈ x.heard →
      x.attempt.warmup.input = [] ∧
      ∀ bytes, (x.attempt.step (.keys bytes)).handed = x.attempt.handed ++ [bytes] ∧
        (x.attempt.step (.keys bytes)).warmup.input = []) := by
  intro x
  have hq : Queued x.heard x.attempt := history_queued (Exchanges.run_history shell t events)
  refine ⟨run_heard step_keys_read _ events, hq.order, ?_, ?_⟩
  · intro hh
    cases hr : x.attempt.released with
    | true => exact hq.cause hr
    | false => exact (hh (hq.held hr)).elim
  · intro hs hc
    have hr : x.attempt.released = true := by
      rcases hc with hl | hd
      · exact hq.live (.inl hs) hl
      · exact hq.deadline hd
    have hi := hq.nothing hr
    refine ⟨hi, fun bytes => ?_⟩
    simp [step, hears, react, forwarding, Stage.isForwarding, hs, hr, hi]

end PodConsole.Proofs.Keystrokes
