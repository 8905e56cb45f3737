import PodConsole.Proofs.Session.Seats

namespace PodConsole.Proofs.Rooms
open Session Pushing Sending Attending Seats
open Gateway (Held)
open Wire (Envelope)

variable {s t u : Seat}

/-- No queue of a session gets a different room, or a receiver back, and the time until which a
client is waited for stays. -/
structure Steady (s t : Seat) : Prop extends Ends s t where
  sizesRoom : t.terminal.sizes.capacity = s.terminal.sizes.capacity
  keysRoom : t.terminal.connection.stdin.capacity = s.terminal.connection.stdin.capacity
  framesRoom : t.terminal.connection.outbound.capacity = s.terminal.connection.outbound.capacity
  deadline : ∀ time, t.lifetime = .waiting time → s.lifetime = .waiting time

theorem Steady.trans (h : Steady s t) (h' : Steady t u) : Steady s u where
  toEnds := h.toEnds.trans h'.toEnds
  sizesRoom := h'.sizesRoom.trans h.sizesRoom
  keysRoom := h'.keysRoom.trans h.keysRoom
  framesRoom := h'.framesRoom.trans h.framesRoom
  deadline time := h.deadline time ∘ h'.deadline time

/-- Whatever is done to a session without touching its terminal. -/
theorem Steady.same_terminal (h : t.terminal = s.terminal)
    (hd : ∀ time, t.lifetime = .waiting time → s.lifetime = .waiting time) : Steady s t where
  toEnds := (Quiet.same_terminal h).toEnds
  sizesRoom := by rw [h]
  keysRoom := by rw [h]
  framesRoom := by rw [h]
  deadline := hd

theorem Steady.refl (s : Seat) : Steady s s :=
  .same_terminal rfl fun _ => id

theorem poll_room {α : Type} {q q' : Queue α} {found : Poll α} (h : q.poll = (found, q')) :
    q'.capacity = q.capacity := by
  obtain ⟨rest, rfl, -⟩ := poll_left h
  rfl

theorem leave_steady (s : Seat) (outcome : Outcome) : Steady s (s.leave outcome) :=
  ⟨(leave_quiet s outcome).toEnds, rfl, rfl, rfl, nofun⟩

theorem parted_steady {o : Outcome} {last : Envelope} (h : Parted s o last t) : Steady s t := by
  have hends := (parted_quiet h).toEnds
  cases h <;> exact ⟨hends, rfl, rfl, rfl, nofun⟩

theorem attend_steady (s : Seat) (now : Nat) (shutdown : Bool) :
    Steady s (s.attend now shutdown) := by
  let running := { s with session := { s.session with signal := .over }.markRunning }
  have hr : Steady s running := .same_terminal rfl fun _ => id
  have ha := attend_attended s now shutdown
  generalize s.attend now shutdown = t at ha
  cases ha with
  | launched => exact .same_terminal rfl nofun
  | turnedAway _ _ hp => exact hr.trans (parted_steady hp)
  | abandoned | shutDown | timedOut => exact leave_steady s _
  | stopped _ hp | parting _ hp => exact parted_steady hp
  | patient | busy | gone => exact .refl s

theorem attempted_steady (s : Seat) (result : Except Exec.Failure Unit) :
    Steady s (s.attempted result) := by
  rcases attempted_cases s result with hs | ⟨a, -, hc⟩
  · rw [hs]
    exact .refl s
  · generalize s.attempted result = t at hc
    cases hc with
    | again => exact .same_terminal rfl nofun
    | finished => exact leave_steady s .finished
    | failed _ _ hp => exact parted_steady hp

/-- The room of a terminal's queues for sizes, keystrokes and frames. -/
def rooms (t : Terminal) : Nat × Nat × Nat :=
  (t.sizes.capacity, t.connection.stdin.capacity, t.connection.outbound.capacity)

theorem read_rooms (t : Terminal) : rooms t.read.2 = rooms t := by
  unfold Terminal.read
  split
  · rfl
  · split
    · rename_i hp
      simp [rooms, Terminal.mapConnection, poll_room hp]
    · rfl
    · rfl

theorem next_size_rooms (t : Terminal) : rooms t.nextSize.2 = rooms t := by
  unfold Terminal.nextSize
  split
  · rfl
  · split
    · rename_i hp
      simp [rooms, poll_room hp]
    · rfl
    · rfl

theorem send_rooms (t : Terminal) (frame : Envelope) : rooms (t.send frame).2 = rooms t := by
  have ho := offer_room t.connection.outbound frame
  unfold Terminal.send
  split
  · rfl
  · split
    · rename_i outbound hsent
      rw [hsent] at ho
      rw [rooms, rooms, ← ho]
      rfl
    · rfl
    · rfl

theorem perform_rooms (t : Terminal) (act : Act) : rooms (t.perform act).2 = rooms t := by
  have text (d : Text.Decoder) (said : Option String) :
      rooms ({ t with decoder := d }.sendText? said).2 = rooms t := by
    cases said with
    | none => rfl
    | some text => exact send_rooms { t with decoder := d } (.stdout text)
  cases act with
  | read => exact read_rooms t
  | nextSize => exact next_size_rooms t
  | write bytes | flush => exact text _ _
  | toast words => exact send_rooms t (.toast words)
  | send frame => exact send_rooms t frame

theorem perform_steady (s : Seat) (act : Act) : Steady s (s.perform act).2 := by
  have hrooms := perform_rooms s.terminal act
  simp only [rooms, Prod.mk.injEq] at hrooms
  exact ⟨(perform_quiet s act).toEnds, hrooms.1, hrooms.2.1, hrooms.2.2, fun _ => id⟩

theorem push_steady (s : Seat) (held : Held) : Steady s (push s held).2 := by
  have hends := push_ends s held
  cases held with
  | keys text => exact ⟨hends, rfl, offer_room _ text, rfl, fun _ => id⟩
  | size size => exact ⟨hends, offer_room _ size, rfl, rfl, fun _ => id⟩

theorem cancel_steady (s : Seat) : Steady s (s.mapConnection Connection.cancel) :=
  ⟨cancel_ends s, rfl, rfl, rfl, fun _ => id⟩

theorem stop_writing_steady (s : Seat) : Steady s (s.mapConnection Connection.stopWriting) :=
  ⟨stop_writing_ends s, rfl, rfl, rfl, fun _ => id⟩

theorem said_steady (s : Seat) (rest : List Envelope) : Steady s (s.mapConnection fun c =>
    { c with outbound := { s.terminal.connection.outbound with items := rest } }) :=
  ⟨(said_quiet s rest).toEnds, rfl, rfl, rfl, fun _ => id⟩

end PodConsole.Proofs.Rooms
