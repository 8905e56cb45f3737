import PodConsole.Proofs.Session.Seats

namespace PodConsole.Proofs.Sizes
open Session Pushing Seats Attending
open Gateway (Held)
open Wire (Size)

variable {s : Seat} {t t' : Terminal} {q q' : Queue Size} {got taken sent : List Size}

/-- The last of some sizes, or the one before them. -/
def latest (first : Size) (sizes : List Size) : Size :=
  sizes.getLast?.getD first

theorem latest_append (first : Size) (sizes more : List Size) :
    latest first (sizes ++ more) = latest (latest first sizes) more := by
  unfold latest
  rw [List.getLast?_append]
  cases more.getLast? <;> rfl

theorem latest_mem (first : Size) (sizes : List Size) :
    latest first sizes = first ∨ latest first sizes ∈ sizes := by
  unfold latest
  cases h : sizes.getLast? with
  | none => exact .inl rfl
  | some z => exact .inr (List.mem_of_getLast? h)

def answered? : Answer → Option Size
  | .size z => some z
  | .pending | .keys _ | .ended | .done | .full _ | .refused => none

theorem answered_one (r : Answer) : [r].filterMap answered? = (answered? r).toList := by
  cases r <;> rfl

def handed? : Held → Option Size
  | .size z => some z
  | .keys _ => none

/-- What can happen to the sizes that wait while the process gets `got`. -/
inductive Passed (q : Queue Size) : List Size → Queue Size → Prop
  | same : Passed q [] q
  | offered (z : Size) : Passed q [] (q.offer z).2
  | polled {z : Size} {rest : List Size} : q.items = z :: rest →
      Passed q [z] { q with items := rest }
  | stopped : Passed q [] q.stopReceiving

/-- All that was sent, and how much of it was taken. What waits is lost with its receiver. -/
structure Account (taken sent : List Size) (q : Queue Size) : Prop where
  part : taken <+: sent
  all : q.receiving = true → taken ++ q.items = sent
  lost : q.receiving = false → q.items = []
  room : q.items.length ≤ q.capacity

theorem account_start (capacity : Nat) : Account [] [] { capacity } where
  part := List.prefix_rfl
  all _ := rfl
  lost h := by cases h
  room := Nat.zero_le _

theorem Account.same (h : Account taken sent q) : Account (taken ++ []) (sent ++ fresh q q) q := by
  rwa [fresh_suffix List.suffix_rfl, List.append_nil, List.append_nil]

theorem Account.step (h : Account taken sent q) (hp : Passed q got q') :
    Account (taken ++ got) (sent ++ fresh q q') q' := by
  cases hp with
  | same => exact h.same
  | offered z =>
    have ho := offer_offered q z
    generalize q.offer z = after at ho
    cases ho with
    | closed | full => exact h.same
    | sent hr hroom =>
      have hon : q.receiving = true := (Bool.and_eq_true_iff.mp hr).2
      have hz : fresh q { q with items := q.items ++ [z] } = [z] := by simp [fresh]
      rw [hz, List.append_nil]
      refine ⟨h.part.trans (List.prefix_append _ _), fun _ => ?_, fun hoff => ?_, ?_⟩
      · rw [← List.append_assoc, h.all hon]
      · rw [show q.receiving = false from hoff] at hon
        cases hon
      · rw [List.length_append]
        exact hroom
  | polled hi =>
    rename_i z rest
    have hon : q.receiving = true := by
      by_contra hoff
      rw [h.lost (by simpa using hoff)] at hi
      cases hi
    have hall := h.all hon
    have hroom := h.room
    rw [hi] at hall hroom
    have hz : fresh q { q with items := rest } = [] :=
      fresh_suffix (hi ▸ List.suffix_cons z rest)
    rw [hz, List.append_nil, ← hall]
    refine ⟨⟨rest, by simp⟩, fun _ => by simp, fun hoff => ?_, Nat.le_of_succ_le hroom⟩
    rw [show q.receiving = false from hoff] at hon
    cases hon
  | stopped =>
    rw [fresh_suffix List.nil_suffix, List.append_nil, List.append_nil]
    refine ⟨h.part, fun hon => ?_, fun _ => rfl, Nat.zero_le _⟩
    cases hon

theorem Passed.capacity (h : Passed q got q') : q'.capacity = q.capacity := by
  cases h with
  | same | polled | stopped => rfl
  | offered z => exact offer_room q z

/-- The terminal has the last size that its process got. -/
structure Measured (t t' : Terminal) (got : List Size) : Prop where
  queue : Passed t.sizes got t'.sizes
  size : t'.size = latest t.size got

theorem Measured.same (hq : t'.sizes = t.sizes) (hz : t'.size = t.size) : Measured t t' [] :=
  ⟨hq ▸ .same, hz⟩

theorem Measured.refl (t : Terminal) : Measured t t [] :=
  .same rfl rfl

theorem next_size_measured (t : Terminal) :
    Measured t t.nextSize.2 (answered? t.nextSize.1).toList := by
  unfold Terminal.nextSize
  split
  · exact .refl t
  · unfold Queue.poll
    cases hi : t.sizes.items with
    | nil => cases t.sizes.sending <;> exact .refl t
    | cons z rest => exact ⟨.polled hi, rfl⟩

theorem send_sizes (t : Terminal) (frame : Wire.Envelope) :
    (t.send frame).2.sizes = t.sizes ∧ (t.send frame).2.size = t.size ∧
      answered? (t.send frame).1 = none := by
  unfold Terminal.send
  split
  · exact ⟨rfl, rfl, rfl⟩
  · split <;> exact ⟨rfl, rfl, rfl⟩

theorem send_measured (t : Terminal) (frame : Wire.Envelope) :
    Measured t (t.send frame).2 (answered? (t.send frame).1).toList := by
  obtain ⟨hq, hz, hn⟩ := send_sizes t frame
  rw [hn]
  exact .same hq hz

theorem read_measured (t : Terminal) :
    Measured t t.read.2 (answered? t.read.1).toList := by
  unfold Terminal.read
  split
  · exact .refl t
  · split <;> exact .same rfl rfl

theorem perform_measured (t : Terminal) (act : Act) :
    Measured t (t.perform act).2 (answered? (t.perform act).1).toList := by
  have text (d : Text.Decoder) (said : Option String) :
      Measured t ({ t with decoder := d }.sendText? said).2
        (answered? ({ t with decoder := d }.sendText? said).1).toList := by
    cases said with
    | none => exact .same rfl rfl
    | some text =>
      obtain ⟨hq, hz⟩ := send_measured { t with decoder := d } (.stdout text)
      exact ⟨hq, hz⟩
  cases act with
  | read => exact read_measured t
  | nextSize => exact next_size_measured t
  | write bytes => exact text _ _
  | flush => exact text _ _
  | toast words => exact send_measured t _
  | send frame => exact send_measured t frame

theorem leave_measured (s : Seat) (outcome : Outcome) :
    Measured s.terminal (s.leave outcome).terminal [] :=
  ⟨.stopped, rfl⟩

theorem parted_measured {u : Seat} {o : Outcome} {last : Wire.Envelope} (h : Parted s o last u) :
    Measured s.terminal u.terminal [] := by
  cases h with
  | stays => exact .refl _
  | sent => exact ⟨.stopped, rfl⟩
  | lost => exact leave_measured s o

theorem attend_measured (s : Seat) (now : Nat) (shutdown : Bool) :
    Measured s.terminal (s.attend now shutdown).terminal [] := by
  let running := { s with session := { s.session with signal := .over }.markRunning }
  have ha := attend_attended s now shutdown
  generalize s.attend now shutdown = u at ha
  cases ha with
  | launched | patient | busy | gone => exact .refl _
  | turnedAway _ _ hp => exact parted_measured (s := running) hp
  | abandoned | shutDown | timedOut => exact leave_measured s _
  | stopped _ hp | parting _ hp => exact parted_measured hp

theorem attempted_measured (s : Seat) (result : Except Exec.Failure Unit) :
    Measured s.terminal (s.attempted result).terminal [] := by
  rcases attempted_cases s result with hs | ⟨a, -, hc⟩
  · rw [hs]
    exact .refl _
  · generalize s.attempted result = u at hc
    cases hc with
    | again => exact .refl _
    | finished => exact leave_measured s .finished
    | failed _ _ hp => exact parted_measured hp

theorem push_measured (s : Seat) (held : Held) :
    Measured s.terminal (push s held).2.terminal [] := by
  cases held with
  | keys text => exact .same rfl rfl
  | size z => exact ⟨.offered z, rfl⟩

theorem bind_measured (s : Seat) (client : Nat) (c : Connection) :
    Measured s.terminal (s.bind client c).2.terminal [] := by
  rw [(bind_seat s client c).2.2.2]
  split <;> exact .same rfl rfl

/-- The sizes among what one step has handed to a session. -/
theorem entries_sizes (s u : Seat) :
    (entries s u).filterMap handed? = fresh s.terminal.sizes u.terminal.sizes := by
  have hk : (fresh s.terminal.connection.stdin u.terminal.connection.stdin).filterMap
      (handed? ∘ .keys) = [] := by
    simp [Function.comp_def, handed?]
  have hz : (fresh s.terminal.sizes u.terminal.sizes).filterMap (handed? ∘ .size) =
      fresh s.terminal.sizes u.terminal.sizes := by
    simp [Function.comp_def, handed?]
  rw [entries, List.filterMap_append, List.filterMap_map, List.filterMap_map, hk, hz,
    List.nil_append]

/-- A size that is accepted has rows and columns. -/
theorem resize_positive {text : String} {z : Size}
    (h : Wire.Command.parse text = .ok (.resize z)) : z.rows ≠ 0 ∧ z.cols ≠ 0 := by
  have envelope {e : Wire.Envelope} (h : Wire.Command.ofEnvelope e = .ok (.resize z)) :
      z.rows ≠ 0 ∧ z.cols ≠ 0 := by
    unfold Wire.Command.ofEnvelope at h
    split at h
    · cases h
    · cases h
    · split at h <;> cases h
    · cases h
    · split at h
      · cases h
      · cases h
      · split at h
        · cases h
        · rename_i hno
          cases h
          exact not_or.mp hno
  unfold Wire.Command.parse at h
  split at h
  · exact envelope h
  · cases h

end PodConsole.Proofs.Sizes
