import PodConsole.Proofs.Session.Attending

namespace PodConsole.Proofs.Seats
open Session Lifecycle Pushing Sending Attending
open Wire (Envelope)

variable {s t u : Seat}

/-- Nothing but a registry closes a session, and nothing that is over comes back. -/
structure Keeps (s t : Seat) : Prop where
  token : t.session.id = s.session.id
  closed : t.session.isClosed = s.session.isClosed
  finished : s.isOver = true → t.isOver = true
  taken : available s.session.signal = false → available t.session.signal = false
  unheard : t.isOver = false → t.session.signal = .unheard → s.session.signal = .unheard

/-- Once the session sends nothing more to its client, it takes nothing from it. -/
def Sealed (c : Connection) : Prop :=
  c.outbound.sending = false → c.stdin.receiving = false

/-- An end of a queue that was given up does not come back. -/
structure Ends (s t : Seat) : Prop where
  keysSending : t.terminal.connection.stdin.sending = s.terminal.connection.stdin.sending
  sizesSending : t.terminal.sizes.sending = s.terminal.sizes.sending
  keys : t.terminal.connection.stdin.receiving = true →
    s.terminal.connection.stdin.receiving = true
  sizes : t.terminal.sizes.receiving = true → s.terminal.sizes.receiving = true
  outbound : t.terminal.connection.outbound.receiving = true →
    s.terminal.connection.outbound.receiving = true
  isSealed : Sealed s.terminal.connection → Sealed t.terminal.connection

/-- Nothing is handed over; what waits in the queues may be taken, or lost. -/
structure Quiet (s t : Seat) : Prop extends Ends s t where
  keysLeft : t.terminal.connection.stdin.items <:+ s.terminal.connection.stdin.items
  sizesLeft : t.terminal.sizes.items <:+ s.terminal.sizes.items
  cancelled : t.terminal.connection.cancelled = s.terminal.connection.cancelled

theorem Keeps.refl (s : Seat) : Keeps s s :=
  ⟨rfl, rfl, id, id, fun _ => id⟩

theorem Keeps.trans (h : Keeps s t) (h' : Keeps t u) : Keeps s u where
  token := h'.token.trans h.token
  closed := h'.closed.trans h.closed
  finished := h'.finished ∘ h.finished
  taken := h'.taken ∘ h.taken
  unheard ho hu := by
    have ht := h'.unheard ho hu
    refine h.unheard ?_ ht
    cases hto : t.isOver with
    | false => rfl
    | true => exact (Bool.eq_false_iff.mp ho (h'.finished hto)).elim

/-- Whatever is done to the terminal, and to what the session lives through. -/
theorem Keeps.same_session (hs : t.session = s.session) (ho : s.isOver = true → t.isOver = true) :
    Keeps s t :=
  ⟨by rw [hs], by rw [hs], ho, by rw [hs]; exact id, fun _ => by rw [hs]; exact id⟩

theorem Ends.refl (s : Seat) : Ends s s :=
  ⟨rfl, rfl, id, id, id, id⟩

theorem Ends.trans (h : Ends s t) (h' : Ends t u) : Ends s u where
  keysSending := h'.keysSending.trans h.keysSending
  sizesSending := h'.sizesSending.trans h.sizesSending
  keys := h.keys ∘ h'.keys
  sizes := h.sizes ∘ h'.sizes
  outbound := h.outbound ∘ h'.outbound
  isSealed := h'.isSealed ∘ h.isSealed

theorem Quiet.refl (s : Seat) : Quiet s s :=
  ⟨.refl s, List.suffix_rfl, List.suffix_rfl, rfl⟩

theorem Quiet.trans (h : Quiet s t) (h' : Quiet t u) : Quiet s u :=
  ⟨h.toEnds.trans h'.toEnds, h'.keysLeft.trans h.keysLeft, h'.sizesLeft.trans h.sizesLeft,
    h'.cancelled.trans h.cancelled⟩

theorem Quiet.same_terminal (h : t.terminal = s.terminal) : Quiet s t := by
  refine ⟨⟨?_, ?_, ?_, ?_, ?_, ?_⟩, ?_, ?_, ?_⟩ <;> simp [h]

theorem Quiet.entries (h : Quiet s t) : entries s t = [] :=
  entries_suffix h.keysLeft h.sizesLeft

theorem leave_keeps (s : Seat) (outcome : Outcome) : Keeps s (s.leave outcome) where
  token := rfl
  closed := rfl
  finished _ := rfl
  taken h := taken_stop_receiving h
  unheard ho := by cases ho

theorem leave_quiet (s : Seat) (outcome : Outcome) : Quiet s (s.leave outcome) where
  keysSending := rfl
  sizesSending := rfl
  keys h := by cases h
  sizes h := by cases h
  outbound := id
  isSealed _ _ := rfl
  keysLeft := List.nil_suffix
  sizesLeft := List.nil_suffix
  cancelled := rfl

/-- What is sent to the client leaves the other queues alone. -/
theorem offer_quiet (s : Seat) (frame : Envelope) : Quiet s
    (s.mapConnection fun c => { c with outbound := (c.outbound.offer frame).2 }) := by
  have ho := offer_offered s.terminal.connection.outbound frame
  simp only [Seat.mapConnection, Terminal.mapConnection]
  generalize s.terminal.connection.outbound.offer frame = after at ho
  cases ho with
  | closed h | full h hc | sent h hc =>
    exact ⟨⟨rfl, rfl, id, id, id, id⟩, List.suffix_rfl, List.suffix_rfl, rfl⟩

theorem send_quiet (s : Seat) (frame : Envelope) (h : t.terminal = (s.terminal.send frame).2) :
    Quiet s t := by
  unfold Terminal.send at h
  split at h
  · exact .same_terminal h
  · split at h
    · rename_i outbound ho
      refine (offer_quiet s frame).trans (.same_terminal ?_)
      simp [h, ho, Seat.mapConnection, Terminal.mapConnection]
    · exact .same_terminal h
    · exact .same_terminal h

theorem parted_keeps {o : Outcome} {last : Envelope} (h : Parted s o last t)
    (ho : s.isOver = false) : Keeps s t := by
  have keeps (u : Seat) (hs : u.session = s.session) : Keeps s u :=
    .same_session hs fun h => by rw [ho] at h; cases h
  cases h with
  | stays => exact keeps _ rfl
  | sent => exact (keeps { s with terminal := emitted s.terminal last } rfl).trans (leave_keeps _ o)
  | lost => exact leave_keeps s o

theorem emitted_quiet (s : Seat) (frame : Envelope) :
    Quiet s { s with terminal := emitted s.terminal frame } :=
  ⟨⟨rfl, rfl, id, id, id, id⟩, List.suffix_rfl, List.suffix_rfl, rfl⟩

theorem parted_quiet {o : Outcome} {last : Envelope} (h : Parted s o last t) : Quiet s t := by
  cases h with
  | stays => exact .same_terminal rfl
  | sent => exact (emitted_quiet s last).trans (leave_quiet _ o)
  | lost => exact leave_quiet s o

theorem mark_running_keeps (s : Seat) (signal : Signal)
    (hs : available s.session.signal = false → available signal = false)
    (hu : signal ≠ .unheard) :
    Keeps s { s with session := { s.session with signal }.markRunning } where
  token := by
    simp only [markRunning]
    split <;> rfl
  closed := by
    simp only [isClosed, mark_running_phase]
    cases s.session.phase <;> rfl
  finished := id
  taken := by simpa only [mark_running_signal] using hs
  unheard _ h := by
    rw [mark_running_signal] at h
    exact (hu h).elim

theorem attend_keeps (s : Seat) (now : Nat) (shutdown : Bool) :
    Keeps s (s.attend now shutdown) := by
  have running : Keeps s { s with session := { s.session with signal := .over }.markRunning } :=
    mark_running_keeps s .over (fun _ => rfl) (by simp)
  have ha := attend_attended s now shutdown
  generalize s.attend now shutdown = t at ha
  cases ha with
  | launched hl => exact running.trans (.same_session rfl fun h => by simp [Seat.isOver, hl] at h)
  | turnedAway hl _ hp => exact running.trans (parted_keeps hp (by simp [Seat.isOver, hl]))
  | abandoned | shutDown | timedOut => exact leave_keeps s _
  | stopped hl hp | parting hl hp => exact parted_keeps hp (by simp [Seat.isOver, hl])
  | patient | busy | gone => exact .refl s

theorem attend_quiet (s : Seat) (now : Nat) (shutdown : Bool) :
    Quiet s (s.attend now shutdown) := by
  have running : Quiet s { s with session := { s.session with signal := .over }.markRunning } :=
    .same_terminal rfl
  have ha := attend_attended s now shutdown
  generalize s.attend now shutdown = t at ha
  cases ha with
  | launched => exact .same_terminal rfl
  | turnedAway _ _ hp => exact running.trans (parted_quiet hp)
  | abandoned | shutDown | timedOut => exact leave_quiet s _
  | stopped _ hp | parting _ hp => exact parted_quiet hp
  | patient | busy | gone => exact .refl s

theorem attempted_keeps (s : Seat) (result : Except Exec.Failure Unit) :
    Keeps s (s.attempted result) := by
  rcases attempted_cases s result with hs | ⟨a, hl, hc⟩
  · rw [hs]
    exact .refl s
  · have ho : s.isOver = false := by simp [Seat.isOver, hl]
    generalize s.attempted result = t at hc
    cases hc with
    | again => exact .same_session rfl fun h => by rw [ho] at h; cases h
    | finished => exact leave_keeps s .finished
    | failed _ _ hp => exact parted_keeps hp ho

theorem attempted_quiet (s : Seat) (result : Except Exec.Failure Unit) :
    Quiet s (s.attempted result) := by
  rcases attempted_cases s result with hs | ⟨a, -, hc⟩
  · rw [hs]
    exact .refl s
  · generalize s.attempted result = t at hc
    cases hc with
    | again => exact .same_terminal rfl
    | finished => exact leave_quiet s .finished
    | failed _ _ hp => exact parted_quiet hp

theorem connection_keeps (s : Seat) (f : Connection → Connection) : Keeps s (s.mapConnection f) :=
  .same_session rfl fun h => h

theorem perform_keeps (s : Seat) (act : Act) : Keeps s (s.perform act).2 :=
  .same_session rfl fun h => h

/-- What is left once somebody looked for the next item. -/
theorem poll_left {α : Type} {q q' : Queue α} {found : Poll α} (h : q.poll = (found, q')) :
    ∃ rest, q' = { q with items := rest } ∧ rest <:+ q.items := by
  unfold Queue.poll at h
  split at h
  · rename_i a rest hi
    cases h
    exact ⟨rest, rfl, hi ▸ List.suffix_cons a rest⟩
  · cases h
    exact ⟨q.items, rfl, List.suffix_rfl⟩

theorem read_quiet (s : Seat) : Quiet s { s with terminal := s.terminal.read.2 } := by
  unfold Terminal.read
  split
  · exact .refl s
  · split
    · rename_i text stdin hp
      obtain ⟨rest, rfl, hr⟩ := poll_left hp
      exact ⟨⟨rfl, rfl, id, id, id, id⟩, hr, List.suffix_rfl, rfl⟩
    · exact .refl s
    · exact .refl s

theorem next_size_quiet (s : Seat) : Quiet s { s with terminal := s.terminal.nextSize.2 } := by
  unfold Terminal.nextSize
  split
  · exact .refl s
  · split
    · rename_i size sizes hp
      obtain ⟨rest, rfl, hr⟩ := poll_left hp
      exact ⟨⟨rfl, rfl, id, id, id, id⟩, List.suffix_rfl, hr, rfl⟩
    · exact .refl s
    · exact .refl s

theorem perform_quiet (s : Seat) (act : Act) : Quiet s (s.perform act).2 := by
  have text (d : Text.Decoder) (said : Option String) :
      Quiet s { s with terminal := ({ s.terminal with decoder := d }.sendText? said).2 } := by
    let decoded : Seat := { s with terminal := { s.terminal with decoder := d } }
    have hd : Quiet s decoded := ⟨⟨rfl, rfl, id, id, id, id⟩, List.suffix_rfl, List.suffix_rfl, rfl⟩
    cases said with
    | none => exact hd
    | some text => exact hd.trans (send_quiet decoded (.stdout text) rfl)
  cases act with
  | read => exact read_quiet s
  | nextSize => exact next_size_quiet s
  | write bytes => exact text _ _
  | flush => exact text _ _
  | toast text => exact send_quiet s (.toast text) rfl
  | send frame => exact send_quiet s frame rfl

theorem cancel_ends (s : Seat) : Ends s (s.mapConnection Connection.cancel) :=
  ⟨rfl, rfl, id, id, id, id⟩

theorem stop_writing_ends (s : Seat) : Ends s (s.mapConnection Connection.stopWriting) :=
  ⟨rfl, rfl, id, id, nofun, id⟩

theorem said_quiet (s : Seat) (rest : List Envelope) : Quiet s (s.mapConnection fun c =>
    { c with outbound := { s.terminal.connection.outbound with items := rest } }) :=
  ⟨⟨rfl, rfl, id, id, id, id⟩, List.suffix_rfl, List.suffix_rfl, rfl⟩

theorem push_ends (s : Seat) (held : Gateway.Held) : Ends s (push s held).2 := by
  cases held with
  | keys text =>
    have ho := offer_offered s.terminal.connection.stdin text
    simp only [push, Seat.pushKeys]
    generalize s.terminal.connection.stdin.offer text = after at ho
    cases ho with
    | closed h | full h hc | sent h hc => exact ⟨rfl, rfl, id, id, id, id⟩
  | size size =>
    have ho := offer_offered s.terminal.sizes size
    simp only [push, Seat.pushSize]
    generalize s.terminal.sizes.offer size = after at ho
    cases ho with
    | closed h | full h hc | sent h hc => exact ⟨rfl, rfl, id, id, id, id⟩

theorem push_grown (s : Seat) (held : Gateway.Held) :
    Grown s.terminal.connection.stdin (push s held).2.terminal.connection.stdin ∧
      Grown s.terminal.sizes (push s held).2.terminal.sizes := by
  cases held with
  | keys text => exact ⟨grown_offer _ text, grown_suffix List.suffix_rfl⟩
  | size size => exact ⟨grown_suffix List.suffix_rfl, grown_offer _ size⟩

theorem push_keeps (s : Seat) (held : Gateway.Held) : Keeps s (push s held).2 := by
  cases held <;> exact .same_session rfl fun h => h

theorem bind_seat (s : Seat) (client : Nat) (c : Connection) :
    (s.bind client c).1 = (s.session.bind client).1 ∧
      (s.bind client c).2.session = (s.session.bind client).2 ∧
      (s.bind client c).2.lifetime = s.lifetime ∧
      (s.bind client c).2.terminal =
        if (s.session.bind client).1 = .ok () then s.terminal.mapConnection fun _ => c
        else s.terminal := by
  unfold Seat.bind
  generalize s.session.bind client = after
  obtain ⟨result, session⟩ := after
  cases result with
  | ok u => exact ⟨rfl, rfl, rfl, by simp⟩
  | error e => exact ⟨rfl, rfl, rfl, by simp⟩

theorem welcome_id (s : Session) (client : Nat) : (welcome s client).id = s.id := by
  unfold welcome
  split <;> rfl

theorem bind_taken {client : Nat} {c : Connection} (hp : s.session.phase ≠ .closed)
    (h : available s.session.signal = false) :
    s.bind client c = (.error (.alreadyBound s.session.id), s) := by
  have hb : s.session.bind client = (.error (.alreadyBound s.session.id), s.session) := by
    have hb := bind_binding s.session client
    generalize s.session.bind client = after at hb
    cases hb with
    | closed hc => exact (hp hc).elim
    | taken hc ht => rfl
    | unheard hc hu | first hc hu => simp [hu, available] at h
  simp [Seat.bind, hb]

/-- The session and the terminal of a client that was let in. -/
def welcomed (s : Seat) (client : Nat) (c : Connection) : Seat :=
  { s with session := welcome s.session client, terminal := s.terminal.mapConnection fun _ => c }

theorem bind_first {client : Nat} {c : Connection} (hp : s.session.phase ≠ .closed)
    (h : s.session.signal = .open) : s.bind client c = (.ok (), welcomed s client c) := by
  have hb : s.session.bind client = (.ok (), welcome s.session client) := by
    have hb := bind_binding s.session client
    generalize s.session.bind client = after at hb
    cases hb with
    | closed hc => exact (hp hc).elim
    | taken hc ht => simp [h, available] at ht
    | unheard hc hu => simp [h] at hu
    | first hc ho => rfl
  simp [Seat.bind, hb, welcomed]

theorem bind_accepted {client : Nat} {c : Connection} :
    (s.bind client c).1 = .ok () ↔ s.session.phase ≠ .closed ∧ s.session.signal = .open := by
  rw [(bind_seat s client c).1]
  have hb := bind_binding s.session client
  generalize s.session.bind client = after at hb
  cases hb with
  | closed hc => simp [hc]
  | taken hc ht =>
    have ho : s.session.signal ≠ .open := fun ho => by simp [ho, available] at ht
    simp [ho]
  | unheard hc hu => simp [hu]
  | first hc ho => simp [hc, ho]

theorem bind_keeps (s : Seat) (client : Nat) (c : Connection) : Keeps s (s.bind client c).2 := by
  obtain ⟨-, hs, hl, -⟩ := bind_seat s client c
  have hb := bind_binding s.session client
  have ho : s.isOver = true → (s.bind client c).2.isOver = true := by simp [Seat.isOver, hl]
  generalize (s.bind client c).2 = t at hs hl ho
  generalize s.session.bind client = after at hb hs
  cases hb with
  | closed hp | taken hp hq => exact .same_session hs ho
  | unheard hp hq => exact ⟨by rw [hs], by rw [hs]; rfl, ho, by simp [hs, available], by simp [hs]⟩
  | first hp hq =>
    refine ⟨by rw [hs, welcome_id], ?_, ho, by simp [hs, welcome_signal, available],
      by simp [hs, welcome_signal]⟩
    rw [hs]
    have hc := welcome_closed s.session client
    simp only [isClosed, hc]

end PodConsole.Proofs.Seats
