import PodConsole.Proofs.Session.Lifecycle
import PodConsole.Proofs.Session.Pushing
import PodConsole.Proofs.Session.Sending
import PodConsole.Session.Vigil

namespace PodConsole.Proofs.Attending
open Session Lifecycle Pushing Sending
open Exec (Attachment Failure Shell)
open Wire (Envelope)

/-- The shell has exited, or its client went away. -/
def isFine : Except Failure Shell → Bool
  | .ok _ | .error .disconnected => true
  | .error _ => false

theorem is_fine_error {failure : Failure} :
    isFine (.error failure) = false ↔ failure ≠ .disconnected := by
  cases failure <;> simp [isFine]

def isNotice (frame : Envelope) : Bool :=
  frame.op = .toast

/-- A process may have notices of its own. -/
def notifies : Act → Bool
  | .toast _ => true
  | .send frame => isNotice frame
  | .read | .nextSize | .write _ | .flush => false

variable {s t : Seat} {o : Outcome} {last : Envelope} {now deadline : Nat} {shutdown : Bool}
  {a : Attachment} {ended : Except Failure Unit}

theorem outcome_runs {l : Lifetime} (h : l.outcome? = some o) : l.runs = false := by
  cases l <;> first | rfl | cases h

theorem runs_running {l : Lifetime} (h : l.runs = true) : ∃ a, l = .running a := by
  cases l with
  | running a => exact ⟨a, rfl⟩
  | waiting | parting | «over» => cases h

theorem stop_receiving_open (signal : Signal) : signal.stopReceiving ≠ .open := by
  cases signal <;> simp [Signal.stopReceiving]

theorem stop_sending_open (signal : Signal) : signal.stopSending ≠ .open := by
  cases signal <;> simp [Signal.stopSending]

/-- The last frame waits for room, was sent, or finds its client gone. -/
inductive Parted (s : Seat) (o : Outcome) (last : Envelope) : Seat → Prop
  | stays : s.terminal.isClosed = false →
      s.terminal.connection.outbound.capacity ≤ s.terminal.connection.outbound.items.length →
      Parted s o last { s with lifetime := .parting o last }
  | sent : Parted s o last ({ s with terminal := emitted s.terminal last }.leave o)
  | lost : (s.terminal.connection.outbound.sending = true → s.terminal.isClosed = true) →
      Parted s o last (s.leave o)

theorem part_parted (s : Seat) (o : Outcome) (last : Envelope) :
    Parted s o last (s.part o last) := by
  unfold Seat.part Terminal.send
  by_cases hc : s.terminal.connection.cancelled = true
  · rw [if_pos hc]
    exact .lost fun _ => by simp [Terminal.isClosed, Connection.isClosed, hc]
  · rw [if_neg hc]
    have ho := offer_offered s.terminal.connection.outbound last
    generalize s.terminal.connection.outbound.offer last = after at ho
    cases ho with
    | closed h =>
      refine .lost fun hs => ?_
      have hr : s.terminal.connection.outbound.receiving = false := by simpa [hs] using h
      simp [Terminal.isClosed, Connection.isClosed, hr]
    | full h hcap =>
      refine .stays ?_ hcap
      have hr : s.terminal.connection.outbound.receiving = true := by
        rw [Bool.and_eq_true] at h
        exact h.2
      simp [Terminal.isClosed, Connection.isClosed, hc, hr]
    | sent => exact .sent

theorem Parted.outcome (h : Parted s o last t) : t.lifetime.outcome? = some o := by
  cases h <;> rfl

theorem Parted.same_hint (h : Parted s o last t) : t.session.hint = s.session.hint := by
  cases h <;> rfl

theorem uttered_same (h : t.terminal.connection.outbound = s.terminal.connection.outbound) :
    uttered s t = [] :=
  fresh_suffix (by rw [h])

theorem uttered_leave (s : Seat) (o : Outcome) : uttered s (s.leave o) = [] :=
  fresh_suffix List.suffix_rfl

theorem uttered_emitted (s : Seat) (o : Outcome) (last : Envelope) :
    uttered s ({ s with terminal := emitted s.terminal last }.leave o) = [last] :=
  List.drop_left

theorem Parted.cases (h : Parted s o last t)
    (hs : s.terminal.connection.outbound.sending = true) :
    (t.lifetime = .parting o last ∧ uttered s t = []) ∨
    (t.lifetime = .over o ∧ (t.terminal.isClosed = true ∧ uttered s t = [] ∨
      uttered s t = [last])) := by
  cases h with
  | stays => exact .inl ⟨rfl, uttered_same rfl⟩
  | sent => exact .inr ⟨rfl, .inr (uttered_emitted s o last)⟩
  | lost hc => exact .inr ⟨rfl, .inl ⟨hc hs, uttered_leave s o⟩⟩

/-- A client that is gone, or that has room, is not waited for. -/
theorem Parted.ends (h : Parted s o last t) (hc : s.terminal.isClosed = true ∨
    s.terminal.connection.outbound.items.length < s.terminal.connection.outbound.capacity) :
    t.lifetime = .over o := by
  cases h with
  | stays hopen hfull =>
    rcases hc with hc | hc
    · cases hopen.symm.trans hc
    · omega
  | sent | lost => rfl

theorem mark_running_hint (s : Session) : s.markRunning.hint = s.hint := by
  unfold markRunning
  split <;> rfl

/-- What the one who waits makes of a session by a look at it. -/
inductive Attended (s : Seat) (now : Nat) : Bool → Seat → Prop
  | launched {deadline client : Nat} : s.lifetime = .waiting deadline →
      s.session.signal = .carrying client →
      Attended s now false { s with
        session := { s.session with signal := .over }.markRunning
        lifetime := .running (.start s.session.hint) }
  | turnedAway {deadline client : Nat} {t : Seat} : s.lifetime = .waiting deadline →
      s.session.signal = .carrying client →
      Parted { s with session := { s.session with signal := .over }.markRunning } .shutdown
        (.toast shutdownNotice) t →
      Attended s now true t
  | abandoned {deadline : Nat} {shutdown : Bool} : s.lifetime = .waiting deadline →
      s.session.signal.receive.1 = .nobody → Attended s now shutdown (s.leave .abandoned)
  | shutDown {deadline : Nat} : s.lifetime = .waiting deadline → s.session.signal = .open →
      Attended s now true (s.leave .shutdown)
  | timedOut {deadline : Nat} : s.lifetime = .waiting deadline → s.session.signal = .open →
      deadline ≤ now → Attended s now false (s.leave .timedOut)
  | patient {deadline : Nat} : s.lifetime = .waiting deadline → s.session.signal = .open →
      now < deadline → Attended s now false s
  | stopped {a : Attachment} {t : Seat} : s.lifetime = .running a →
      Parted s .shutdown (.toast shutdownNotice) t → Attended s now true t
  | busy {a : Attachment} : s.lifetime = .running a → Attended s now false s
  | parting {o : Outcome} {last : Envelope} {t : Seat} {shutdown : Bool} :
      s.lifetime = .parting o last → Parted s o last t → Attended s now shutdown t
  | gone {o : Outcome} {shutdown : Bool} : s.lifetime = .over o → Attended s now shutdown s

theorem attend_attended (s : Seat) (now : Nat) (shutdown : Bool) :
    Attended s now shutdown (s.attend now shutdown) := by
  unfold Seat.attend
  split
  · rename_i deadline hl
    cases hs : s.session.signal with
    | carrying client =>
      cases shutdown with
      | true => exact .turnedAway hl hs (part_parted _ _ _)
      | false =>
        simp only [Signal.receive, Bool.false_eq_true, if_false, mark_running_hint]
        exact .launched hl hs
    | unheard | «over» => exact .abandoned hl (by rw [hs]; rfl)
    | «open» =>
      cases shutdown with
      | true => exact .shutDown hl hs
      | false =>
        simp only [Signal.receive, Bool.false_eq_true, if_false]
        split
        · rename_i hd
          exact .timedOut hl hs hd
        · rename_i hd
          exact .patient hl hs (Nat.lt_of_not_le hd)
  · rename_i a hl
    cases shutdown with
    | true => exact .stopped hl (part_parted _ _ _)
    | false => exact .busy hl
  · rename_i hl
    exact .parting hl (part_parted _ _ _)
  · rename_i hl
    exact .gone hl

theorem look_attended (v : Vigil) : Attended v.seat v.clock v.shutdown v.look.seat :=
  attend_attended _ _ _

theorem Attended.same_hint (h : Attended s now shutdown t) : t.session.hint = s.session.hint := by
  cases h with
  | launched => simp [mark_running_hint]
  | turnedAway _ _ hp => simp [hp.same_hint, mark_running_hint]
  | abandoned | shutDown | timedOut | patient | busy | gone => rfl
  | stopped _ hp | parting _ hp => exact hp.same_hint

/-- A look that decides nothing, or starts a shell, sends nothing. -/
theorem Attended.silent (h : Attended s now shutdown t) (hn : t.lifetime.outcome? = none) :
    uttered s t = [] := by
  cases h with
  | launched | patient | busy | gone => exact uttered_same rfl
  | turnedAway _ _ hp | stopped _ hp | parting _ hp =>
    rw [hp.outcome] at hn
    cases hn
  | abandoned | shutDown | timedOut => cases hn

/-- What was decided stays decided. -/
theorem Attended.decided (h : Attended s now shutdown t) (ho : s.lifetime.outcome? = some o) :
    t.lifetime.outcome? = some o := by
  cases h with
  | launched hl | turnedAway hl | abandoned hl | shutDown hl | timedOut hl | patient hl
  | stopped hl | busy hl =>
    rw [hl] at ho
    cases ho
  | parting hl hp =>
    rw [hl] at ho
    rw [hp.outcome]
    exact ho
  | gone => exact ho

/-- A look at a session that was undecided is not what a shell comes to. -/
theorem Attended.decides (h : Attended s now shutdown t) (hn : s.lifetime.outcome? = none)
    (ho : t.lifetime.outcome? = some o) : o = .shutdown ∨
      (∃ deadline, s.lifetime = .waiting deadline) ∧ o ≠ .finished ∧ o ≠ .failed := by
  cases h with
  | turnedAway _ _ hp | stopped _ hp =>
    rw [hp.outcome] at ho
    cases ho
    exact .inl rfl
  | abandoned hl | shutDown hl | timedOut hl =>
    cases ho
    exact .inr ⟨⟨_, hl⟩, nofun, nofun⟩
  | launched => cases ho
  | patient | busy =>
    rw [hn] at ho
    cases ho
  | parting hl | gone hl =>
    rw [hl] at hn
    cases hn

/-- In a shutdown nothing runs after a look, and nothing new comes of a shell. -/
theorem Attended.shut (h : Attended s now true t) : t.lifetime.runs = false ∧
    (t.lifetime.outcome? = some .shutdown ∨ t.lifetime.outcome? = some .abandoned ∨
      t.lifetime.outcome? = s.lifetime.outcome?) := by
  cases h with
  | turnedAway _ _ hp | stopped _ hp => exact ⟨outcome_runs hp.outcome, .inl hp.outcome⟩
  | abandoned => exact ⟨rfl, .inr (.inl rfl)⟩
  | shutDown => exact ⟨rfl, .inl rfl⟩
  | parting hl hp =>
    exact ⟨outcome_runs hp.outcome, .inr (.inr (by rw [hp.outcome, hl]; rfl))⟩
  | gone hl => exact ⟨by rw [hl]; rfl, .inr (.inr rfl)⟩

/-- Only a client that was found while there was no shutdown has a shell started. -/
theorem Attended.launch (h : Attended s now shutdown t) :
    (t.lifetime.runs && !s.lifetime.runs) = false ∨
      (t.lifetime.runs && !s.lifetime.runs) = true ∧ shutdown = false ∧
        ∃ deadline client, s.lifetime = .waiting deadline ∧
          s.session.signal = .carrying client := by
  cases h with
  | launched hl hs => exact .inr ⟨by simp [hl, Lifetime.runs], rfl, _, _, hl, hs⟩
  | abandoned | shutDown | timedOut => exact .inl rfl
  | turnedAway _ _ hp | stopped _ hp | parting _ hp =>
    exact .inl (by simp [outcome_runs hp.outcome])
  | patient | busy | gone => exact .inl (by simp)

theorem Attended.parted (h : Attended s now shutdown t) (hl : s.lifetime = .parting o last) :
    Parted s o last t := by
  cases h with
  | parting hl' hp =>
    cases hl.symm.trans hl'
    exact hp
  | launched hl' | turnedAway hl' | abandoned hl' | shutDown hl' | timedOut hl' | patient hl'
  | stopped hl' | busy hl' | gone hl' => cases hl.symm.trans hl'

theorem Attended.left (h : Attended s now shutdown t) (hl : s.lifetime = .over o) : t = s := by
  cases h with
  | gone => rfl
  | launched hl' | turnedAway hl' | abandoned hl' | shutDown hl' | timedOut hl' | patient hl'
  | stopped hl' | busy hl' | parting hl' => cases hl.symm.trans hl'

/-- What the end of an attempt makes of a session that runs. -/
inductive Concluded (s : Seat) (a : Attachment) (ended : Except Failure Unit) : Seat → Prop
  | again {next : Attachment} : a.conclude ended = .again next →
      Concluded s a ended { s with lifetime := .running next }
  | finished {result : Except Failure Shell} : a.conclude ended = .over result →
      isFine result = true → Concluded s a ended (s.leave .finished)
  | failed {failure : Failure} {t : Seat} : a.conclude ended = .over (.error failure) →
      failure ≠ .disconnected → Parted s .failed (.toast failure.message) t →
      Concluded s a ended t

theorem attempted_concluded (h : s.lifetime = .running a)
    (ended : Except Failure Unit) : Concluded s a ended (s.attempted ended) := by
  unfold Seat.attempted
  simp only [h]
  split
  · rename_i next hc
    exact .again hc
  · rename_i shell hc
    exact .finished hc rfl
  · rename_i hc
    exact .finished hc rfl
  · rename_i failure hd hc
    exact .failed hc (fun he => hd (he ▸ rfl)) (part_parted _ _ _)

/-- The end of an attempt is nothing to a session that does not run. -/
theorem attempted_cases (s : Seat) (ended : Except Failure Unit) :
    s.attempted ended = s ∨
      ∃ a, s.lifetime = .running a ∧ Concluded s a ended (s.attempted ended) := by
  cases hl : s.lifetime with
  | running a => exact .inr ⟨a, rfl, attempted_concluded hl ended⟩
  | waiting | parting | «over» => exact .inl (by simp only [Seat.attempted, hl])

theorem Concluded.same_hint (h : Concluded s a ended t) : t.session.hint = s.session.hint := by
  cases h with
  | again | finished => rfl
  | failed _ _ hp => exact hp.same_hint

theorem Concluded.outcome (h : Concluded s a ended t) (ho : t.lifetime.outcome? = some o) :
    ∃ result, a.conclude ended = .over result ∧
      o = if isFine result then .finished else .failed := by
  cases h with
  | again => cases ho
  | finished hc hf =>
    cases ho
    exact ⟨_, hc, by rw [hf]; rfl⟩
  | failed hc hne hp =>
    rw [hp.outcome] at ho
    cases ho
    exact ⟨_, hc, by rw [is_fine_error.mpr hne]; rfl⟩

theorem Concluded.silent (h : Concluded s a ended t) (hn : t.lifetime.outcome? = none) :
    uttered s t = [] := by
  cases h with
  | again => exact uttered_same rfl
  | finished => cases hn
  | failed _ _ hp =>
    rw [hp.outcome] at hn
    cases hn

theorem Concluded.left (h : Concluded s a ended t) {result : Except Failure Shell}
    (hc : a.conclude ended = .over result) (hf : isFine result = true) :
    t = s.leave .finished := by
  cases h with
  | again hc' => cases hc.symm.trans hc'
  | finished => rfl
  | failed hc' hne =>
    cases hc.symm.trans hc'
    rw [is_fine_error.mpr hne] at hf
    cases hf

theorem Concluded.parted (h : Concluded s a ended t) {failure : Failure}
    (hc : a.conclude ended = .over (.error failure)) (hne : failure ≠ .disconnected) :
    Parted s .failed (.toast failure.message) t := by
  cases h with
  | again hc' => cases hc.symm.trans hc'
  | finished hc' hf =>
    cases hc.symm.trans hc'
    rw [is_fine_error.mpr hne] at hf
    cases hf
  | failed hc' _ hp =>
    cases hc.symm.trans hc'
    exact hp

theorem send_outbound (t : Terminal) (frame : Envelope) :
    ∃ frames, (t.send frame).2.connection.outbound =
        { t.connection.outbound with items := t.connection.outbound.items ++ frames } ∧
      ∀ f ∈ frames, f = frame := by
  unfold Terminal.send
  split
  · exact ⟨[], by simp, nofun⟩
  · have ho := offer_offered t.connection.outbound frame
    generalize t.connection.outbound.offer frame = after at ho
    cases ho with
    | closed | full => exact ⟨[], by simp, nofun⟩
    | sent => exact ⟨[frame], rfl, by simp⟩

/-- The frames that a process sends in one go are notices only if it asks for them. -/
theorem perform_outbound (t : Terminal) (act : Act) :
    ∃ frames, (t.perform act).2.connection.outbound =
        { t.connection.outbound with items := t.connection.outbound.items ++ frames } ∧
      (notifies act = false → ∀ f ∈ frames, isNotice f = false) := by
  have text (d : Text.Decoder) (said : Option String) :
      ∃ frames, ({ t with decoder := d }.sendText? said).2.connection.outbound =
          { t.connection.outbound with items := t.connection.outbound.items ++ frames } ∧
        ∀ f ∈ frames, isNotice f = false := by
    cases said with
    | none => exact ⟨[], by simp [Terminal.sendText?], nofun⟩
    | some text =>
      obtain ⟨frames, hf, ha⟩ := send_outbound { t with decoder := d } (.stdout text)
      exact ⟨frames, hf, fun f hm => by rw [ha f hm]; rfl⟩
  have silent {t' : Terminal} (h : t'.connection.outbound = t.connection.outbound) :
      ∃ frames, t'.connection.outbound =
          { t.connection.outbound with items := t.connection.outbound.items ++ frames } ∧
        (notifies act = false → ∀ f ∈ frames, isNotice f = false) :=
    ⟨[], by simp [h], fun _ => nofun⟩
  cases act with
  | read =>
    apply silent
    simp only [Terminal.perform, Terminal.read]
    split
    · rfl
    · split <;> rfl
  | nextSize =>
    apply silent
    simp only [Terminal.perform, Terminal.nextSize]
    split
    · rfl
    · split <;> rfl
  | write bytes =>
    obtain ⟨frames, hf, ha⟩ := text (t.decoder.push bytes).2 (t.decoder.push bytes).1
    exact ⟨frames, hf, fun _ => ha⟩
  | flush =>
    obtain ⟨frames, hf, ha⟩ := text t.decoder.finish.2 t.decoder.finish.1
    exact ⟨frames, hf, fun _ => ha⟩
  | toast text =>
    obtain ⟨frames, hf, -⟩ := send_outbound t (.toast text)
    exact ⟨frames, hf, fun hn => by cases hn⟩
  | send frame =>
    obtain ⟨frames, hf, ha⟩ := send_outbound t frame
    exact ⟨frames, hf, fun hn f hm => by rw [ha f hm]; exact hn⟩

end PodConsole.Proofs.Attending
