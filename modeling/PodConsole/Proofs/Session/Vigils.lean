import PodConsole.Proofs.Session.Seats

namespace PodConsole.Proofs.Vigils
open Session Lifecycle Seats Attending
open Exec (Attachment Target)
open Wire (Envelope)

/-- What is heard of a client first is what counts. -/
def hear : Signal.Arrival → Happening → Signal.Arrival
  | .nobodyYet, .bind client _ _ => .client client
  | .nobodyYet, .close => .nobody
  | a, _ => a

/-- Whether a client has come, or the session was closed first. -/
def news (happenings : List Happening) : Signal.Arrival :=
  happenings.foldl hear .nobodyYet

def duration : Happening → Nat
  | .pass time => time
  | _ => 0

def shuts : Happening → Bool
  | .shutdown => true
  | _ => false

def elapsed (happenings : List Happening) : Nat :=
  happenings.foldl (fun time h => time + duration h) 0

/-- The process asks for a notice of its own. -/
def notices : Happening → Bool
  | .turn (some (.act act)) => notifies act
  | _ => false

theorem run_snoc (v : Vigil) (hs : List Happening) (h : Happening) :
    v.run (hs ++ [h]) = (v.run hs).step h := by
  simp [Vigil.run]

theorem run_append (v : Vigil) (hs more : List Happening) :
    v.run (hs ++ more) = (v.run hs).run more := by
  simp [Vigil.run]

variable {v v' : Vigil} {s t : Seat} {o : Outcome} {last : Envelope} {hs : List Happening}
  {h : Happening}

/-- The client does something with its connection. -/
structure Plain (s t : Seat) : Prop where
  session : t.session = s.session
  lifetime : t.lifetime = s.lifetime
  sending : t.terminal.connection.outbound.sending = s.terminal.connection.outbound.sending
  closed : s.terminal.isClosed = true → t.terminal.isClosed = true

theorem plain_connection (s : Seat) {f : Connection → Connection}
    (hs : ∀ c, (f c).outbound.sending = c.outbound.sending)
    (hc : ∀ c : Connection, c.isClosed = true → (f c).isClosed = true) :
    Plain s (s.mapConnection f) :=
  ⟨rfl, rfl, hs _, hc _⟩

/-- Anything that is not a turn. -/
inductive Outer (v : Vigil) : Happening → Vigil → Prop
  | bind {client keysRoom framesRoom : Nat} : Outer v (.bind client keysRoom framesRoom)
      { v with seat := (v.seat.bind client
        ⟨{ capacity := keysRoom }, { capacity := framesRoom }, false⟩).2 }
  | close : Outer v .close { v with seat := { v.seat with
      session := v.seat.session.markClosed.2 } }
  | shutdown : Outer v .shutdown { v with shutdown := true }
  | pass {time : Nat} : Outer v (.pass time) { v with clock := v.clock + time }
  | deed {h : Happening} {s : Seat} : (∀ a, hear a h = a) → shuts h = false → duration h = 0 →
      Plain v.seat s → Outer v h { v with seat := s }

/-- A step is a turn of the one who waits or somebody else's. -/
theorem step_cases (v : Vigil) (h : Happening) :
    (∃ work, h = .turn work ∧ v.step h = v.turn work) ∨ Outer v h (v.step h) := by
  cases h with
  | bind => exact .inr .bind
  | close => exact .inr .close
  | shutdown => exact .inr .shutdown
  | pass => exact .inr .pass
  | keys text =>
    exact .inr <| .deed (fun a => by cases a <;> rfl) rfl rfl
      (plain_connection v.seat (fun _ => rfl) fun _ => id)
  | size s => exact .inr <| .deed (fun a => by cases a <;> rfl) rfl rfl ⟨rfl, rfl, rfl, id⟩
  | take =>
    refine .inr <| .deed (fun a => by cases a <;> rfl) rfl rfl (plain_connection v.seat ?_ ?_)
    · intro c
      unfold Queue.poll
      split <;> rfl
    · intro c hc
      unfold Queue.poll
      split <;> exact hc
  | hangUp =>
    exact .inr <| .deed (fun a => by cases a <;> rfl) rfl rfl
      (plain_connection v.seat (fun _ => rfl) fun _ => id)
  | cancel =>
    exact .inr <| .deed (fun a => by cases a <;> rfl) rfl rfl
      (plain_connection v.seat (fun _ => rfl) fun _ _ => rfl)
  | stopWriting =>
    exact .inr <| .deed (fun a => by cases a <;> rfl) rfl rfl
      (plain_connection v.seat (fun _ => rfl) fun _ _ => rfl)
  | turn work => exact .inl ⟨work, rfl, rfl⟩

/-- Nobody is let in any more once somebody was, or once nobody listens. -/
theorem bind_late (h : s.session.signal ≠ .open) (client : Nat) (c : Connection) :
    (s.bind client c).2 = s ∨ s.session.signal = .unheard ∧
      (s.bind client c).2 = { s with session := { s.session with signal := .over } } := by
  unfold Seat.bind
  have hb := bind_binding s.session client
  generalize s.session.bind client = after at hb
  cases hb with
  | closed | taken => exact .inl rfl
  | unheard hp hu => exact .inr ⟨hu, rfl⟩
  | first hp ho => exact (h ho).elim

theorem Outer.same (ho : Outer v h v') :
    v'.seat.lifetime = v.seat.lifetime ∧ v'.seat.session.hint = v.seat.session.hint ∧
      v'.sent = v.sent ∧ v'.launches = v.launches := by
  cases ho with
  | bind =>
    refine ⟨(bind_seat _ _ _).2.2.1, ?_, rfl, rfl⟩
    rename_i client _ _
    rw [(bind_seat _ _ _).2.1]
    have hb := bind_binding v.seat.session client
    generalize v.seat.session.bind client = after at hb
    cases hb with
    | closed | taken | unheard => rfl
    | first =>
      unfold welcome
      split <;> rfl
  | close | shutdown | pass => exact ⟨rfl, rfl, rfl, rfl⟩
  | deed _ _ _ hp => exact ⟨hp.lifetime, by rw [hp.session], rfl, rfl⟩

/-- What others do once a client was handed over, or once nobody listens. -/
structure Late (s t : Seat) : Prop where
  taken : t.session.signal ≠ .open
  sending : t.terminal.connection.outbound.sending = s.terminal.connection.outbound.sending
  closed : s.terminal.isClosed = true → t.terminal.isClosed = true

theorem Outer.late (ho : Outer v h v')
    (hs : v.seat.session.signal ≠ .open) : Late v.seat v'.seat := by
  cases ho with
  | @bind client keysRoom framesRoom =>
    rcases bind_late hs client _ with hb | ⟨-, hb⟩
    · rw [hb]
      exact ⟨hs, rfl, id⟩
    · rw [hb]
      exact ⟨by simp, rfl, id⟩
  | close => exact ⟨stop_sending_open _, rfl, id⟩
  | shutdown | pass => exact ⟨hs, rfl, id⟩
  | deed _ _ _ hp => exact ⟨by rw [hp.session]; exact hs, hp.sending, hp.closed⟩

/-- The signal of a session that is waited for, by what was heard. -/
def Heard : Signal.Arrival → Seat → Prop
  | .nobodyYet, s => s.session.signal = .open ∧ s.session.phase ≠ .closed
  | .client n, s =>
    s.session.signal = .carrying n ∧ s.terminal.connection.outbound.sending = true
  | .nobody, s => s.session.signal = .over

theorem Heard.bind_same {a : Signal.Arrival} (ha : Heard a s) (hn : a ≠ .nobodyYet) (client : Nat)
    (c : Connection) : (s.bind client c).2 = s := by
  have hs : s.session.signal ≠ .open ∧ s.session.signal ≠ .unheard := by
    cases a with
    | nobodyYet => exact (hn rfl).elim
    | client n => simp [ha.1]
    | nobody =>
      have hs : s.session.signal = .over := ha
      simp [hs]
  exact (bind_late hs.1 client c).resolve_right fun hu => hs.2 hu.1

theorem Outer.heard (ho : Outer v h v') {a : Signal.Arrival} (ha : Heard a v.seat) :
    Heard (hear a h) v'.seat := by
  cases ho with
  | bind =>
    cases a with
    | nobodyYet =>
      rw [bind_first ha.2 ha.1]
      exact ⟨welcome_signal _ _, rfl⟩
    | client | nobody =>
      rw [ha.bind_same nofun]
      exact ha
  | close =>
    cases a with
    | nobodyYet => simp [hear, Heard, markClosed, ha.1, Signal.stopSending]
    | client n => exact ⟨by simp [markClosed, ha.1, Signal.stopSending], ha.2⟩
    | nobody =>
      have hs : v.seat.session.signal = .over := ha
      simp [hear, Heard, markClosed, hs, Signal.stopSending]
  | shutdown | pass => cases a <;> exact ha
  | deed hh _ _ hp =>
    rw [hh]
    cases a with
    | nobodyYet | nobody => simpa [Heard, hp.session] using ha
    | client n => simpa [Heard, hp.session, hp.sending] using ha

theorem Heard.arrival {a : Signal.Arrival} (h : Heard a s) : s.session.signal.receive.1 = a := by
  cases a with
  | nobodyYet => rw [h.1]; rfl
  | client n => rw [h.1]; rfl
  | nobody =>
    have hs : s.session.signal = .over := h
    rw [hs]
    rfl

theorem Heard.carried {a : Signal.Arrival} (h : Heard a s) {n : Nat}
    (hs : s.session.signal = .carrying n) :
    a = .client n ∧ s.terminal.connection.outbound.sending = true := by
  have ha := h.arrival
  rw [hs] at ha
  subst ha
  exact ⟨rfl, h.2⟩

/-- The client was handed over, and frames can be sent to it. -/
structure Met (s : Seat) : Prop where
  taken : s.session.signal ≠ .open
  sending : s.terminal.connection.outbound.sending = true

def Stands (timeout : Nat) (a : Signal.Arrival) (launches : Nat) (s : Seat) : Prop :=
  match s.lifetime with
  | .waiting deadline => deadline = timeout ∧ launches = 0 ∧ Heard a s
  | .running _ | .parting _ _ => Met s
  | .over _ => s.session.signal ≠ .open

/-- What is known of a session when some things have come about. -/
structure Kept (hint : Option String) (timeout : Nat) (hs : List Happening) (v : Vigil) : Prop where
  clock : v.clock = elapsed hs
  shutdown : v.shutdown = hs.any shuts
  hint : v.seat.session.hint = hint
  stands : Stands timeout (news hs) v.launches v.seat

theorem kept_start (id : String) (target : Target) (hint : Option String) (room timeout : Nat) :
    Kept hint timeout [] (.start id target hint room timeout) :=
  ⟨rfl, rfl, rfl, rfl, rfl, rfl, nofun⟩

variable {hint : Option String} {timeout launches now deadline : Nat} {shutdown : Bool}
  {arrival : Signal.Arrival} {a : Attachment}

theorem Kept.waiting (hk : Kept hint timeout hs v) (hl : v.seat.lifetime = .waiting deadline) :
    deadline = timeout ∧ v.launches = 0 ∧ Heard (news hs) v.seat := by
  have stands := hk.stands
  simpa only [Stands, hl] using stands

theorem Kept.met (hk : Kept hint timeout hs v) (hl : v.seat.lifetime = .running a) :
    Met v.seat := by
  have stands := hk.stands
  simpa only [Stands, hl] using stands

theorem Kept.met_parting (hk : Kept hint timeout hs v)
    (hl : v.seat.lifetime = .parting o last) : Met v.seat := by
  have stands := hk.stands
  simpa only [Stands, hl] using stands

theorem Kept.unheard (hk : Kept hint timeout hs v) (hl : v.seat.lifetime = .over o) :
    v.seat.session.signal ≠ .open := by
  have stands := hk.stands
  simpa only [Stands, hl] using stands

theorem news_snoc (hs : List Happening) (h : Happening) : news (hs ++ [h]) = hear (news hs) h := by
  simp [news]

theorem Stands.outer (hk : Stands timeout arrival v.launches v.seat) (ho : Outer v h v') :
    Stands timeout (hear arrival h) v'.launches v'.seat := by
  obtain ⟨hl, -, -, hn⟩ := ho.same
  have met (hm : Met v.seat) : Met v'.seat := by
    have hlate := ho.late hm.taken
    exact ⟨hlate.taken, hlate.sending.trans hm.sending⟩
  unfold Stands at hk ⊢
  rw [hl]
  split at hk
  · obtain ⟨hd, h0, ha⟩ := hk
    exact ⟨hd, hn.trans h0, ho.heard ha⟩
  · exact met hk
  · exact met hk
  · exact (ho.late hk).taken

theorem Kept.outer (hk : Kept hint timeout hs v) (ho : Outer v h v') :
    Kept hint timeout (hs ++ [h]) v' := by
  refine ⟨?_, ?_, ho.same.2.1.trans hk.hint, by rw [news_snoc]; exact hk.stands.outer ho⟩
  · cases ho with
    | bind | close | shutdown | pass => simp [elapsed, duration, hk.clock]
    | deed _ _ hd => simpa [elapsed, hd] using hk.clock
  · cases ho with
    | bind | close | shutdown | pass => simp [shuts, hk.shutdown]
    | deed _ hs _ => simpa [hs] using hk.shutdown

theorem stands_left (s : Seat) (o : Outcome) : Stands timeout arrival launches (s.leave o) :=
  stop_receiving_open _

theorem parted_stands (h : Parted s o last t) (hm : Met s) :
    Stands timeout arrival launches t := by
  cases h with
  | stays => exact ⟨hm.taken, hm.sending⟩
  | sent | lost => exact stands_left _ o

theorem attended_stands (h : Attended s now shutdown t)
    (hk : Stands timeout arrival launches s) :
    Stands timeout arrival (launches + (t.lifetime.runs && !s.lifetime.runs).toNat) t := by
  cases h with
  | launched hl hs =>
    simp only [Stands, hl] at hk
    exact ⟨by simp [mark_running_signal], (hk.2.2.carried hs).2⟩
  | turnedAway hl hs hp =>
    simp only [Stands, hl] at hk
    exact parted_stands hp ⟨by simp [mark_running_signal], (hk.2.2.carried hs).2⟩
  | abandoned | shutDown | timedOut => exact stands_left _ _
  | patient | busy | gone => simpa using hk
  | stopped hl hp | parting hl hp =>
    simp only [Stands, hl] at hk
    exact parted_stands hp hk

theorem Kept.look (hk : Kept hint timeout hs v) : Kept hint timeout hs v.look where
  clock := hk.clock
  shutdown := hk.shutdown
  hint := (look_attended v).same_hint.trans hk.hint
  stands := attended_stands (look_attended v) hk.stands

theorem concluded_stands {ended : Except Exec.Failure Unit} (h : Concluded s a ended t)
    (hm : Met s) : Stands timeout arrival launches t := by
  cases h with
  | again => exact ⟨hm.taken, hm.sending⟩
  | finished => exact stands_left _ _
  | failed _ _ hp => exact parted_stands hp hm

theorem Kept.work (hk : Kept hint timeout hs v) (hl : v.seat.lifetime = .running a)
    (work : Work) : Kept hint timeout hs (v.work work) := by
  have hm : Met v.seat := hk.met hl
  cases work with
  | act act =>
    obtain ⟨frames, hf, -⟩ := perform_outbound v.seat.terminal act
    refine ⟨hk.clock, hk.shutdown, hk.hint, ?_⟩
    have hl' : (v.seat.perform act).2.lifetime = .running a := hl
    simp only [Stands, Vigil.work, Vigil.become, hl']
    refine ⟨hm.taken, ?_⟩
    simp only [Seat.perform, hf]
    exact hm.sending
  | ended result =>
    have hc := attempted_concluded hl result
    exact ⟨hk.clock, hk.shutdown, hc.same_hint.trans hk.hint, concluded_stands hc hm⟩

/-- What a turn comes to: a look, or some work after it. -/
inductive Turned (v : Vigil) : Option Work → Vigil → Prop
  | looked {work : Option Work} : work = none ∨ v.look.seat.lifetime.runs = false →
      Turned v work v.look
  | worked {work : Work} {a : Attachment} : v.look.seat.lifetime = .running a →
      Turned v (some work) (v.look.work work)

theorem turn_turned (v : Vigil) (work : Option Work) : Turned v work (v.turn work) := by
  unfold Vigil.turn
  split
  · rename_i hr
    obtain ⟨a, hl⟩ := runs_running hr
    cases work with
    | none => exact .looked (.inl rfl)
    | some work => exact .worked hl
  · rename_i hr
    exact .looked (.inr (by simpa using hr))

theorem Kept.turn (hk : Kept hint timeout hs v) (work : Option Work) :
    Kept hint timeout (hs ++ [.turn work]) (v.turn work) := by
  have kept : Kept hint timeout hs (v.turn work) := by
    have ht := turn_turned v work
    generalize v.turn work = v' at ht
    cases ht with
    | looked => exact hk.look
    | worked hl => exact hk.look.work hl _
  refine ⟨by simpa [elapsed, duration] using kept.clock, by simpa [shuts] using kept.shutdown,
    kept.hint, ?_⟩
  have hn : news (hs ++ [.turn work]) = news hs := by
    rw [news_snoc]
    cases news hs <;> rfl
  rw [hn]
  exact kept.stands

theorem Kept.step (hk : Kept hint timeout hs v) (h : Happening) :
    Kept hint timeout (hs ++ [h]) (v.step h) := by
  rcases step_cases v h with ⟨work, rfl, hv⟩ | ho
  · rw [hv]
    exact hk.turn work
  · exact hk.outer ho

theorem run_kept (id : String) (target : Target) (hint : Option String) (room timeout : Nat)
    (hs : List Happening) :
    Kept hint timeout hs ((Vigil.start id target hint room timeout).run hs) := by
  induction hs using List.reverseRecOn with
  | nil => exact kept_start id target hint room timeout
  | append_singleton hs h ih =>
    rw [run_snoc]
    exact ih.step h

end PodConsole.Proofs.Vigils
