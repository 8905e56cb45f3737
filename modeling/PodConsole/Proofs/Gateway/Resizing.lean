import PodConsole.Proofs.Gateway.Routing
import PodConsole.Proofs.Gateway.Sparing
import PodConsole.Proofs.Session.Sizes

namespace PodConsole.Proofs.Resizing
open Gateway Session Lifecycle Pushing Roster Attending Seats Turns Changes Listing Speakers Sparing
  Routing Sizes
open Wire (Size)

variable {g : Gateway} {e : Event} {n : Nat} {s u : Seat} {token : String} {limit : Nat}
  {got taken sent : List Size} {settings : Settings} {past : List Event}

/-- The sizes that a session's process gets in a run. -/
def sizesGiven (token : String) (g : Gateway) (events : List Event) : List Size :=
  (answers token g events).filterMap answered?

theorem settled_terminal (s t : Seat) : (settled s t).terminal = t.terminal := by
  unfold settled
  split <;> rfl

theorem shut_terminal (s : Seat) : (shut s).terminal = s.terminal := by
  unfold shut
  split <;> rfl

theorem unanswered (h : ∀ a, e ≠ .act token a) : givenAnswer token g e = [] := by
  cases e with
  | act own a =>
    have hid : own ≠ token := fun hid => h a (hid ▸ rfl)
    simp [givenAnswer, hid]
  | start | connect | follow | frame | cut | read | write | attend | attempt | close | pass
  | shutdown => rfl

/-- What a step that is about the session itself makes of its terminal. -/
theorem turned_measured (hs : subject? e = some token) (hf : seatOf g.registry token = some s) :
    Measured s.terminal (turned g.clock g.shutdown s e).terminal
      ((givenAnswer token g e).filterMap answered?) := by
  cases e with
  | start | connect | follow | frame | cut | read | write | pass | shutdown => cases hs
  | attend =>
    rw [turned, settled_terminal]
    exact attend_measured s _ _
  | attempt =>
    rw [turned, settled_terminal]
    exact attempted_measured s _
  | close =>
    rw [turned, shut_terminal]
    exact .refl _
  | act own a =>
    cases hs
    simp only [turned, givenAnswer, if_true, hf]
    cases hr : isRunning s with
    | false =>
      simp only [Option.filter, hr]
      exact .refl _
    | true =>
      simp only [Option.filter, hr, if_true, Option.map_some, Option.toList_some, answered_one]
      exact perform_measured s.terminal a

theorem touch_measured (h : Touch g n s e u) (hs : subject? e = none) :
    Measured s.terminal u.terminal [] := by
  cases h with
  | none | cancel | stop | said => exact .same rfl rfl
  | bind => exact bind_measured s _ _
  | push => exact push_measured s _
  | attend | attempted | act => cases hs

/-- In each step, the process gets what comes out of the queue, and the terminal keeps the last of
it. -/
theorem seat_measured (hl : Listed limit g.registry) (hu : (ids (g.step e).registry).Nodup)
    (hf : Found g token n s) : ∃ u, Found (g.step e) token n u ∧
      Measured s.terminal u.terminal ((givenAnswer token g e).filterMap answered?) := by
  obtain ⟨u, hfu, hb⟩ := found_step hl hu hf
  refine ⟨u, hfu, ?_⟩
  cases hs : subject? e with
  | none =>
    rw [unanswered (by rintro a rfl; cases hs)]
    cases hb with
    | touched ht => exact touch_measured ht hs
    | closed ht =>
      have hm := touch_measured ht hs
      exact ⟨hm.queue, hm.size⟩
  | some other =>
    have hseat : seatOf (g.step e).registry token = _ := subject_step hl hs
    rw [seat_of_found hfu, seat_of_found hf] at hseat
    split at hseat
    · rename_i hid
      cases hseat
      exact turned_measured (hid ▸ hs) (seat_of_found hf)
    · rename_i hid
      cases hseat
      rw [unanswered (by rintro a rfl; exact hid (Option.some.inj hs).symm)]
      exact .refl _

/-- A session that nobody was let in to is still waited for, and has had no size. -/
def Untouched (capacity : Nat) (s : Seat) : Prop :=
  s.session.signal = .open → (∃ deadline, s.lifetime = .waiting deadline) ∧
    s.terminal.sizes = { capacity } ∧ s.terminal.size = {}

variable {capacity : Nat}

theorem closed_untouched (s : Seat) : Untouched capacity (closedSeat s) :=
  fun h => (stop_sending_open _ h).elim

theorem settled_untouched {t : Seat} (h : Untouched capacity t) :
    Untouched capacity (settled s t) := by
  unfold settled
  split
  · exact closed_untouched t
  · exact h

theorem left_untouched (s : Seat) (outcome : Outcome) : Untouched capacity (s.leave outcome) :=
  fun ho => (stop_receiving_open _ ho).elim

theorem parted_untouched {t : Seat} {outcome : Outcome} {last : Wire.Envelope}
    (h : Parted s outcome last t) (hs : s.session.signal ≠ .open) : Untouched capacity t := by
  cases h with
  | stays => exact fun ho => (hs ho).elim
  | sent | lost => exact left_untouched _ outcome

theorem Untouched.signal_ne (h : Untouched capacity s)
    (hl : ∀ deadline, s.lifetime ≠ .waiting deadline) : s.session.signal ≠ .open := fun ho => by
  obtain ⟨⟨deadline, hd⟩, -⟩ := h ho
  exact hl deadline hd

theorem attend_untouched (h : Untouched capacity s) (now : Nat) (shutdown : Bool) :
    Untouched capacity (s.attend now shutdown) := by
  -- a client that has been found has used the signal up
  have used : { s.session with signal := .over }.markRunning.signal ≠ .open := by
    simp [mark_running_signal]
  have ha := attend_attended s now shutdown
  generalize s.attend now shutdown = t at ha
  cases ha with
  | launched => exact fun ho => (used ho).elim
  | turnedAway _ _ hp => exact parted_untouched hp used
  | abandoned | shutDown | timedOut => exact left_untouched s _
  | stopped hl hp | parting hl hp => exact parted_untouched hp (h.signal_ne (by simp [hl]))
  | patient | busy | gone => exact h

theorem attempted_untouched (h : Untouched capacity s) (result : Except Exec.Failure Unit) :
    Untouched capacity (s.attempted result) := by
  rcases attempted_cases s result with hs | ⟨a, hl, hc⟩
  · rw [hs]
    exact h
  · have unopened : s.session.signal ≠ .open := h.signal_ne (by simp [hl])
    generalize s.attempted result = t at hc
    cases hc with
    | again => exact fun ho => (unopened ho).elim
    | finished => exact left_untouched s .finished
    | failed _ _ hp => exact parted_untouched hp unopened

theorem turned_untouched (h : Untouched capacity s) (clock : Nat) (shutdown : Bool) (e : Event) :
    Untouched capacity (turned clock shutdown s e) := by
  cases e with
  | attend => exact settled_untouched (attend_untouched h clock shutdown)
  | attempt token result => exact settled_untouched (attempted_untouched h result)
  | close =>
    simp only [turned, shut]
    split
    · exact h
    · exact closed_untouched s
  | act token a =>
    simp only [turned]
    split
    · rename_i hr
      intro ho
      obtain ⟨⟨deadline, hd⟩, -⟩ := h ho
      simp [isRunning, hd] at hr
    · exact h
  | start | connect | follow | frame | cut | read | write | pass | shutdown => exact h

theorem bind_untouched (h : Untouched capacity s) (client : Nat) (c : Connection) :
    Untouched capacity (s.bind client c).2 := by
  intro ho
  obtain ⟨-, hsession, hlife, hterm⟩ := bind_seat s client c
  have hb := bind_binding s.session client
  rw [hsession] at ho
  rw [hterm, hlife]
  generalize s.session.bind client = after at hb ho
  cases hb with
  | closed | taken => simpa using h ho
  | unheard => cases ho
  | first =>
    rw [welcome_signal] at ho
    cases ho

theorem push_session (s : Seat) (held : Held) : (push s held).2.session = s.session := by
  cases held <;> rfl

theorem touch_untouched (hs : Sound g) (h : Untouched capacity s) (ht : Touch g n s e u)
    (he : subject? e = none) : Untouched capacity u := by
  have taken (ho : Own g n s e) : s.session.signal ≠ .open := fun hopen => by
    obtain ⟨client, sock, token, -, hc, hsp, hf⟩ := ho
    obtain ⟨m, t, hf', hj⟩ := hs.joined client sock token hc hsp
    obtain ⟨rfl, rfl⟩ := hf.unique hf'
    have ht := hj.taken
    rw [hopen] at ht
    cases ht
  cases ht with
  | none => exact h
  | bind => exact bind_untouched h _ _
  | push ho hp =>
    intro hopen
    rw [push_session] at hopen
    exact (taken ho hopen).elim
  | cancel ho | stop ho | said ho => exact fun hopen => (taken ho hopen).elim
  | attend | attempted | act => cases he

theorem run_untouched (hn : (tokens past).Nodup) :
    ∀ n s, (Gateway.run { settings } past).registry.seat? n = some s →
      Untouched settings.session.resizeQueueCapacity s := by
  refine (run_keeps (p := fun past g => Reached settings past g ∧ ∀ n s,
    g.registry.seat? n = some s → Untouched settings.session.resizeQueueCapacity s) ?_ ?_
    past hn).2
  · exact ⟨⟨in_step_start settings, sound_start settings⟩, by simp [Registry.seat?]⟩
  · rintro past g e ⟨hr, ih⟩ hf
    have hnext := hr.step hf
    refine ⟨hnext, fun n u hu => ?_⟩
    rcases effect_origin (step_effect hr.listed) hu with ⟨s, hs, hb⟩ | ⟨token, target, hint, rfl⟩
    · cases he : subject? e with
      | none =>
        cases hb with
        | touched ht => exact touch_untouched hr.sound (ih n s hs) ht he
        | closed ht => exact closed_untouched _
      | some other =>
        have hseat : seatOf (g.step e).registry u.session.id = _ := subject_step hr.listed he
        rw [(seat_of_iff hnext.listed.unique).mpr ⟨n, hu, rfl⟩,
          (seat_of_iff hr.listed.unique).mpr ⟨n, hs, hb.same_id.symm⟩] at hseat
        split at hseat
        · rw [Option.some.inj hseat]
          exact turned_untouched (ih n s hs) _ _ _
        · rw [Option.some.inj hseat]
          exact ih n s hs
    · intro _
      rw [newSeat, hr.inStep.settings]
      exact ⟨⟨_, rfl⟩, rfl, rfl⟩

/-- The sizes that the process of a session has got, of those that were handed to the session. -/
structure Metered (taken sent : List Size) (s : Seat) : Prop where
  queue : Account taken sent s.terminal.sizes
  size : s.terminal.size = latest {} taken

theorem Metered.step (h : Metered taken sent s) (hm : Measured s.terminal u.terminal got) :
    Metered (taken ++ got) (sent ++ (entries s u).filterMap handed?) u where
  queue := by
    rw [entries_sizes]
    exact h.queue.step hm.queue
  size := by rw [hm.size, h.size, latest_append]

theorem run_metered (events : List Event) (hn : (tokens (past ++ events)).Nodup)
    (hf : Found (Gateway.run { settings } past) token n s) (h : Metered taken sent s) :
    let g := Gateway.run { settings } past
    ∃ u, Found (g.run events) token n u ∧
      Metered (taken ++ sizesGiven token g events)
        (sent ++ (entered n g events).filterMap handed?) u ∧
      u.terminal.sizes.capacity = s.terminal.sizes.capacity := by
  induction events generalizing past s taken sent with
  | nil =>
    refine ⟨s, hf, ?_, rfl⟩
    simpa [sizesGiven, answers, along, entered] using h
  | cons e rest ih =>
    obtain ⟨hnow, hnext, hn⟩ := run_reached_cons hn
    have hrun : Gateway.run { settings } (past ++ [e]) =
        (Gateway.run { settings } past).step e := run_snoc _ _ _
    obtain ⟨v, hfv, hm⟩ := seat_measured hnow.listed hnext.listed.unique hf
    obtain ⟨u, hfu, hmet, hcap⟩ := ih hn (hrun ▸ hfv) (h.step hm)
    simp only [hrun] at hfu hmet
    refine ⟨u, hfu, ?_, hcap.trans hm.queue.capacity⟩
    simpa [sizesGiven, answers, along, entered, handedOver, hf.seat, hfv.seat] using hmet

/-- A client that is let in finds a queue with nothing in it. -/
theorem entering_metered {client : Nat} (hn : (tokens past).Nodup)
    (he : Enters (Gateway.run { settings } past) client token e
      ((Gateway.run { settings } past).step e).registry n s) {c : Connection} :
    Metered [] [] (s.bind client c).2 ∧
      (s.bind client c).2.terminal.sizes.capacity = settings.session.resizeQueueCapacity := by
  have hl := (run_reached settings past hn).listed
  obtain ⟨-, hopen⟩ := bind_accepted.mp he.accepted
  obtain ⟨-, hsizes, hsize⟩ := run_untouched hn n s (he.found hl).seat hopen
  have hterm : (s.bind client c).2.terminal.sizes = s.terminal.sizes ∧
      (s.bind client c).2.terminal.size = s.terminal.size := by
    rw [(bind_seat s client c).2.2.2]
    split <;> exact ⟨rfl, rfl⟩
  refine ⟨⟨?_, ?_⟩, ?_⟩
  · rw [hterm.1, hsizes]
    exact account_start _
  · rw [hterm.2, hsize]
    rfl
  · rw [hterm.1, hsizes]

end PodConsole.Proofs.Resizing
