import PodConsole.Gateway.Making
import PodConsole.Proofs.Gateway.Handshake
import PodConsole.Proofs.Gateway.Sparing
import PodConsole.Proofs.Session.Rooms
import PodConsole.Proofs.Settings.Checks
import PodConsole.Rehearsal.Shift

namespace PodConsole.Proofs.Furnishing
open Gateway Session Roster Seats Turns Changes Listing Speakers Handshake Sparing Rooms Checks
open Settings (Address)

variable {g : Gateway} {e : Event} {n : Nat} {s t : Seat} {r r' : Registry} {client : Nat}
  {sock sock' : Socket} {token : String} {settings : Settings} {had more : List Nat}
  {past events : List Event}

/-- Each session was there before, with the queues that it has. -/
def Carries (r r' : Registry) : Prop :=
  ∀ n t, r'.seat? n = some t → ∃ s, r.seat? n = some s ∧ Steady s t

theorem Carries.refl (r : Registry) : Carries r r :=
  fun _ t ht => ⟨t, ht, .refl t⟩

theorem set_carries (hs : r.seat? n = some s) (hst : Steady s t) : Carries r (r.setSeat n t) := by
  intro m u hu
  rw [seat_set hs] at hu
  split at hu
  · rename_i hm
    cases hu
    exact ⟨s, hm ▸ hs, hst⟩
  · exact ⟨u, hu, .refl u⟩

theorem close_carries (r : Registry) (token : String) : Carries r (r.close token).2 := by
  cases hn : r.entry? token with
  | none =>
    rw [close_unknown hn]
    exact .refl r
  | some n =>
    cases hs : r.seat? n with
    | none =>
      have hs' : (strike r token).seat? n = none := hs
      have hclose : (r.close token).2 = strike r token := by
        simp only [strike] at hs' ⊢
        simp only [Registry.close, hn, hs']
      rw [hclose]
      exact .refl r
    | some s =>
      rw [close_known hn hs]
      exact set_carries (r := strike r token) (t := closedSeat s) hs
        (.same_terminal rfl fun _ => id)

theorem update_carries (hs : r.seat? n = some s) (hst : Steady s t) :
    Carries r (r.update n fun _ => t) := by
  by_cases ho : t.isOver = true → s.isOver = true
  · rw [update_on hs ho]
    exact set_carries hs hst
  · obtain ⟨ht, hso⟩ := Classical.not_imp.mp ho
    rw [update_over hs (by simpa using hso) ht]
    intro m u hu
    obtain ⟨v, hv, hvu⟩ := close_carries _ _ m u hu
    obtain ⟨w, hw, hwv⟩ := set_carries hs hst m v hv
    exact ⟨w, hw, hwv.trans hvu⟩

theorem touch_steady (h : Touch g n s e t) (hr : ∀ client, e ≠ .read client) : Steady s t := by
  cases h with
  | none => exact .refl s
  | bind => exact (hr _ rfl).elim
  | push => exact push_steady s _
  | cancel => exact cancel_steady s
  | stop => exact stop_writing_steady s
  | said => exact said_steady s _
  | attend => exact attend_steady s _ _
  | attempted => exact attempted_steady s _
  | act => exact perform_steady s _

theorem handed_carries {held : Held} (hf : Found g token n s)
    (h : Handed g sock token n s held r sock') : Carries g.registry r := by
  cases h with
  | sent => exact set_carries hf.seat (push_steady s held)
  | full => exact .refl _
  | closed => exact set_carries hf.seat (cancel_steady s)

theorem sought_bind {text : String} {rest : List Frame} (hc : g.socket? client = some sock)
    (hs : sock.stage = .greeting) (hd : g.shutdown = false) (hi : sock.inbox = .text text :: rest)
    (hp : Wire.Command.parse text = .ok (.bind token)) :
    g.sought? client = g.registry.get? token := by
  simp [sought?, hc, hs, hd, hi, hp]

/-- A client that is let in, or is turned away by a session that it named. -/
structure Bound (g : Gateway) (client n : Nat) (s : Seat) (r : Registry) : Prop where
  greets : ∃ sock, g.socket? client = some sock ∧ sock.stage = .greeting
  sought : g.sought? client = some (n, s)
  seat : g.registry.seat? n = some s
  registry : r = g.registry.setSeat n (s.bind client g.connection).2

theorem reading_origin (hc : g.socket? client = some sock) (h : Reading g client sock r sock') :
    Carries g.registry r ∨ ∃ n s, Bound g client n s r := by
  cases h with
  | idle | done | lost | closed | skip | leave | dropped => exact .inl (.refl _)
  | greet hs hd hi hg =>
    cases hg with
    | stranger | unknown => exact .inl (.refl _)
    | bound hp hget | taken hp hget | refused hp hget =>
      exact .inr ⟨_, _, ⟨_, hc, hs⟩, (sought_bind hc hs hd hi hp).trans hget, (get_iff.mp hget).2.1,
        rfl⟩
  | offered hs hf hcl hh => exact .inl (handed_carries hf hh)
  | shut hs hf => exact .inl (set_carries hf.seat (cancel_steady _))
  | routed hs hf hcl hd hi hr =>
    cases hr with
    | skipped => exact .inl (.refl _)
    | handed hh hr => exact .inl (handed_carries hf hr)
    | left => exact .inl (set_carries hf.seat (cancel_steady _))

/-- Where a session is found after a step, it was there before, or was started, or a client has come
for it. -/
inductive Origin (g : Gateway) (n : Nat) : Event → Seat → Prop
  | kept {e : Event} {s t : Seat} : g.registry.seat? n = some s → Steady s t → Origin g n e t
  | started {token : String} {target : Exec.Target} {hint : Option String} :
      Origin g n (.start token target hint) (newSeat g token target hint)
  | bound {client : Nat} {s : Seat} {r : Registry} : Bound g client n s r →
      Origin g n (.read client) (s.bind client g.connection).2

theorem read_origin (h : (g.step (.read client)).registry.seat? n = some t) :
    Origin g n (.read client) t := by
  cases hc : g.socket? client with
  | none =>
    have hr : g.step (.read client) = g := by simp [Gateway.step, read?, hc]
    rw [hr] at h
    exact .kept h (.refl t)
  | some sock =>
    obtain ⟨r, sock', hr, ha⟩ := read_reading hc
    rw [show (g.step (.read client)).registry = r from ha.registry] at h
    rcases reading_origin hc hr with hcarries | ⟨m, s, hb⟩
    · obtain ⟨s, hs, hst⟩ := hcarries n t h
      exact .kept hs hst
    · rw [hb.registry, seat_set hb.seat] at h
      split at h
      · rename_i hm
        cases h
        exact .bound (hm ▸ hb)
      · exact .kept h (.refl t)

theorem step_origin (h : (g.step e).registry.seat? n = some t) : Origin g n e t := by
  by_cases hr : ∃ client, e = .read client
  · obtain ⟨client, rfl⟩ := hr
    exact read_origin h
  have carried {r : Registry} (hcarries : Carries g.registry r) (ht : r.seat? n = some t) :
      Origin g n e t := by
    obtain ⟨s, hs, hst⟩ := hcarries n t ht
    exact .kept hs hst
  have hchange := step_change g e
  generalize (g.step e).registry = r at hchange h
  cases hchange with
  | same => exact carried (.refl _) h
  | started he =>
    rw [admitted_seat] at h
    split at h
    · cases h
      subst he
      exact .started
    · exact carried (.refl _) h
  | touched hs ht =>
    exact carried (update_carries hs (touch_steady ht fun client he => hr ⟨client, he⟩)) h
  | closed => exact carried (close_carries _ _) h

/-- A socket that greets has just been opened, or has greeted before. -/
theorem greeting_origin (h : (g.step e).socket? client = some sock')
    (hs : sock'.stage = .greeting) :
    (e = .connect client ∧ g.socket? client = none) ∨
      ∃ sock, g.socket? client = some sock ∧ sock.stage = .greeting := by
  cases hc : g.socket? client with
  | some sock =>
    obtain ⟨sock'', hc'', hst⟩ := step_socket hc e
    rw [h] at hc''
    cases hc''
    exact .inr ⟨sock, rfl, (stepped_greeting hst hs).1⟩
  | none =>
    rcases opened_socket hc h with ⟨he, -⟩ | ⟨source, -, rfl⟩
    · exact .inl ⟨he, rfl⟩
    · rcases log_stage g.shutdown source with hl | hl <;> rw [hl] at hs <;> cases hs

/-- The room of each queue that a run makes. -/
def stock (g : Gateway) (events : List Event) : List Nat :=
  along Gateway.made g events

/-- A queue with the room that it was to have, out of those that were made. -/
structure Supplied {α : Type} (had : List Nat) (room : Nat) (q : Queue α) : Prop where
  capacity : q.capacity = room
  among : room ∈ had

/-- No client has come, and nobody receives anything. -/
def Vacant (c : Connection) : Prop :=
  c.stdin.receiving = false ∧ c.outbound.receiving = false

structure Furnished (settings : Settings) (had : List Nat) (s : Seat) : Prop where
  sizes : Supplied had settings.session.resizeQueueCapacity s.terminal.sizes
  client : Vacant s.terminal.connection ∨
    Supplied had settings.session.stdinQueueCapacity s.terminal.connection.stdin ∧
      Supplied had Settings.outboundCapacity s.terminal.connection.outbound

theorem Supplied.keep {α : Type} {room : Nat} {q q' : Queue α} (h : Supplied had room q)
    (hq : q'.capacity = q.capacity) (more : List Nat) : Supplied (had ++ more) room q' :=
  ⟨hq.trans h.capacity, List.mem_append_left more h.among⟩

theorem Supplied.add {α : Type} {room : Nat} {q : Queue α} (hq : q.capacity = room)
    (hm : room ∈ more) : Supplied (had ++ more) room q :=
  ⟨hq, List.mem_append_right had hm⟩

theorem Vacant.steady (h : Vacant s.terminal.connection) (hst : Steady s t) :
    Vacant t.terminal.connection := by
  constructor
  · by_contra hon
    exact Bool.false_ne_true (h.1.symm.trans (hst.keys (by simpa using hon)))
  · by_contra hon
    exact Bool.false_ne_true (h.2.symm.trans (hst.outbound (by simpa using hon)))

theorem Furnished.steady (h : Furnished settings had s) (hst : Steady s t) (more : List Nat) :
    Furnished settings (had ++ more) t where
  sizes := h.sizes.keep hst.sizesRoom more
  client := h.client.imp (fun hv => hv.steady hst)
    fun hc => ⟨hc.1.keep hst.keysRoom more, hc.2.keep hst.framesRoom more⟩

/-- The keystrokes of a new client get a queue in the turn in which it is let in, and its frames got
theirs when its socket was opened. -/
theorem Furnished.bound (h : Furnished g.settings had s) (hframes : Settings.outboundCapacity ∈ had)
    (hb : Bound g client n s r) :
    Furnished g.settings (had ++ g.made (.read client)) (s.bind client g.connection).2 := by
  have hkeys : g.settings.session.stdinQueueCapacity ∈ g.made (.read client) := by
    simp [Gateway.made, hb.sought]
  obtain ⟨-, -, hl, ht⟩ := bind_seat s client g.connection
  split at ht
  · refine ⟨?_, .inr ⟨?_, ?_⟩⟩
    · rw [ht]
      exact h.sizes.keep rfl _
    · rw [ht]
      exact .add rfl hkeys
    · rw [ht]
      exact ⟨rfl, List.mem_append_left _ hframes⟩
  · exact h.steady (.same_terminal ht fun _ hw => hl ▸ hw) _

/-- What a gateway has come to after a run. -/
structure Stocked (g : Gateway) (past : List Event) : Prop where
  settings : (g.run past).settings = g.settings
  seats : ∀ n s, (g.run past).registry.seat? n = some s → Furnished g.settings (stock g past) s
  frames : ∀ client sock, (g.run past).socket? client = some sock → sock.stage = .greeting →
    Settings.outboundCapacity ∈ stock g past
  deadlines : ∀ n s time, (g.run past).registry.seat? n = some s → s.lifetime = .waiting time →
    ∃ before, before <+: past ∧
      time = (g.run before).clock + 1000 * g.settings.session.bindTimeoutSecs

theorem stock_snoc (g : Gateway) (past : List Event) (e : Event) :
    stock g (past ++ [e]) = stock g past ++ (g.run past).made e :=
  along_snoc Gateway.made g past e

theorem Stocked.furnishes (h : Stocked g past) (ho : Origin (g.run past) n e t) :
    Furnished g.settings (stock g (past ++ [e])) t := by
  have hsettings := h.settings
  rw [stock_snoc]
  cases ho with
  | kept hs hst => exact (h.seats _ _ hs).steady hst _
  | started =>
    refine ⟨.add ?_ (by simp [Gateway.made, hsettings]), .inl ⟨rfl, rfl⟩⟩
    exact congrArg (fun s : Settings => s.session.resizeQueueCapacity) hsettings
  | bound hb =>
    obtain ⟨sock, hc, hs⟩ := hb.greets
    have hseat := h.seats _ _ hb.seat
    rw [← hsettings] at hseat ⊢
    exact hseat.bound (h.frames _ _ hc hs) hb

theorem Stocked.deadline {time : Nat} (h : Stocked g past) (ho : Origin (g.run past) n e t)
    (hl : t.lifetime = .waiting time) : ∃ before, before <+: past ++ [e] ∧
      time = (g.run before).clock + 1000 * g.settings.session.bindTimeoutSecs := by
  have earlier {s : Seat} (hs : (g.run past).registry.seat? n = some s)
      (hw : s.lifetime = .waiting time) : ∃ before, before <+: past ++ [e] ∧
        time = (g.run before).clock + 1000 * g.settings.session.bindTimeoutSecs := by
    obtain ⟨before, hb, ht⟩ := h.deadlines n s time hs hw
    exact ⟨before, hb.trans (List.prefix_append past [e]), ht⟩
  cases ho with
  | kept hs hst => exact earlier hs (hst.deadline time hl)
  | started =>
    cases hl
    refine ⟨past, List.prefix_append past [_], ?_⟩
    rw [bindDeadline, h.settings]
  | bound hb =>
    obtain ⟨-, -, hsame, -⟩ := bind_seat _ _ (g.run past).connection
    exact earlier hb.seat (hsame.symm.trans hl)

theorem run_stocked (settings : Settings) (past : List Event) : Stocked { settings } past := by
  induction past using List.reverseRecOn with
  | nil =>
    refine ⟨rfl, ?_, ?_, ?_⟩
    · intro n s hs
      simp [Gateway.run, Registry.seat?] at hs
    · intro client sock hc
      simp [Gateway.run, socket?] at hc
    · intro n s time hs
      simp [Gateway.run, Registry.seat?] at hs
  | append_singleton past e ih =>
    refine ⟨?_, ?_, ?_, ?_⟩ <;> rw [run_snoc]
    · exact (step_settings _ e).trans ih.settings
    · intro n t ht
      exact ih.furnishes (step_origin ht)
    · intro client sock hc hs
      rw [stock_snoc]
      rcases greeting_origin hc hs with ⟨rfl, hnone⟩ | ⟨sock', hc', hs'⟩
      · exact List.mem_append_right _ (by simp [Gateway.made, hnone])
      · exact List.mem_append_left _ (ih.frames client sock' hc' hs')
    · intro n t time ht hl
      exact ih.deadline (step_origin ht) hl

theorem made_within (hs : Checked g.settings) (e : Event) :
    ∀ room ∈ g.made e, Within 4096 room := by
  have houtbound : Within 4096 Settings.outboundCapacity := ⟨by decide, by decide⟩
  cases e with
  | start => simpa [Gateway.made] using hs.sizes
  | connect client =>
    simp only [Gateway.made]
    split
    · simp
    · simpa using houtbound
  | read client =>
    simp only [Gateway.made]
    split
    · simpa using hs.keys
    · simp
  | follow | frame | cut | write | attend | act | attempt | close | pass | shutdown =>
    simp [Gateway.made]

theorem stock_within (hs : Checked g.settings) (events : List Event) :
    ∀ room ∈ stock g events, Within 4096 room := by
  induction events generalizing g with
  | nil => simp [stock, along]
  | cons e rest ih =>
    intro room hroom
    rcases List.mem_append.mp hroom with hnow | hlater
    · exact made_within hs e room hnow
    · exact ih (by rwa [step_settings]) room hlater

theorem run_works (h : ∀ room ∈ stock g events, 0 < room) :
    g.run? events = some (g.run events) := by
  induction events generalizing g with
  | nil => rfl
  | cons e rest ih =>
    have hnow : g.step? e = some (g.step e) := by
      rw [step?, if_pos]
      simpa using fun room hroom => h room (List.mem_append_left _ hroom)
    have hlater := ih (g := g.step e) fun room hroom => h room (List.mem_append_right _ hroom)
    rw [run?, List.foldlM_cons, hnow]
    exact hlater

/-- With nothing on the roster there is room on it, and no token is taken. -/
theorem start_admitted (h : 1 ≤ g.settings.session.maxSessions) (hempty : g.registry.size = 0)
    (token : String) (target : Exec.Target) (hint : Option String) :
    (g.start token target hint).1 = .ok () := by
  have hnone : g.registry.entry? token = none := by
    rw [Registry.entry?, List.eq_nil_of_length_eq_zero hempty]
    rfl
  rw [start_eq, if_neg (by omega), hnone]
  rfl

theorem of_settings_error (s : Settings) (f : Settings.Invalid) :
    ofSettings s = .error f ↔ s.fault? = some f := by
  unfold ofSettings
  cases s.fault? <;> simp

theorem of_settings_ok (s : Settings) (g : Gateway) :
    ofSettings s = .ok g ↔ s.fault? = none ∧ g = { settings := s } := by
  unfold ofSettings
  cases s.fault? <;> simp [eq_comm]

/-- A gateway is made of settings exactly if they pass the checks, and the checks report the first
thing that is wrong, in their order. Through every run of a gateway that was made, a queue is never
made without room or with room for more than 4096, so that no step breaks down; the queues of all
sessions and their clients are among these. A client is waited for as long as the settings say, for
a second at least and a day at most; a start is granted while the roster is empty; and the address
to serve at can be read. -/
theorem sound_settings_never_fail_late (s : Settings) :
    ((∃ g, ofSettings s = .ok g) ↔ s.fault? = none) ∧
    (∀ f, ofSettings s = .error f ↔ s.fault? = some f) ∧
    (s.fault? = none ↔ ∀ i f, ¬ Violates s i f) ∧
    (∀ f, s.fault? = some f ↔ ∃ i, Violates s i f ∧ ∀ j h, Violates s j h → i ≤ j) ∧
    ∀ g, ofSettings s = .ok g → ∀ events,
      let now := g.run events
      g.run? events = some now ∧
      (∀ room ∈ stock g events, 1 ≤ room ∧ room ≤ 4096) ∧
      (∀ n seat, now.registry.seat? n = some seat → Furnished s (stock g events) seat) ∧
      (1 ≤ s.session.bindTimeoutSecs ∧ s.session.bindTimeoutSecs ≤ 86400) ∧
      (∀ n seat time, now.registry.seat? n = some seat → seat.lifetime = .waiting time →
        ∃ before, before <+: events ∧
          time = (g.run before).clock + 1000 * s.session.bindTimeoutSecs) ∧
      (now.registry.size = 0 → ∀ token target hint, (now.start token target hint).1 = .ok ()) ∧
      ∃ address, Address.parse? s.server.listenAddr = some address ∧
        ∀ shift : Rehearsal.Shift, shift.house.gateway = now → shift.run =
          if address.isOwn then shift.serveAgain else (.error (.unbindable address), shift) := by
  refine ⟨?_, of_settings_error s, faultless_iff s, fault_iff s, ?_⟩
  · constructor
    · rintro ⟨g, hg⟩
      exact ((of_settings_ok s g).mp hg).1
    · intro hf
      exact ⟨_, (of_settings_ok s _).mpr ⟨hf, rfl⟩⟩
  intro g hg events now
  obtain ⟨hfault, rfl⟩ := (of_settings_ok s g).mp hg
  have hchecked := checked_of_faultless hfault
  have hstocked := run_stocked s events
  have hroom := stock_within (g := { settings := s }) hchecked events
  obtain ⟨address, haddress⟩ := hchecked.address
  refine ⟨run_works fun room hm => (hroom room hm).1, hroom, hstocked.seats, hchecked.timeout,
    hstocked.deadlines, fun hempty => start_admitted ?_ hempty, address, haddress, ?_⟩
  · rw [show now.settings = s from hstocked.settings]
    exact hchecked.sessions.1
  · intro shift hshift
    have htext : shift.house.gateway.settings.server.listenAddr = s.server.listenAddr := by
      rw [hshift, show now.settings = s from hstocked.settings]
    simp only [Rehearsal.Shift.run, htext, haddress]

example : ({} : Settings).fault? = none := by decide

/-- Settings that were not checked break a gateway down as late as at its first start. -/
example : (Gateway.run? { settings := { session := { resizeQueueCapacity := 0 } } }
    [.connect 1, .start "a" ⟨none, "n", "p", "c"⟩ none]).isNone = true := by decide

end PodConsole.Proofs.Furnishing
