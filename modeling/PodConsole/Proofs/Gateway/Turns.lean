import PodConsole.Gateway.Run
import PodConsole.Proofs.Session.Pushing
import PodConsole.Proofs.Session.Roster

namespace PodConsole.Proofs.Turns
open Gateway Session Pushing Roster

variable {g g' : Gateway} {client c n : Nat} {s s' : Socket} {r : Registry} {f : Frame}
  {token : String} {seat : Seat} {held : Held}

theorem socket_update (g : Gateway) (client c : Nat) (f : Socket → Socket) :
    (g.updateSocket client f).socket? c =
      if c = client then (g.socket? c).map f else g.socket? c := by
  have hk : (fun e : Nat × Socket => decide (e.1 = c)) ∘
      (fun e => if e.1 = client then (e.1, f e.2) else e) = fun e => decide (e.1 = c) := by
    funext e
    simp only [Function.comp]
    split <;> rfl
  simp only [socket?, updateSocket, List.find?_map, hk]
  cases h : g.sockets.find? (fun e => e.1 = c) with
  | none => simp
  | some e =>
    have he : e.1 = c := by simpa using List.find?_some h
    by_cases hc : c = client
    · simp [hc, he]
    · simp [hc, he]

theorem socket_append (g : Gateway) (client c : Nat) (s : Socket) :
    { g with sockets := g.sockets ++ [(client, s)] }.socket? c =
      (g.socket? c).or (if c = client then some s else none) := by
  simp only [socket?, List.find?_append, List.find?_singleton]
  cases g.sockets.find? (fun e => e.1 = c) with
  | some e => rfl
  | none =>
    by_cases hc : c = client
    · simp [hc]
    · simp [hc, Ne.symm hc]

theorem socket_connect (g : Gateway) (client c : Nat) :
    (g.connect client).socket? c =
      if c = client then some ((g.socket? c).getD {}) else g.socket? c := by
  unfold connect
  cases h : g.socket? client with
  | some s =>
    by_cases hc : c = client
    · simp [hc, h]
    · simp [hc]
  | none =>
    simp only [Option.isSome_none, Bool.false_eq_true, ↓reduceIte]
    rw [socket_append]
    by_cases hc : c = client
    · simp [hc, h]
    · simp [hc]

/-- What a turn has left: the sessions and the client's socket, with all else as it was. -/
structure After (g : Gateway) (client : Nat) (r : Registry) (s : Socket) (g' : Gateway) :
    Prop where
  registry : g'.registry = r
  socket : g'.socket? client = some s
  others : ∀ c, c ≠ client → g'.socket? c = g.socket? c
  settings : g'.settings = g.settings
  shutdown : g'.shutdown = g.shutdown

theorem After.refl (h : g.socket? client = some s) : After g client g.registry s g :=
  ⟨rfl, h, fun _ _ => rfl, rfl, rfl⟩

theorem After.trans {g'' : Gateway} {r' : Registry} (h : After g client r s g')
    (h' : After g' client r' s' g'') : After g client r' s' g'' where
  registry := h'.registry
  socket := h'.socket
  others c hc := (h'.others c hc).trans (h.others c hc)
  settings := h'.settings.trans h.settings
  shutdown := h'.shutdown.trans h.shutdown

theorem After.edit (h : After g client r s g') (f : Socket → Socket) :
    After g client r (f s) (g'.updateSocket client f) where
  registry := h.registry
  socket := by simp [socket_update, h.socket]
  others c hc := by simp [socket_update, hc, h.others c hc]
  settings := h.settings
  shutdown := h.shutdown

theorem After.sessions (h : After g client r s g') (r' : Registry) :
    After g client r' s { g' with registry := r' } :=
  ⟨rfl, h.socket, h.others, h.settings, h.shutdown⟩

theorem After.stage (h : After g client r s g') (stage : Stage) :
    After g client r { s with stage } (g'.setStage client stage) :=
  h.edit fun s => { s with stage }

/-- What a frame of an attached client asks to be handed over. -/
def routed? : Frame → Option Held
  | .text text =>
    match Wire.Command.parse text with
    | .ok (.stdin data) => some (.keys data)
    | .ok (.resize size) => some (.size size)
    | .ok (.bind _) | .error _ => none
  | .binary _ | .ping _ | .pong _ | .close | .ended | .broken => none

/-- A frame after which nothing is read. -/
def closing : Frame → Bool
  | .close | .ended | .broken => true
  | .text _ | .binary _ | .ping _ | .pong _ => false

/-- A socket answers pings by itself. -/
def answer (s : Socket) : Frame → Socket
  | .ping payload => s.emit (.pong payload)
  | _ => s

def cancelled (seat : Seat) : Seat :=
  seat.mapConnection Connection.cancel

structure Found (g : Gateway) (token : String) (n : Nat) (seat : Seat) : Prop where
  started : g.registry.started? token = some n
  seat : g.registry.seat? n = some seat

theorem Found.unique (h : Found g token n seat) {m : Nat} {t : Seat} (h' : Found g token m t) :
    m = n ∧ t = seat := by
  have hn := h'.started
  rw [h.started] at hn
  cases hn
  have hs := h'.seat
  rw [h.seat] at hs
  cases hs
  exact ⟨rfl, rfl⟩

/-- To touch a connection never ends a session. -/
theorem update_connection (h : g.registry.seat? n = some seat) (f : Connection → Connection) :
    g.updateSeat n (fun s => s.mapConnection f) =
      { g with registry := g.registry.setSeat n (seat.mapConnection f) } := by
  unfold updateSeat
  rw [update_on h (fun ho => ho)]

theorem After.detach (h : After g client g.registry s g') (hf : Found g token n seat) :
    After g client (g.registry.setSeat n (cancelled seat)) { s with stage := .draining token }
      (g'.detach client n token) := by
  have hs : g'.registry.seat? n = some seat := h.registry ▸ hf.seat
  have hd : g'.detach client n token =
      { g' with registry := g.registry.setSeat n (cancelled seat) }.setStage client
        (.draining token) := by
    unfold Gateway.detach
    rw [update_connection hs, h.registry]
    rfl
  rw [hd]
  exact (h.sessions _).stage _

/-- What becomes of something to hand over. -/
inductive Handed (g : Gateway) (s : Socket) (token : String) (n : Nat) (seat : Seat)
    (held : Held) : Registry → Socket → Prop
  | sent : (push seat held).1 = .sent → Handed g s token n seat held
      (g.registry.setSeat n (push seat held).2) { s with stage := .attached token none }
  | full : (push seat held).1 = .full →
      Handed g s token n seat held g.registry { s with stage := .attached token (some held) }
  | closed : (push seat held).1 = .closed → Handed g s token n seat held
      (g.registry.setSeat n (cancelled seat)) { s with stage := .draining token }

/-- What becomes of a frame after the session's queue was offered it. -/
def offered (g : Gateway) (client n : Nat) (token : String) (held : Held) : Offer → Gateway
  | .sent => g.setStage client (.attached token none)
  | .full => g.setStage client (.attached token (some held))
  | .closed => g.detach client n token

theorem hand_offered (hs : g.registry.seat? n = some seat) (held : Held) :
    g.hand client n token held =
      offered { g with registry := g.registry.setSeat n (push seat held).2 } client n token held
        (push seat held).1 := by
  unfold Gateway.hand
  simp only [hs]
  cases held <;> rfl

theorem After.hand (h : After g client g.registry s g') (hf : Found g token n seat)
    (held : Held) : ∃ r s', Handed g s token n seat held r s' ∧
      After g client r s' (g'.hand client n token held) := by
  have hs : g'.registry.seat? n = some seat := h.registry ▸ hf.seat
  rw [hand_offered hs held, h.registry]
  cases hc : (push seat held).1 with
  | sent => exact ⟨_, _, .sent hc, (h.sessions _).stage _⟩
  | full =>
    rw [push_unsent (by rw [hc]; exact nofun), set_seat_same hf.seat]
    exact ⟨_, _, .full hc, (h.sessions _).stage _⟩
  | closed =>
    rw [push_unsent (by rw [hc]; exact nofun), set_seat_same hf.seat]
    exact ⟨_, _, .closed hc, (h.sessions _).detach hf⟩

/-- What a reader that is attached to a session, and holds nothing, does with a frame. -/
inductive Routed (g : Gateway) (s : Socket) (token : String) (n : Nat) (seat : Seat) (f : Frame) :
    Registry → Socket → Prop
  | skipped : routed? f = none → closing f = false →
      Routed g s token n seat f g.registry (answer s f)
  | handed {held : Held} {r : Registry} {s' : Socket} : routed? f = some held →
      Handed g s token n seat held r s' → Routed g s token n seat f r s'
  | left : closing f = true → Routed g s token n seat f
      (g.registry.setSeat n (cancelled seat)) { s with stage := .draining token }

theorem After.route (h : After g client g.registry s g') (hf : Found g token n seat) (f : Frame) :
    ∃ r s', Routed g s token n seat f r s' ∧ After g client r s' (g'.route client n token f) := by
  have skip (hr : routed? f = none) (hc : closing f = false) {g'' : Gateway}
      (ha : After g client g.registry (answer s f) g'') :
      ∃ r s', Routed g s token n seat f r s' ∧ After g client r s' g'' :=
    ⟨_, _, .skipped hr hc, ha⟩
  cases f with
  | text text =>
    simp only [Gateway.route]
    split
    · rename_i data hp
      obtain ⟨r, s', hh, ha⟩ := h.hand hf (.keys data)
      exact ⟨r, s', .handed (by simp [routed?, hp]) hh, ha⟩
    · rename_i size hp
      obtain ⟨r, s', hh, ha⟩ := h.hand hf (.size size)
      exact ⟨r, s', .handed (by simp [routed?, hp]) hh, ha⟩
    · rename_i hp
      exact skip (by simp [routed?, hp]) rfl h
    · rename_i hp
      exact skip (by simp [routed?, hp]) rfl h
  | binary bytes => exact skip rfl rfl h
  | pong payload => exact skip rfl rfl h
  | ping payload => exact skip rfl rfl (h.edit fun s => s.emit (.pong payload))
  | close => exact ⟨_, _, .left rfl, h.detach hf⟩
  | ended => exact ⟨_, _, .left rfl, h.detach hf⟩
  | broken => exact ⟨_, _, .left rfl, h.detach hf⟩

def boundNotice : Sent :=
  .text (Wire.Envelope.toast boundElsewhere).write

/-- What the first text of a socket leads to. -/
inductive Greeted (g : Gateway) (client : Nat) (s : Socket) (text : String) :
    Registry → Socket → Prop
  | stranger : (∀ token, Wire.Command.parse text ≠ .ok (.bind token)) →
      Greeted g client s text g.registry s.finish
  | unknown {token : String} : Wire.Command.parse text = .ok (.bind token) →
      g.registry.get? token = none → Greeted g client s text g.registry s.finish
  | bound {token : String} {n : Nat} {seat : Seat} :
      Wire.Command.parse text = .ok (.bind token) → g.registry.get? token = some (n, seat) →
      (seat.bind client g.connection).1 = .ok () →
      Greeted g client s text (g.registry.setSeat n (seat.bind client g.connection).2)
        { s with stage := .attached token none }
  | taken {token id : String} {n : Nat} {seat : Seat} :
      Wire.Command.parse text = .ok (.bind token) → g.registry.get? token = some (n, seat) →
      (seat.bind client g.connection).1 = .error (.alreadyBound id) →
      Greeted g client s text (g.registry.setSeat n (seat.bind client g.connection).2)
        (s.emit boundNotice).finish
  | refused {token : String} {n : Nat} {seat : Seat} {e : SessionError} :
      Wire.Command.parse text = .ok (.bind token) → g.registry.get? token = some (n, seat) →
      (seat.bind client g.connection).1 = .error e → (∀ id, e ≠ .alreadyBound id) →
      Greeted g client s text (g.registry.setSeat n (seat.bind client g.connection).2) s.finish

theorem After.greet (h : After g client g.registry s g') (text : String) :
    ∃ r s', Greeted g client s text r s' ∧ After g client r s' (g'.greet client text) := by
  have hc : g'.connection = g.connection := by simp [Gateway.connection, h.settings]
  unfold Gateway.greet
  split
  · rename_i id hp
    rw [h.registry, hc]
    split
    · rename_i hn
      exact ⟨_, _, .unknown hp hn, h.edit Socket.finish⟩
    · rename_i n seat hn
      dsimp only
      split
      · rename_i hb
        exact ⟨_, _, .bound hp hn hb, (h.sessions _).stage _⟩
      · rename_i hb
        exact ⟨_, _, .taken hp hn hb,
          (h.sessions _).edit fun s => (s.emit boundNotice).finish⟩
      · rename_i e ho hb
        exact ⟨_, _, .refused hp hn hb (fun id he => ho id he), (h.sessions _).edit Socket.finish⟩
  · rename_i hp
    exact ⟨_, _, .stranger hp, h.edit Socket.finish⟩

/-- All that a reader's turn can do. -/
inductive Reading (g : Gateway) (client : Nat) (s : Socket) : Registry → Socket → Prop
  | idle : s.inbox = [] → (∀ token held, s.stage ≠ .attached token (some held)) →
      Reading g client s g.registry s
  | done : (∃ token, s.stage = .draining token) ∨ s.stage = .over → Reading g client s g.registry s
  | lost {token : String} {held : Option Held} : s.stage = .attached token held →
      (∀ n seat, ¬ Found g token n seat) → Reading g client s g.registry s
  | closed : s.stage = .greeting ∨ s.stage = .listening → g.shutdown = true →
      Reading g client s g.registry s.finish
  | skip {f : Frame} {rest : List Frame} : s.stage = .greeting ∨ s.stage = .listening →
      g.shutdown = false → s.inbox = f :: rest → closing f = false →
      (∀ text, s.stage = .greeting → f ≠ .text text) →
      Reading g client s g.registry (answer { s with inbox := rest } f)
  | leave {f : Frame} {rest : List Frame} : s.stage = .greeting ∨ s.stage = .listening →
      g.shutdown = false → s.inbox = f :: rest → closing f = true →
      Reading g client s g.registry { s with inbox := rest }.finish
  | greet {text : String} {rest : List Frame} {r : Registry} {s' : Socket} : s.stage = .greeting →
      g.shutdown = false → s.inbox = .text text :: rest →
      Greeted g client { s with inbox := rest } text r s' → Reading g client s r s'
  | dropped {token : String} {held : Option Held} {n : Nat} {seat : Seat} :
      s.stage = .attached token held → Found g token n seat →
      seat.terminal.connection.cancelled = true →
      Reading g client s g.registry { s with stage := .draining token }
  | offered {token : String} {held : Held} {n : Nat} {seat : Seat} {r : Registry} {s' : Socket} :
      s.stage = .attached token (some held) → Found g token n seat →
      seat.terminal.connection.cancelled = false → Handed g s token n seat held r s' →
      Reading g client s r s'
  | shut {token : String} {n : Nat} {seat : Seat} : s.stage = .attached token none →
      Found g token n seat → seat.terminal.connection.cancelled = false → g.shutdown = true →
      Reading g client s (g.registry.setSeat n (cancelled seat)) { s with stage := .draining token }
  | routed {token : String} {n : Nat} {seat : Seat} {f : Frame} {rest : List Frame}
      {r : Registry} {s' : Socket} : s.stage = .attached token none → Found g token n seat →
      seat.terminal.connection.cancelled = false → g.shutdown = false → s.inbox = f :: rest →
      Routed g { s with inbox := rest } token n seat f r s' → Reading g client s r s'

/-- The socket once its reader has taken a frame. -/
theorem After.take (h : g.socket? client = some s) (rest : List Frame) :
    After g client g.registry { s with inbox := rest }
      (g.updateSocket client fun s => { s with inbox := rest }) :=
  (After.refl h).edit fun s => { s with inbox := rest }

theorem found_or_lost (g : Gateway) (token : String) :
    (∃ n seat, Found g token n seat) ∨ (∀ n seat, ¬ Found g token n seat) := by
  by_cases h : ∃ n seat, Found g token n seat
  · exact .inl h
  · exact .inr fun n seat hf => h ⟨n, seat, hf⟩

/-- A reader that waits for a session or for a log has nobody to hand a frame to. -/
theorem unattached_reading (h : g.socket? client = some s)
    (hs : s.stage = .greeting ∨ s.stage = .listening)
    (use : Gateway → Frame → Gateway)
    (hu : ∀ f rest, s.inbox = f :: rest → g.shutdown = false → ∃ r s', Reading g client s r s' ∧
      After g client r s' (use (g.updateSocket client fun s => { s with inbox := rest }) f)) :
    ∃ r s', Reading g client s r s' ∧ After g client r s'
      ((if g.shutdown then some (g.updateSocket client Socket.finish)
        else g.takeFrame client s use).getD g) := by
  cases hd : g.shutdown with
  | true => exact ⟨_, _, .closed hs hd, (After.refl h).edit Socket.finish⟩
  | false =>
    cases hi : s.inbox with
    | nil =>
      simp only [Bool.false_eq_true, ↓reduceIte, takeFrame, hi, Option.getD_none]
      refine ⟨_, _, .idle hi fun token held ha => ?_, .refl h⟩
      rcases hs with hs | hs <;> rw [hs] at ha <;> cases ha
    | cons f rest =>
      simp only [Bool.false_eq_true, ↓reduceIte, takeFrame, hi, Option.getD_some]
      exact hu f rest hi hd

theorem greeting_reading (h : g.socket? client = some s) (hs : s.stage = .greeting) {f : Frame}
    {rest : List Frame} (hi : s.inbox = f :: rest) (hd : g.shutdown = false) :
    ∃ r s', Reading g client s r s' ∧ After g client r s'
      ((g.updateSocket client fun s => { s with inbox := rest }).greetFrame client f) := by
  have ht := After.take h rest
  cases f with
  | text text =>
    obtain ⟨r, s', hg, ha⟩ := ht.greet text
    exact ⟨r, s', .greet hs hd hi hg, ha⟩
  | binary bytes => exact ⟨_, _, .skip (.inl hs) hd hi rfl (by simp), ht⟩
  | pong payload => exact ⟨_, _, .skip (.inl hs) hd hi rfl (by simp), ht⟩
  | ping payload =>
    exact ⟨_, _, .skip (.inl hs) hd hi rfl (by simp), ht.edit fun s => s.emit (.pong payload)⟩
  | close => exact ⟨_, _, .leave (.inl hs) hd hi rfl, ht.edit Socket.finish⟩
  | ended => exact ⟨_, _, .leave (.inl hs) hd hi rfl, ht.edit Socket.finish⟩
  | broken => exact ⟨_, _, .leave (.inl hs) hd hi rfl, ht.edit Socket.finish⟩

theorem listening_reading (h : g.socket? client = some s) (hs : s.stage = .listening) {f : Frame}
    {rest : List Frame} (hi : s.inbox = f :: rest) (hd : g.shutdown = false) :
    ∃ r s', Reading g client s r s' ∧ After g client r s'
      ((g.updateSocket client fun s => { s with inbox := rest }).listenFrame client f) := by
  have ht := After.take h rest
  cases f with
  | text text => exact ⟨_, _, .skip (.inr hs) hd hi rfl (by simp [hs]), ht⟩
  | binary bytes => exact ⟨_, _, .skip (.inr hs) hd hi rfl (by simp), ht⟩
  | pong payload => exact ⟨_, _, .skip (.inr hs) hd hi rfl (by simp), ht⟩
  | ping payload =>
    exact ⟨_, _, .skip (.inr hs) hd hi rfl (by simp), ht.edit fun s => s.emit (.pong payload)⟩
  | close => exact ⟨_, _, .leave (.inr hs) hd hi rfl, ht.edit Socket.finish⟩
  | ended => exact ⟨_, _, .leave (.inr hs) hd hi rfl, ht.edit Socket.finish⟩
  | broken => exact ⟨_, _, .leave (.inr hs) hd hi rfl, ht.edit Socket.finish⟩

/-- Something that waited for room and still has none stays where it is. -/
theorem Handed.stay (hs : s.stage = .attached token (some held))
    (hc : (push seat held).1 = .full) : Handed g s token n seat held g.registry s := by
  have h : Handed g s token n seat held g.registry
      { s with stage := .attached token (some held) } :=
    .full hc
  rwa [← hs] at h

theorem held_read (h : g.socket? client = some s) (hs : s.stage = .attached token (some held))
    (hf : Found g token n seat) (hc : seat.terminal.connection.cancelled = false) :
    g.read? client =
      if (push seat held).1 = .full then none else some (g.hand client n token held) := by
  simp only [read?, h, hs, hf.started, hf.seat, hc, Option.bind_eq_bind, Option.bind_some,
    Bool.false_eq_true, if_false]
  cases held <;> rfl

theorem attached_reading (h : g.socket? client = some s) {held? : Option Held}
    (hs : s.stage = .attached token held?) :
    ∃ r s', Reading g client s r s' ∧ After g client r s' (g.step (.read client)) := by
  rcases found_or_lost g token with ⟨n, seat, hf⟩ | hl
  · cases hc : seat.terminal.connection.cancelled with
    | true =>
      have hr : g.step (.read client) = g.setStage client (.draining token) := by
        simp [Gateway.step, read?, h, hs, hf.started, hf.seat, hc]
      rw [hr]
      exact ⟨_, _, .dropped hs hf hc, (After.refl h).stage _⟩
    | false =>
      cases held? with
      | some held =>
        cases ho : (push seat held).1 with
        | full =>
          -- the reader waits, and holds what it held
          have hr : g.step (.read client) = g := by
            simp [Gateway.step, held_read h hs hf hc, ho]
          rw [hr]
          exact ⟨_, _, .offered hs hf hc (.stay hs ho), .refl h⟩
        | sent | closed =>
          have hr : g.step (.read client) = g.hand client n token held := by
            simp [Gateway.step, held_read h hs hf hc, ho]
          obtain ⟨r, s', hh, ha⟩ := (After.refl h).hand hf held
          rw [hr]
          exact ⟨r, s', .offered hs hf hc hh, ha⟩
      | none =>
        cases hd : g.shutdown with
        | true =>
          have hr : g.step (.read client) = g.detach client n token := by
            simp [Gateway.step, read?, h, hs, hf.started, hf.seat, hc, hd]
          rw [hr]
          exact ⟨_, _, .shut hs hf hc hd, (After.refl h).detach hf⟩
        | false =>
          cases hi : s.inbox with
          | nil =>
            have hr : g.step (.read client) = g := by
              simp [Gateway.step, read?, h, hs, hf.started, hf.seat, hc, hd, takeFrame, hi]
            rw [hr]
            exact ⟨_, _, .idle hi (by simp [hs]), .refl h⟩
          | cons f rest =>
            have hr : g.step (.read client) =
                (g.updateSocket client fun s => { s with inbox := rest }).route client n token
                  f := by
              simp [Gateway.step, read?, h, hs, hf.started, hf.seat, hc, hd, takeFrame, hi]
            obtain ⟨r, s', hr', ha⟩ := (After.take h rest).route hf f
            rw [hr]
            exact ⟨r, s', .routed hs hf hc hd hi hr', ha⟩
  · have hr : g.step (.read client) = g := by
      cases hn : g.registry.started? token with
      | none => simp [Gateway.step, read?, h, hs, hn]
      | some n =>
        cases hseat : g.registry.seat? n with
        | none => simp [Gateway.step, read?, h, hs, hn, hseat]
        | some seat => exact (hl n seat ⟨hn, hseat⟩).elim
    rw [hr]
    exact ⟨_, _, .lost hs hl, .refl h⟩

theorem read_reading (h : g.socket? client = some s) :
    ∃ r s', Reading g client s r s' ∧ After g client r s' (g.step (.read client)) := by
  cases hs : s.stage with
  | greeting =>
    simp only [Gateway.step, read?, h, Option.bind_eq_bind, Option.bind_some, hs]
    exact unattached_reading h (.inl hs) _ fun f rest hi hd => greeting_reading h hs hi hd
  | listening =>
    simp only [Gateway.step, read?, h, Option.bind_eq_bind, Option.bind_some, hs]
    exact unattached_reading h (.inr hs) _ fun f rest hi hd => listening_reading h hs hi hd
  | attached token held => exact attached_reading h hs
  | draining token =>
    simp only [Gateway.step, read?, h, Option.bind_eq_bind, Option.bind_some, hs, Option.getD_none]
    exact ⟨_, _, .done (.inl ⟨token, hs⟩), .refl h⟩
  | «over» =>
    simp only [Gateway.step, read?, h, Option.bind_eq_bind, Option.bind_some, hs, Option.getD_none]
    exact ⟨_, _, .done (.inr hs), .refl h⟩

/-- The session that a socket's client is, or was, attached to. -/
def Speaks (s : Socket) (token : String) : Prop :=
  (∃ held, s.stage = .attached token held) ∨ s.stage = .draining token

/-- What the writer's turn can do. -/
inductive Writing (g : Gateway) (s : Socket) : Registry → Socket → Prop
  | wait : Writing g s g.registry s
  | cut {token : String} {n : Nat} {seat : Seat} : Speaks s token → Found g token n seat →
      Writing g s (g.registry.setSeat n (seat.mapConnection Connection.stopWriting))
        { s with stage := .over }
  | said {token : String} {n : Nat} {seat : Seat} {frame : Wire.Envelope}
      {rest : List Wire.Envelope} : Speaks s token → Found g token n seat →
      seat.terminal.connection.outbound.items = frame :: rest →
      Writing g s (g.registry.setSeat n (seat.mapConnection fun c =>
          { c with outbound := { seat.terminal.connection.outbound with items := rest } }))
        (s.emit (.text frame.write))
  | ended {token : String} {n : Nat} {seat : Seat} : Speaks s token → Found g token n seat →
      seat.terminal.connection.outbound.sending = false →
      Writing g s (g.registry.setSeat n (cancelled seat)) s.finish

theorem After.touch (h : After g client g.registry s g') (hf : Found g token n seat)
    (f : Connection → Connection) :
    After g client (g.registry.setSeat n (seat.mapConnection f)) s
      (g'.updateSeat n fun s => s.mapConnection f) := by
  rw [update_connection (h.registry ▸ hf.seat) f, h.registry]
  exact h.sessions _

/-- What the writer of a socket does with what was polled for its client. -/
def polled (g : Gateway) (client n : Nat) (gone : Bool) (outbound : Queue Wire.Envelope) :
    Poll Wire.Envelope → Option Gateway
  | .pending => none
  | .item frame => some <|
    if gone then
      (g.updateSeat n fun s => s.mapConnection Connection.stopWriting).setStage client .over
    else (g.updateSeat n fun s => s.mapConnection fun c => { c with outbound }).updateSocket
      client fun s => s.emit (.text frame.write)
  | .ended => some <|
    (g.updateSeat n fun s => s.mapConnection Connection.cancel).updateSocket client Socket.finish

/-- Attached or draining, the writer does the same. -/
theorem write_polled (h : g.socket? client = some s) (hs : Speaks s token)
    (hf : Found g token n seat) :
    g.write? client = polled g client n s.gone seat.terminal.connection.outbound.poll.2
      seat.terminal.connection.outbound.poll.1 := by
  rcases hs with ⟨held, hs⟩ | hs
  all_goals
    simp only [write?, h, hs, hf.started, hf.seat, Option.bind_eq_bind, Option.bind_some]
    generalize seat.terminal.connection.outbound.poll = after
    obtain ⟨found, outbound⟩ := after
    cases found with
    | item frame => cases s.gone <;> rfl
    | pending | ended => rfl

theorem speaking_writing (h : g.socket? client = some s) (hs : Speaks s token)
    (hf : Found g token n seat) :
    ∃ r s', Writing g s r s' ∧ After g client r s' (g.step (.write client)) := by
  have turn := write_polled h hs hf
  cases hi : seat.terminal.connection.outbound.items with
  | cons frame rest =>
    cases hg : s.gone with
    | true =>
      have hw : g.step (.write client) =
          (g.updateSeat n fun s => s.mapConnection Connection.stopWriting).setStage client
            .over := by
        simp [Gateway.step, turn, polled, Queue.poll, hi, hg]
      rw [hw]
      exact ⟨_, _, .cut hs hf, ((After.refl h).touch hf _).stage _⟩
    | false =>
      have hw : g.step (.write client) =
          (g.updateSeat n fun s => s.mapConnection fun c =>
            { c with outbound := { seat.terminal.connection.outbound with items := rest } }
          ).updateSocket client fun s => s.emit (.text frame.write) := by
        simp [Gateway.step, turn, polled, Queue.poll, hi, hg]
      rw [hw]
      exact ⟨_, _, .said hs hf hi,
        ((After.refl h).touch hf _).edit fun s => s.emit (.text frame.write)⟩
  | nil =>
    cases hq : seat.terminal.connection.outbound.sending with
    | true =>
      have hw : g.step (.write client) = g := by
        simp [Gateway.step, turn, polled, Queue.poll, hi, hq]
      rw [hw]
      exact ⟨_, _, .wait, .refl h⟩
    | false =>
      have hw : g.step (.write client) =
          (g.updateSeat n fun s => s.mapConnection Connection.cancel).updateSocket client
            Socket.finish := by
        simp [Gateway.step, turn, polled, Queue.poll, hi, hq]
      rw [hw]
      exact ⟨_, _, .ended hs hf hq, ((After.refl h).touch hf _).edit Socket.finish⟩

theorem write_writing (h : g.socket? client = some s) :
    ∃ r s', Writing g s r s' ∧ After g client r s' (g.step (.write client)) := by
  by_cases hs : ∃ token, Speaks s token
  · obtain ⟨token, hs⟩ := hs
    rcases found_or_lost g token with ⟨n, seat, hf⟩ | hl
    · exact speaking_writing h hs hf
    · have hw : g.step (.write client) = g := by
        rcases hs with ⟨held, hs⟩ | hs
        all_goals
          cases hn : g.registry.started? token with
          | none => simp [Gateway.step, write?, h, hs, hn]
          | some n =>
            cases hseat : g.registry.seat? n with
            | none => simp [Gateway.step, write?, h, hs, hn, hseat]
            | some seat => exact (hl n seat ⟨hn, hseat⟩).elim
      rw [hw]
      exact ⟨_, _, .wait, .refl h⟩
  · have hw : g.step (.write client) = g := by
      cases hst : s.stage with
      | attached token held => exact (hs ⟨token, .inl ⟨held, hst⟩⟩).elim
      | draining token => exact (hs ⟨token, .inr hst⟩).elim
      | greeting | listening | «over» => simp [Gateway.step, write?, h, hst]
    rw [hw]
    exact ⟨_, _, .wait, .refl h⟩

end PodConsole.Proofs.Turns
