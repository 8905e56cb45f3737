import PodConsole.Proofs.Gateway.Sparing

namespace PodConsole.Proofs.Sameness
open Gateway Session Pushing Roster Seats Turns Changes Listing Speakers Sparing

variable {g g' : Gateway} {e : Event} {client n n' : Nat} {s t : Seat} {sock : Socket}
  {token : String} {limit limit' : Nat}

structure Same (token : String) (client : Nat) (g g' : Gateway) : Prop where
  settings : g'.settings = g.settings
  shutdown : g'.shutdown = g.shutdown
  seat : seatOf g'.registry token = seatOf g.registry token
  socket : g'.socket? client = g.socket? client

theorem Same.found (h : Same token client g g') (hf : Found g token n s) :
    ∃ n', Found g' token n' s :=
  found_of_seat (h.seat.trans (seat_of_found hf))

theorem Same.edit (h : Same token client g g') (f : Socket → Socket) :
    Same token client (g.updateSocket client f) (g'.updateSocket client f) := by
  refine ⟨h.settings, h.shutdown, h.seat, ?_⟩
  rw [socket_update, socket_update, if_pos rfl, if_pos rfl, h.socket]

theorem Same.stage (h : Same token client g g') (stage : Stage) :
    Same token client (g.setStage client stage) (g'.setStage client stage) :=
  h.edit fun s => { s with stage }

theorem found_set (hf : Found g token n s) (ht : t.session.id = token) :
    Found { g with registry := g.registry.setSeat n t } token n t := by
  refine ⟨?_, seat_set_self hf.seat t⟩
  obtain ⟨hn, hid, hfirst⟩ := List.findIdx?_eq_some_iff_getElem.mp hf.started
  refine List.findIdx?_eq_some_iff_getElem.mpr ⟨by simpa [Registry.setSeat] using hn, ?_, ?_⟩
  · simpa [Registry.setSeat] using ht
  · intro j hj
    simpa [Registry.setSeat, List.getElem_set, Nat.ne_of_gt hj] using hfirst j hj

theorem found_id (hf : Found g token n s) : s.session.id = token :=
  seat_of_id (seat_of_found hf)

theorem Same.place (h : Same token client g g') (hf : Found g token n s) (hf' : Found g' token n' s)
    (ht : t.session.id = token) : Same token client
      { g with registry := g.registry.setSeat n t }
      { g' with registry := g'.registry.setSeat n' t } := by
  refine ⟨h.settings, h.shutdown, ?_, h.socket⟩
  exact (seat_of_found (found_set hf' ht)).trans (seat_of_found (found_set hf ht)).symm

theorem Same.touch (h : Same token client g g') (hf : Found g token n s) (hf' : Found g' token n' s)
    (f : Connection → Connection) : Same token client
      (g.updateSeat n fun s => s.mapConnection f) (g'.updateSeat n' fun s => s.mapConnection f) := by
  have hid : s.session.id = token := found_id hf
  rw [update_connection hf.seat, update_connection hf'.seat]
  exact h.place hf hf' hid

theorem Same.detach (h : Same token client g g') (hf : Found g token n s)
    (hf' : Found g' token n' s) (other : String) :
    Same token client (g.detach client n other) (g'.detach client n' other) :=
  (h.touch hf hf' Connection.cancel).stage _

theorem Same.hand (h : Same token client g g') (hf : Found g token n s) (hf' : Found g' token n' s)
    (held : Held) : Same token client (g.hand client n token held)
      (g'.hand client n' token held) := by
  have hid : (push s held).2.session.id = token := (push_keeps s held).token.trans (found_id hf)
  have hp := h.place hf hf' hid
  rw [hand_offered hf.seat, hand_offered hf'.seat]
  cases (push s held).1 with
  | sent | full => exact hp.stage _
  | closed => exact hp.detach (found_set hf hid) (found_set hf' hid) token

theorem Same.route (h : Same token client g g') (hf : Found g token n s)
    (hf' : Found g' token n' s) (f : Frame) :
    Same token client (g.route client n token f) (g'.route client n' token f) := by
  cases f with
  | text text =>
    simp only [Gateway.route]
    split
    · exact h.hand hf hf' _
    · exact h.hand hf hf' _
    · exact h
    · exact h
  | binary | pong => exact h
  | ping payload => exact h.edit fun s => s.emit (.pong payload)
  | close | ended | broken => exact h.detach hf hf' token

/-- A session that is open is found by its token. -/
theorem get_found (h : Listed limit g.registry) : g.registry.get? token = some (n, s) ↔
    Found g token n s ∧ s.session.isClosed = false := by
  rw [get_iff, h.entry, found_iff h.unique]
  constructor
  · rintro ⟨⟨u, hu, hid, -⟩, hs, hc⟩
    rw [hs] at hu
    cases hu
    exact ⟨⟨hs, hid⟩, hc⟩
  · rintro ⟨⟨hs, hid⟩, hc⟩
    exact ⟨⟨s, hs, hid, hc⟩, hs, hc⟩

theorem get_seat_of (h : Listed limit g.registry) : (g.registry.get? token).map (·.2) =
    (seatOf g.registry token).filter fun s => !s.session.isClosed := by
  refine Option.ext fun s => ?_
  simp only [Option.map_eq_some_iff, Prod.exists, exists_eq_right, get_found h,
    Option.filter_eq_some_iff, Bool.not_eq_true']
  constructor
  · rintro ⟨n, hf, hc⟩
    exact ⟨seat_of_found hf, hc⟩
  · rintro ⟨hs, hc⟩
    obtain ⟨n, hf⟩ := found_of_seat hs
    exact ⟨n, hf, hc⟩

theorem Same.get (h : Same token client g g') (hl : Listed limit g.registry)
    (hl' : Listed limit' g'.registry) :
    (g.registry.get? token = none ∧ g'.registry.get? token = none) ∨
    ∃ n n' s, g.registry.get? token = some (n, s) ∧ g'.registry.get? token = some (n', s) ∧
      Found g token n s ∧ Found g' token n' s := by
  have hsame : (g'.registry.get? token).map (·.2) = (g.registry.get? token).map (·.2) := by
    rw [get_seat_of hl, get_seat_of hl', h.seat]
  cases hg : g.registry.get? token with
  | none =>
    rw [hg] at hsame
    exact .inl ⟨rfl, by simpa using hsame⟩
  | some found =>
    obtain ⟨n, s⟩ := found
    rw [hg] at hsame
    obtain ⟨⟨n', s'⟩, hg', rfl⟩ := Option.map_eq_some_iff.mp hsame
    exact .inr ⟨n, n', s', rfl, hg', ((get_found hl).mp hg).1, ((get_found hl').mp hg').1⟩

theorem Same.greet (h : Same token client g g') (hl : Listed limit g.registry)
    (hl' : Listed limit' g'.registry) {text : String}
    (hid : ∀ other, Wire.Command.parse text = .ok (.bind other) → other = token) :
    Same token client (g.greet client text) (g'.greet client text) := by
  have hc : g'.connection = g.connection := by simp [Gateway.connection, h.settings]
  unfold Gateway.greet
  split
  · rename_i other hp
    obtain rfl := hid other hp
    rcases h.get hl hl' with ⟨hn, hn'⟩ | ⟨n, n', s, hn, hn', hf, hf'⟩
    · rw [hn, hn']
      exact h.edit Socket.finish
    · rw [hn, hn', hc]
      have hp := h.place hf hf' ((bind_keeps s client g.connection).token.trans (found_id hf))
      dsimp only
      split
      · exact hp.stage _
      · exact hp.edit fun s => (s.emit boundNotice).finish
      · exact hp.edit Socket.finish
  · exact h.edit Socket.finish

theorem Same.listenFrame (h : Same token client g g') (f : Frame) :
    Same token client (g.listenFrame client f) (g'.listenFrame client f) := by
  cases f with
  | text | binary | pong => exact h
  | ping payload => exact h.edit fun s => s.emit (.pong payload)
  | close | ended | broken => exact h.edit Socket.finish

theorem Same.greetFrame (h : Same token client g g') (hl : Listed limit g.registry)
    (hl' : Listed limit' g'.registry) {f : Frame}
    (hid : ∀ text other, f = .text text → Wire.Command.parse text = .ok (.bind other) →
      other = token) :
    Same token client (g.greetFrame client f) (g'.greetFrame client f) := by
  cases f with
  | text text => exact h.greet hl hl' fun other hp => hid text other rfl hp
  | binary | pong => exact h
  | ping payload => exact h.edit fun s => s.emit (.pong payload)
  | close | ended | broken => exact h.edit Socket.finish

theorem Same.takeFrame (h : Same token client g g') {use use' : Gateway → Frame → Gateway}
    (hu : ∀ f rest, sock.inbox = f :: rest → Same token client
      (use (g.updateSocket client fun s => { s with inbox := rest }) f)
      (use' (g'.updateSocket client fun s => { s with inbox := rest }) f)) :
    Same token client ((g.takeFrame client sock use).getD g)
      ((g'.takeFrame client sock use').getD g') := by
  unfold Gateway.takeFrame
  split
  · exact h
  · rename_i f rest hi
    exact hu f rest hi

/-- A turn of a reader that either shuts down or takes a frame. -/
theorem Same.turn (h : Same token client g g') {shut shut' : Gateway}
    {use use' : Gateway → Frame → Gateway} (hs : Same token client shut shut')
    (hu : g.shutdown = false → ∀ f rest, sock.inbox = f :: rest → Same token client
      (use (g.updateSocket client fun s => { s with inbox := rest }) f)
      (use' (g'.updateSocket client fun s => { s with inbox := rest }) f)) :
    Same token client
      ((if g.shutdown then some shut else g.takeFrame client sock use).getD g)
      ((if g'.shutdown then some shut' else g'.takeFrame client sock use').getD g') := by
  rw [h.shutdown]
  cases hd : g.shutdown with
  | true => exact hs
  | false => exact h.takeFrame (hu hd)

theorem Same.attached (h : Same token client g g') (hc : g.socket? client = some sock)
    {held : Option Held} (hs : sock.stage = .attached token held) (hf : Found g token n s) :
    Same token client (g.step (.read client)) (g'.step (.read client)) := by
  have hc' : g'.socket? client = some sock := h.socket.trans hc
  obtain ⟨n', hf'⟩ := h.found hf
  cases hcan : s.terminal.connection.cancelled with
  | true =>
    simp only [Gateway.step, read?, hc, hc', hs, hf.started, hf'.started, hf.seat, hf'.seat, hcan,
      Option.bind_eq_bind, Option.bind_some, if_true, Option.getD_some]
    exact h.stage _
  | false =>
    cases held with
    | some held =>
      rw [Gateway.step, Gateway.step, held_read hc hs hf hcan, held_read hc' hs hf' hcan]
      split
      · exact h
      · exact h.hand hf hf' held
    | none =>
      simp only [Gateway.step, read?, hc, hc', hs, hf.started, hf'.started, hf.seat, hf'.seat,
        hcan, Option.bind_eq_bind, Option.bind_some, Bool.false_eq_true, if_false]
      refine h.turn (h.detach hf hf' token) fun _ f rest _ => ?_
      exact (h.edit _).route ⟨hf.started, hf.seat⟩ ⟨hf'.started, hf'.seat⟩ f

/-- A socket that is nobody's but a session's own, and speaks for none that is not there. -/
structure Devoted (token : String) (g : Gateway) (sock : Socket) : Prop where
  only : ∀ other, Speaks sock other → other = token
  found : Speaks sock token → ∃ n s, Found g token n s

theorem Same.read (h : Same token client g g') (hl : Listed limit g.registry)
    (hl' : Listed limit' g'.registry)
    (hd : ∀ sock, g.socket? client = some sock → Devoted token g sock ∧
      ∀ other, asks g.shutdown sock = some other → other = token) :
    Same token client (g.step (.read client)) (g'.step (.read client)) := by
  cases hc : g.socket? client with
  | none =>
    have hc' : g'.socket? client = none := h.socket.trans hc
    simpa [Gateway.step, read?, hc, hc'] using h
  | some sock =>
    have hc' : g'.socket? client = some sock := h.socket.trans hc
    obtain ⟨hown, hasks⟩ := hd sock hc
    cases hs : sock.stage with
    | attached other held =>
      have hspeaks : Speaks sock other := .inl ⟨held, hs⟩
      obtain rfl := hown.only other hspeaks
      obtain ⟨n, s, hf⟩ := hown.found hspeaks
      exact h.attached hc hs hf
    | greeting =>
      simp only [Gateway.step, read?, hc, hc', hs, Option.bind_eq_bind, Option.bind_some]
      refine h.turn (h.edit Socket.finish) fun hon f rest hi => (h.edit _).greetFrame hl hl' ?_
      rintro text other rfl hp
      refine hasks other ?_
      rw [hon]
      exact asks_bind hs hi hp
    | listening =>
      simp only [Gateway.step, read?, hc, hc', hs, Option.bind_eq_bind, Option.bind_some]
      exact h.turn (h.edit Socket.finish) fun _ f rest _ => (h.edit _).listenFrame f
    | draining | «over» =>
      simpa [Gateway.step, read?, hc, hc', hs] using h

theorem Same.polled (h : Same token client g g') (hf : Found g token n s)
    (hf' : Found g' token n' s) (gone : Bool) (outbound : Queue Wire.Envelope)
    (found : Poll Wire.Envelope) : Same token client
      ((polled g client n gone outbound found).getD g)
      ((polled g' client n' gone outbound found).getD g') := by
  cases found with
  | pending => exact h
  | item frame =>
    cases gone with
    | true => exact (h.touch hf hf' Connection.stopWriting).stage .over
    | false => exact (h.touch hf hf' _).edit fun s => s.emit (.text frame.write)
  | ended => exact (h.touch hf hf' Connection.cancel).edit Socket.finish

theorem Same.write (h : Same token client g g')
    (hd : ∀ sock, g.socket? client = some sock → Devoted token g sock) :
    Same token client (g.step (.write client)) (g'.step (.write client)) := by
  cases hc : g.socket? client with
  | none =>
    have hc' : g'.socket? client = none := h.socket.trans hc
    simpa [Gateway.step, write?, hc, hc'] using h
  | some sock =>
    have hc' : g'.socket? client = some sock := h.socket.trans hc
    have spoken {other : String} (hspeaks : Speaks sock other) :
        Same token client (g.step (.write client)) (g'.step (.write client)) := by
      obtain rfl := (hd sock hc).only other hspeaks
      obtain ⟨n, s, hf⟩ := (hd sock hc).found hspeaks
      obtain ⟨n', hf'⟩ := h.found hf
      rw [Gateway.step, Gateway.step, write_polled hc hspeaks hf, write_polled hc' hspeaks hf']
      exact h.polled hf hf' _ _ _
    cases hs : sock.stage with
    | attached other held => exact spoken (.inl ⟨held, hs⟩)
    | draining other => exact spoken (.inr hs)
    | greeting | listening | «over» => simpa [Gateway.step, write?, hc, hc', hs] using h

/-- A socket that is new to both. -/
theorem Same.opened (h : Same token client g g') (sock : Socket) : Same token client
    { g with sockets := g.sockets ++ [(client, sock)] }
    { g' with sockets := g'.sockets ++ [(client, sock)] } := by
  refine ⟨h.settings, h.shutdown, h.seat, ?_⟩
  rw [socket_append, socket_append, h.socket]

/-- A step of the client does the same in both. -/
theorem Same.step (h : Same token client g g') (hl : Listed limit g.registry)
    (hl' : Listed limit' g'.registry) (he : client? e = some client)
    (hd : ∀ sock, g.socket? client = some sock → Devoted token g sock)
    (ha : e = .read client → ∀ sock other, g.socket? client = some sock →
      asks g.shutdown sock = some other → other = token) :
    Same token client (g.step e) (g'.step e) := by
  cases e with
  | start | attend | act | attempt | close | pass | shutdown => cases he
  | connect c =>
    cases he
    simp only [Gateway.step, connect, h.socket]
    split
    · exact h
    · exact h.opened {}
  | follow c source =>
    cases he
    have hlog : Socket.ofLog g'.shutdown source = Socket.ofLog g.shutdown source := by
      rw [h.shutdown]
    simp only [Gateway.step, follow, h.socket, hlog]
    split
    · exact h
    · exact h.opened _
  | frame c f =>
    cases he
    simp only [Gateway.step, Gateway.receive, h.settings]
    exact h.edit _
  | cut c =>
    cases he
    exact h.edit Socket.cut
  | read c =>
    cases he
    exact h.read hl hl' fun sock hc => ⟨hd sock hc, fun other => ha rfl sock other hc⟩
  | write c =>
    cases he
    exact h.write hd

end PodConsole.Proofs.Sameness
