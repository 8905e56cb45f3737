import PodConsole.Proofs.Gateway.Speakers

namespace PodConsole.Proofs.Sparing
open Gateway Session Lifecycle Pushing Roster Seats Turns Changes Listing Speakers

variable {g : Gateway} {e : Event} {n : Nat} {s t : Seat} {token other : String} {client : Nat}
  {sock sock' : Socket} {r : Registry} {limit : Nat}

/-- The session that was started with a token. -/
def seatOf (r : Registry) (token : String) : Option Seat :=
  r.seats.find? fun s => s.session.id = token

theorem seat_of_found (h : Found g token n s) : seatOf g.registry token = some s := by
  obtain ⟨hn, hid, hfirst⟩ := List.findIdx?_eq_some_iff_getElem.mp h.started
  obtain ⟨hn', rfl⟩ := List.getElem?_eq_some_iff.mp h.seat
  exact List.find?_eq_some_iff_getElem.mpr ⟨hid, n, hn, rfl, by simpa using hfirst⟩

theorem found_of_seat (h : seatOf g.registry token = some s) : ∃ n, Found g token n s := by
  obtain ⟨hid, n, hn, rfl, hfirst⟩ := List.find?_eq_some_iff_getElem.mp h
  exact ⟨n, List.findIdx?_eq_some_iff_getElem.mpr ⟨hn, hid, by simpa using hfirst⟩,
    List.getElem?_eq_getElem hn⟩

theorem seat_of_id (h : seatOf r token = some s) : s.session.id = token := by
  simpa using List.find?_some h

theorem seat_of_iff (hu : (ids r).Nodup) :
    seatOf r token = some s ↔ ∃ n, r.seat? n = some s ∧ s.session.id = token := by
  let g : Gateway := { registry := r }
  have hf {n : Nat} : Found g token n s ↔ r.seat? n = some s ∧ s.session.id = token :=
    found_iff hu
  simp only [← hf]
  exact ⟨found_of_seat (g := g), fun ⟨_, h⟩ => seat_of_found h⟩

theorem seat_of_none : seatOf r token = none ↔ token ∉ ids r := by
  simp [seatOf, ids]

theorem set_seat_of (hn : (ids r).Nodup) (hs : r.seat? n = some s)
    (ht : t.session.id = s.session.id) : seatOf (r.setSeat n t) token =
      if s.session.id = token then some t else seatOf r token := by
  have hu' : (ids (r.setSeat n t)).Nodup := by rwa [ids_set hs ht]
  refine Option.ext fun u => ?_
  rw [seat_of_iff hu']
  simp only [seat_set hs]
  split
  · rename_i hid
    constructor
    · rintro ⟨m, hm, hu⟩
      split at hm
      · exact hm
      · rename_i hne
        exact (hne (seat_unique hn hm hs (hu.trans hid.symm))).elim
    · intro hut
      cases hut
      exact ⟨n, by simp, ht.trans hid⟩
  · rename_i hid
    rw [seat_of_iff hn]
    constructor
    · rintro ⟨m, hm, hu⟩
      split at hm
      · cases hm
        exact (hid (ht.symm.trans hu)).elim
      · exact ⟨m, hm, hu⟩
    · rintro ⟨m, hm, hu⟩
      refine ⟨m, ?_, hu⟩
      rw [if_neg, hm]
      rintro rfl
      rw [hs] at hm
      cases hm
      exact hid hu

/-- What is left of a session that became `t`: one that is over is closed, once. -/
def settled (s t : Seat) : Seat :=
  if !s.session.isClosed && t.isOver then closedSeat t else t

theorem update_seat_of (h : Listed limit r) (hs : r.seat? n = some s) (hk : Keeps s t) :
    seatOf (r.update n fun _ => t) token =
      if s.session.id = token then some (settled s t) else seatOf r token := by
  unfold settled
  cases hc : s.session.isClosed with
  | true =>
    rw [h.update_closed hs hk hc, set_seat_of h.unique hs hk.token]
    simp
  | false =>
    cases ho : t.isOver with
    | true =>
      rw [h.update_over hs hk hc ho]
      exact set_seat_of (r := strike r t.session.id) h.unique hs (t := closedSeat t) hk.token
    | false =>
      have hu : r.update n (fun _ => t) = r.setSeat n t :=
        update_on hs fun hto => by rw [ho] at hto; cases hto
      rw [hu, set_seat_of h.unique hs hk.token]
      simp

/-- A session closes once. -/
def shut (s : Seat) : Seat :=
  if s.session.isClosed then s else closedSeat s

theorem close_seat_of (h : Listed limit r) : seatOf (r.close other).2 token =
    if other = token then (seatOf r token).map shut else seatOf r token := by
  cases hn : r.entry? other with
  | none =>
    rw [close_unknown hn]
    split
    · rename_i he
      cases hs : seatOf r token with
      | none => rfl
      | some s =>
        -- a session that is not on the roster was closed before
        obtain ⟨m, hm, hid⟩ := (seat_of_iff h.unique).mp hs
        have hc : s.session.isClosed = true := by
          by_contra hc
          have hent := h.entry_self hm (by simpa using hc)
          rw [hid, ← he, hn] at hent
          cases hent
        simp [shut, hc]
    · rfl
  | some n =>
    obtain ⟨s, hs, rfl, hc⟩ := (h.entry other n).mp hn
    rw [close_known hn hs]
    have hset : seatOf ((strike r s.session.id).setSeat n (closedSeat s)) token =
        if s.session.id = token then some (closedSeat s) else seatOf r token :=
      set_seat_of (r := strike r s.session.id) (t := closedSeat s) h.unique hs rfl
    rw [hset]
    split
    · rename_i hid
      rw [(seat_of_iff h.unique).mpr ⟨n, hs, hid⟩]
      simp [shut, hc]
    · rfl

/-- The session that a step is about, whoever its client is. -/
def subject? : Event → Option String
  | .attend token | .act token _ | .attempt token _ | .close token => some token
  | .start _ _ _ | .connect _ | .follow _ _ | .frame _ _ | .cut _ | .read _ | .write _ | .pass _
  | .shutdown => none

/-- A process acts in a session that runs. -/
def isRunning (s : Seat) : Bool :=
  match s.lifetime with
  | .running _ => true
  | _ => false

/-- What such a step makes of the session. -/
def turned (clock : Nat) (shutdown : Bool) (s : Seat) : Event → Seat
  | .attend _ => settled s (s.attend clock shutdown)
  | .act _ a => if isRunning s then (s.perform a).2 else s
  | .attempt _ result => settled s (s.attempted result)
  | .close _ => shut s
  | _ => s

theorem on_session_turned {f : Nat → Gateway} {turn : Seat → Seat}
    (hf : ∀ n s, Found g other n s → seatOf (f n).registry token =
      if other = token then some (turn s) else seatOf g.registry token) :
    seatOf (g.onSession other f).registry token =
      if other = token then (seatOf g.registry token).map turn else seatOf g.registry token := by
  unfold onSession
  cases hn : g.registry.started? other with
  | none =>
    have hnone : seatOf g.registry other = none := by
      cases hs : seatOf g.registry other with
      | none => rfl
      | some s =>
        obtain ⟨n, hfound⟩ := found_of_seat hs
        rw [hfound.started] at hn
        cases hn
    split
    · rename_i hid
      rw [← hid, hnone]
      exact hnone
    · rfl
  | some n =>
    obtain ⟨hlt, -⟩ := List.findIdx?_eq_some_iff_getElem.mp hn
    have hfound : Found g other n g.registry.seats[n] := ⟨hn, List.getElem?_eq_getElem hlt⟩
    rw [Option.elim_some, hf n _ hfound]
    split
    · rename_i hid
      rw [← hid, seat_of_found hfound]
      rfl
    · rfl

theorem update_turned (h : Listed limit g.registry) (hf : Found g other n s) {f : Seat → Seat}
    (hk : Keeps s (f s)) : seatOf (g.updateSeat n f).registry token =
      if other = token then some (settled s (f s)) else seatOf g.registry token := by
  obtain ⟨hs, rfl⟩ := (found_iff h.unique).mp hf
  have hu : g.registry.update n f = g.registry.update n fun _ => f s := by
    simp [Registry.update, hs]
  rw [Gateway.updateSeat, hu, update_seat_of h hs hk]

theorem act_turned (h : Listed limit g.registry) (hf : Found g other n s) (a : Act) :
    seatOf (g.act n a).registry token =
      if other = token then some (if isRunning s then (s.perform a).2 else s)
      else seatOf g.registry token := by
  obtain ⟨hs, rfl⟩ := (found_iff h.unique).mp hf
  have acted : (g.act n a).registry =
      g.registry.setSeat n (if isRunning s then (s.perform a).2 else s) := by
    obtain ⟨session, terminal, lifetime⟩ := s
    unfold Gateway.act
    rw [hs]
    cases lifetime with
    | running attachment => simp [Gateway.perform, Registry.perform, hs, isRunning]
    | waiting | parting | «over» => exact (set_seat_same hs).symm
  rw [acted, set_seat_of h.unique hs]
  split <;> rfl

/-- A step about one session turns that one, and no other. -/
theorem subject_step (h : Listed limit g.registry) (he : subject? e = some other) :
    seatOf (g.step e).registry token =
      if other = token then
        (seatOf g.registry token).map fun s => turned g.clock g.shutdown s e
      else seatOf g.registry token := by
  cases e with
  | start | connect | follow | frame | cut | read | write | pass | shutdown => cases he
  | attend =>
    cases he
    exact on_session_turned fun n s hf => update_turned h hf (attend_keeps s g.clock g.shutdown)
  | act own a =>
    cases he
    exact on_session_turned fun n s hf => act_turned h hf a
  | attempt own result =>
    cases he
    exact on_session_turned fun n s hf => update_turned h hf (attempted_keeps s result)
  | close =>
    cases he
    exact close_seat_of h

theorem admitted_seat_of (g : Gateway) (other : String) (target : Exec.Target)
    (hint : Option String) : seatOf (admitted g other target hint) token =
      (seatOf g.registry token).or
        (if other = token then some (newSeat g other target hint) else none) := by
  simp [seatOf, admitted, Registry.enlist, List.find?_append, newSeat, Seat.new,
    List.find?_singleton]

theorem start_seat_of (g : Gateway) {target : Exec.Target} {hint : Option String}
    (h : other ≠ token) :
    seatOf (g.step (.start other target hint)).registry token = seatOf g.registry token := by
  rw [Gateway.step, start_registry]
  split
  · simp [admitted_seat_of, h]
  · rfl

/-- Tokens come from starts only. -/
theorem ids_step (h : Listed limit g.registry) (hid : token ∈ ids (g.step e).registry) :
    token ∈ ids g.registry ∨ token? e = some token := by
  have he : Effect g e (g.step e).registry := step_effect h
  generalize (g.step e).registry = r' at he hid
  cases he with
  | same => exact .inl hid
  | placed hs ht =>
    rw [ids_set hs ht.keeps.token] at hid
    exact .inl hid
  | closing hs ht =>
    rw [closing_ids hs ht.keeps] at hid
    exact .inl hid
  | admitted he =>
    rw [admitted_ids] at hid
    rcases List.mem_append.mp hid with hid | hid
    · exact .inl hid
    · rw [List.mem_singleton.mp hid, he]
      exact .inr rfl

theorem hand_clock (held : Held) : (g.hand client n token held).clock = g.clock := by
  cases hs : g.registry.seat? n with
  | none => simp [Gateway.hand, hs]
  | some s =>
    rw [hand_offered hs]
    cases (push s held).1 <;> rfl

theorem route_clock (f : Frame) : (g.route client n token f).clock = g.clock := by
  cases f with
  | text text =>
    simp only [Gateway.route]
    split
    · exact hand_clock _
    · exact hand_clock _
    · rfl
    · rfl
  | binary | ping | pong | close | ended | broken => rfl

theorem greet_frame_clock (f : Frame) : (g.greetFrame client f).clock = g.clock := by
  cases f with
  | text text =>
    simp only [Gateway.greetFrame, Gateway.greet]
    split
    · split
      · rfl
      · split <;> rfl
    · rfl
  | binary | ping | pong | close | ended | broken => rfl

theorem take_frame_clock {use : Gateway → Frame → Gateway}
    (hu : ∀ g f, (use g f).clock = g.clock) :
    ((g.takeFrame client sock use).getD g).clock = g.clock := by
  unfold takeFrame
  split
  · rfl
  · exact hu _ _

theorem read_clock (hs : Sound g) : (g.step (.read client)).clock = g.clock := by
  cases hc : g.socket? client with
  | none => simp [Gateway.step, read?, hc]
  | some sock =>
    cases hst : sock.stage with
    | greeting | listening =>
      simp only [Gateway.step, read?, hc, hst, Option.bind_eq_bind, Option.bind_some]
      split
      · rfl
      · first
        | exact take_frame_clock fun g f => greet_frame_clock f
        | exact take_frame_clock fun g f => by cases f <;> rfl
    | attached t held =>
      obtain ⟨n, s, hf, -⟩ := hs.joined client sock t hc (.inl ⟨held, hst⟩)
      cases hcan : s.terminal.connection.cancelled with
      | true =>
        simp [Gateway.step, read?, hc, hst, hf.started, hf.seat, hcan, setStage, updateSocket]
      | false =>
        cases held with
        | some held =>
          rw [Gateway.step, held_read hc hst hf hcan]
          split
          · rfl
          · exact hand_clock held
        | none =>
          simp only [Gateway.step, read?, hc, hst, hf.started, hf.seat, hcan, Option.bind_eq_bind,
            Option.bind_some, Bool.false_eq_true, if_false]
          split
          · rfl
          · exact take_frame_clock fun g f => route_clock f
    | draining | «over» => simp [Gateway.step, read?, hc, hst]

theorem write_clock (hs : Sound g) : (g.step (.write client)).clock = g.clock := by
  cases hc : g.socket? client with
  | none => simp [Gateway.step, write?, hc]
  | some sock =>
    have spoken {t : String} (hsp : Speaks sock t) :
        (g.step (.write client)).clock = g.clock := by
      obtain ⟨n, s, hf, -⟩ := hs.joined client sock t hc hsp
      rw [Gateway.step, write_polled hc hsp hf]
      cases s.terminal.connection.outbound.poll.1 with
      | item frame => cases sock.gone <;> rfl
      | pending | ended => rfl
    cases hst : sock.stage with
    | attached t held => exact spoken (.inl ⟨held, hst⟩)
    | draining t => exact spoken (.inr hst)
    | greeting | listening | «over» => simp [Gateway.step, write?, hc, hst]

/-- The time that a step takes. -/
def elapsed : Event → Nat
  | .pass time => time
  | _ => 0

def halts : Event → Bool
  | .shutdown => true
  | _ => false

theorem step_time (hs : Sound g) (e : Event) :
    (g.step e).clock = g.clock + elapsed e ∧ (g.step e).shutdown = (g.shutdown || halts e) := by
  have still {g' : Gateway} (hc : g'.clock = g.clock) (hd : g'.shutdown = g.shutdown) :
      g'.clock = g.clock + 0 ∧ g'.shutdown = (g.shutdown || false) := by
    simp [hc, hd]
  have session {token : String} {f : Nat → Gateway} (hc : ∀ n, (f n).clock = g.clock)
      (hd : ∀ n, (f n).shutdown = g.shutdown) :
      (g.onSession token f).clock = g.clock + 0 ∧
        (g.onSession token f).shutdown = (g.shutdown || false) := by
    unfold onSession
    cases g.registry.started? token with
    | none => exact still rfl rfl
    | some n => exact still (hc n) (hd n)
  cases e with
  | start token target hint =>
    simp only [Gateway.step, Gateway.start]
    split <;> exact still rfl rfl
  | connect client =>
    simp only [Gateway.step, connect]
    split <;> exact still rfl rfl
  | follow client source =>
    simp only [Gateway.step, follow]
    split <;> exact still rfl rfl
  | read client =>
    refine still (read_clock hs) ?_
    cases hc : g.socket? client with
    | none => simp [Gateway.step, read?, hc]
    | some sock =>
      obtain ⟨r, sock', hread, ha⟩ := read_reading hc
      exact ha.shutdown
  | write client =>
    refine still (write_clock hs) ?_
    cases hc : g.socket? client with
    | none => simp [Gateway.step, write?, hc]
    | some sock =>
      obtain ⟨r, sock', hwrite, ha⟩ := write_writing hc
      exact ha.shutdown
  | attend | attempt => exact session (fun n => rfl) fun n => rfl
  | act token a =>
    refine session (fun n => ?_) fun n => ?_
    · unfold Gateway.act
      split <;> rfl
    · unfold Gateway.act
      split <;> rfl
  | frame | cut | close => exact still rfl rfl
  | pass time => exact ⟨rfl, by simp [Gateway.step, halts]⟩
  | shutdown => exact ⟨rfl, by simp [Gateway.step, halts]⟩

/-- The session that a socket's next turn asks for. -/
def asks (shutdown : Bool) (s : Socket) : Option String :=
  match s.stage, shutdown, s.inbox with
  | .greeting, false, .text text :: _ =>
    match Wire.Command.parse text with
    | .ok (.bind token) => some token
    | _ => none
  | _, _, _ => none

theorem asks_bind {text : String} {rest : List Frame} (hs : sock.stage = .greeting)
    (hi : sock.inbox = .text text :: rest) (hp : Wire.Command.parse text = .ok (.bind token)) :
    asks false sock = some token := by
  simp [asks, hs, hi, hp]

theorem asks_iff {shutdown : Bool} {s : Socket} : asks shutdown s = some token ↔
    s.stage = .greeting ∧ shutdown = false ∧ ∃ text rest, s.inbox = .text text :: rest ∧
      Wire.Command.parse text = .ok (.bind token) := by
  constructor
  · intro h
    unfold asks at h
    split at h
    · rename_i text rest hs hi
      split at h
      · rename_i other hp
        cases h
        exact ⟨hs, rfl, text, rest, hi, hp⟩
      · cases h
    · cases h
  · rintro ⟨hs, rfl, text, rest, hi, hp⟩
    exact asks_bind hs hi hp

theorem not_asks_of_settled {shutdown : Bool} (h : sock.stage ≠ .greeting) :
    asks shutdown sock ≠ some token :=
  fun ha => h (asks_iff.mp ha).1

/-- What a socket has done that has nothing to do with the session of `token`. -/
structure Aside (token : String) (r r' : Registry) (s' : Socket) : Prop where
  seat : seatOf r' token = seatOf r token
  mute : ¬ Speaks s' token

theorem set_aside (h : Listed limit g.registry) (hf : Found g other n s) (hid : other ≠ token)
    (ht : t.session.id = s.session.id) :
    seatOf (g.registry.setSeat n t) token = seatOf g.registry token := by
  obtain ⟨hs, rfl⟩ := (found_iff h.unique).mp hf
  rw [set_seat_of h.unique hs ht, if_neg hid]

theorem handed_aside {held : Held} (h : Listed limit g.registry) (hf : Found g other n s)
    (hid : other ≠ token) (hh : Handed g sock other n s held r sock') :
    Aside token g.registry r sock' := by
  refine ⟨?_, fun hs => hid (handed_speaks hh hs).symm⟩
  cases hh with
  | sent => exact set_aside h hf hid (push_keeps s held).token
  | full => rfl
  | closed => exact set_aside h hf hid rfl

theorem greeted_aside {text : String} (h : Listed limit g.registry)
    (hp : Wire.Command.parse text ≠ .ok (.bind token))
    (hg : Greeted g client sock text r sock') : Aside token g.registry r sock' := by
  have bound {other : String} {n : Nat} {s : Seat}
      (hp' : Wire.Command.parse text = .ok (.bind other))
      (hn : g.registry.get? other = some (n, s)) :
      other ≠ token ∧
        seatOf (g.registry.setSeat n (s.bind client g.connection).2) token =
          seatOf g.registry token := by
    have hid : other ≠ token := by
      rintro rfl
      exact hp hp'
    obtain ⟨hent, hs, -⟩ := get_iff.mp hn
    obtain ⟨u, hu, huid, -⟩ := (h.entry other n).mp hent
    rw [hs] at hu
    cases hu
    exact ⟨hid, set_aside h ((found_iff h.unique).mpr ⟨hs, huid⟩) hid (bind_keeps s _ _).token⟩
  cases hg with
  | stranger | unknown => exact ⟨rfl, finish_mute _⟩
  | bound hp' hn =>
    obtain ⟨hid, hseat⟩ := bound hp' hn
    exact ⟨hseat, fun hs => hid ((speaks_attached rfl).mp hs).symm⟩
  | taken hp' hn | refused hp' hn => exact ⟨(bound hp' hn).2, finish_mute _⟩

theorem reading_aside (h : Listed limit g.registry) (hs : ¬ Speaks sock token)
    (ha : asks g.shutdown sock ≠ some token) (hr : Reading g client sock r sock') :
    Aside token g.registry r sock' := by
  have foreign {other : String} {held : Option Held} (hst : sock.stage = .attached other held) :
      other ≠ token := fun hid => hs ((speaks_attached hst).mpr hid.symm)
  have drains {other : String} (hid : other ≠ token) :
      ¬ Speaks { sock with stage := .draining other } token :=
    fun hsp => hid ((speaks_draining rfl).mp hsp).symm
  cases hr with
  | idle | done | lost => exact ⟨rfl, hs⟩
  | closed | leave => exact ⟨rfl, finish_mute _⟩
  | skip => exact ⟨rfl, fun hsp => hs (speaks_same_stage hsp (answer_stage _ _))⟩
  | greet hst hd hi hg =>
    refine greeted_aside h (fun hp => ha ?_) hg
    rw [hd]
    exact asks_bind hst hi hp
  | dropped hst => exact ⟨rfl, drains (foreign hst)⟩
  | offered hst hf hc hh => exact handed_aside h hf (foreign hst) hh
  | shut hst hf => exact ⟨set_aside h hf (foreign hst) rfl, drains (foreign hst)⟩
  | routed hst hf hc hd hi hr =>
    have hid := foreign hst
    have hmute : ¬ Speaks sock' token := fun hsp =>
      hs (routed_speaks hr ((speaks_attached hst).mpr rfl) hsp)
    refine ⟨?_, hmute⟩
    cases hr with
    | skipped => rfl
    | handed hn hh => exact (handed_aside h hf hid hh).seat
    | left => exact set_aside h hf hid rfl

theorem writing_aside (h : Listed limit g.registry) (hs : ¬ Speaks sock token)
    (hw : Writing g sock r sock') : Aside token g.registry r sock' := by
  have foreign {other : String} (hsp : Speaks sock other) : other ≠ token := by
    rintro rfl
    exact hs hsp
  refine ⟨?_, fun hsp => hs (writing_speaks hw hsp)⟩
  cases hw with
  | wait => rfl
  | cut hsp hf | said hsp hf | ended hsp hf => exact set_aside h hf (foreign hsp) rfl

/-- The client that a step lets ask for the session of `token`. -/
def asker? (token : String) (g : Gateway) : Event → Option Nat
  | .read client =>
    if (g.socket? client).bind (asks g.shutdown) = some token then some client else none
  | _ => none

theorem asker_read (hc : g.socket? client = some sock) :
    asker? token g (.read client) = none ↔ asks g.shutdown sock ≠ some token := by
  simp [asker?, hc]

theorem asker_some (h : asker? token g e = some client) :
    e = .read client ∧ (g.socket? client).bind (asks g.shutdown) = some token := by
  cases e with
  | start | attend | act | attempt | close | pass | shutdown | connect | follow | frame | cut
  | write => cases h
  | read c =>
    simp only [asker?] at h
    split at h
    · rename_i hask
      cases h
      exact ⟨rfl, hask⟩
    · cases h

theorem not_asker (he : client? e = some client) (hc : g.socket? client = some sock)
    (h : asks g.shutdown sock ≠ some token) : asker? token g e = none := by
  cases e with
  | start | attend | act | attempt | close | pass | shutdown | connect | follow | frame | cut
  | write => rfl
  | read c =>
    cases he
    exact (asker_read hc).mpr h

/-- What comes to a socket is nothing to any session, until it is read. -/
theorem arrival_registry (he : client? e = some client) (hr : e ≠ .read client)
    (hw : e ≠ .write client) : (g.step e).registry = g.registry := by
  cases e with
  | start | attend | act | attempt | close | pass | shutdown => cases he
  | connect c =>
    simp only [Gateway.step, connect]
    split <;> rfl
  | follow c source =>
    simp only [Gateway.step, follow]
    split <;> rfl
  | frame | cut => rfl
  | read c =>
    cases he
    exact (hr rfl).elim
  | write c =>
    cases he
    exact (hw rfl).elim

/-- The step of a client that neither speaks for a session nor asks for it. -/
theorem client_aside (h : Listed limit g.registry) (he : client? e = some client)
    (hs : ∀ sock, g.socket? client = some sock → ¬ Speaks sock token)
    (ha : asker? token g e = none) :
    seatOf (g.step e).registry token = seatOf g.registry token ∧
      ∀ sock, (g.step e).socket? client = some sock → ¬ Speaks sock token := by
  by_cases hr : e = .read client
  · subst hr
    cases hc : g.socket? client with
    | none =>
      have hstep : g.step (.read client) = g := by simp [Gateway.step, read?, hc]
      rw [hstep]
      exact ⟨rfl, hs⟩
    | some sock =>
      obtain ⟨r, sock', hread, hafter⟩ := read_reading hc
      have haside := reading_aside h (hs sock hc) ((asker_read hc).mp ha) hread
      rw [hafter.registry, hafter.socket]
      exact ⟨haside.seat, fun _ hsock => Option.some.inj hsock ▸ haside.mute⟩
  · by_cases hw : e = .write client
    · subst hw
      cases hc : g.socket? client with
      | none =>
        have hstep : g.step (.write client) = g := by simp [Gateway.step, write?, hc]
        rw [hstep]
        exact ⟨rfl, hs⟩
      | some sock =>
        obtain ⟨r, sock', hwrite, hafter⟩ := write_writing hc
        have haside := writing_aside h (hs sock hc) hwrite
        rw [hafter.registry, hafter.socket]
        exact ⟨haside.seat, fun _ hsock => Option.some.inj hsock ▸ haside.mute⟩
    · rw [arrival_registry he hr hw]
      refine ⟨rfl, fun sock' hc' hsp => ?_⟩
      rcases step_speaks hc' hsp with ⟨sock, hc, hold⟩ | ⟨n, s, henters⟩
      · exact hs sock hc hold
      · exact hr henters.turn

theorem socket_aside (h : Listed limit g.registry) (he : client? e = some client)
    (hc : g.socket? client = some sock) (hs : ¬ Speaks sock token)
    (ha : asks g.shutdown sock ≠ some token) :
    seatOf (g.step e).registry token = seatOf g.registry token ∧
      ∀ sock', (g.step e).socket? client = some sock' → ¬ Speaks sock' token := by
  refine client_aside h he (fun s hc' => ?_) (not_asker he hc ha)
  rw [hc] at hc'
  cases hc'
  exact hs

/-- What is seen along a run. -/
def along {α : Type} (look : Gateway → Event → List α) (g : Gateway) : List Event → List α
  | [] => []
  | e :: rest => look g e ++ along look (g.step e) rest

theorem along_append {α : Type} (look : Gateway → Event → List α) (g : Gateway)
    (past rest : List Event) :
    along look g (past ++ rest) = along look g past ++ along look (g.run past) rest := by
  induction past generalizing g with
  | nil => rfl
  | cons e past ih =>
    simp only [List.cons_append, along, ih (g.step e), List.append_assoc]
    rfl

theorem along_snoc {α : Type} (look : Gateway → Event → List α) (g : Gateway)
    (past : List Event) (e : Event) :
    along look g (past ++ [e]) = along look g past ++ look (g.run past) e := by
  rw [along_append, along, along, List.append_nil]

def givenAnswer (token : String) (g : Gateway) : Event → List Answer
  | .act own a =>
    if own = token then
      (((seatOf g.registry token).filter isRunning).map fun s => (s.perform a).1).toList
    else []
  | _ => []

/-- What a session's process got from its terminal: keystrokes, sizes, and whether its output was
taken. -/
def answers (token : String) : Gateway → List Event → List Answer :=
  along (givenAnswer token)

end PodConsole.Proofs.Sparing
