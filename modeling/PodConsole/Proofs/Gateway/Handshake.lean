import PodConsole.Proofs.Gateway.Speakers

namespace PodConsole.Proofs.Handshake
open Gateway Session Lifecycle Roster Seats Turns Changes Listing Speakers

variable {g : Gateway} {e : Event} {client c n : Nat} {s s' w : Socket} {f : Frame}
  {rest : List Frame} {r : Registry} {token : String} {seat : Seat} {settings : Settings}
  {past : List Event}

/-- What is skipped until the first text comes. -/
def idle : Frame → Bool
  | .binary _ | .ping _ | .pong _ => true
  | .text _ | .close | .ended | .broken => false

theorem idle_open (h : idle f = true) : closing f = false := by
  cases f with
  | binary | ping | pong => rfl
  | text | close | ended | broken => cases h

def isPong : Sent → Bool
  | .pong _ => true
  | .text _ | .close | .ended => false

/-- What the gateway wrote to a client; it is the socket that answers pings. -/
def written (s : Socket) : List Sent :=
  s.sent.filter fun out => !isPong out

/-- A frame names a session that is on the roster and not closed. -/
structure Reaches (r : Registry) (f : Frame) (token : String) (n : Nat) (seat : Seat) : Prop where
  named : ∃ text, f = .text text ∧ Wire.Command.parse text = .ok (.bind token)
  listed : r.entry? token = some n
  seated : r.seat? n = some seat
  going : seat.session.phase ≠ .closed

theorem emit_written (s : Socket) (out : Sent) : written (s.emit out) =
    if s.gone then written s else written s ++ [out].filter fun out => !isPong out := by
  unfold Socket.emit
  split <;> simp [written]

theorem emit_gone (s : Socket) (out : Sent) : (s.emit out).gone = s.gone := by
  unfold Socket.emit
  split <;> rfl

theorem finish_written (s : Socket) :
    written s.finish = if s.gone then written s else written s ++ [.close, .ended] := by
  have h : written s.finish = written ((s.emit .close).emit .ended) := rfl
  rw [h, emit_written, emit_written, emit_gone]
  cases s.gone <;> simp [isPong]

theorem answer_written (s : Socket) (f : Frame) : written (answer s f) = written s := by
  cases f with
  | ping payload => simp [answer, emit_written, isPong]
  | text | binary | pong | close | ended | broken => rfl

theorem answer_gone (s : Socket) (f : Frame) : (answer s f).gone = s.gone := by
  cases f with
  | ping payload => exact emit_gone s _
  | text | binary | pong | close | ended | broken => rfl

theorem emit_inbox (s : Socket) (out : Sent) : (s.emit out).inbox = s.inbox := by
  unfold Socket.emit
  split <;> rfl

theorem answer_inbox (s : Socket) (f : Frame) : (answer s f).inbox = s.inbox := by
  cases f with
  | ping payload => exact emit_inbox s _
  | text | binary | pong | close | ended | broken => rfl

/-- A socket that still greets has always done so, and nothing was written to it. -/
theorem stepped_greeting (h : Stepped g c s e s') (hs : s'.stage = .greeting) :
    s.stage = .greeting ∧ written s' = written s := by
  cases h with
  | same => exact ⟨hs, rfl⟩
  | frame =>
    rw [receive_stage] at hs
    refine ⟨hs, ?_⟩
    unfold Socket.receive
    split <;> rfl
  | cut =>
    have hr : (s.receive .ended).stage = .greeting := hs
    rw [receive_stage] at hr
    refine ⟨hr, ?_⟩
    unfold Socket.cut Socket.receive
    split <;> rfl
  | read hr hreg =>
    cases hr with
    | idle | done | lost => exact ⟨hs, rfl⟩
    | closed | leave => cases hs
    | skip hw hd hi hc ht =>
      rw [answer_stage] at hs
      exact ⟨hs, answer_written _ _⟩
    | greet hg hd hi ho => cases ho <;> cases hs
    | dropped | shut => cases hs
    | offered ha hf hc hh => cases hh <;> cases hs
    | routed ha hf hc hd hi hr =>
      cases hr with
      | skipped hn hcl =>
        rw [answer_stage] at hs
        rw [show s.stage = .greeting from hs] at ha
        cases ha
      | handed hn hh => cases hh <;> cases hs
      | left hcl => cases hs
  | write hw hreg =>
    cases hw with
    | wait => exact ⟨hs, rfl⟩
    | cut | ended => cases hs
    | said hsp hf hi =>
      rw [emit_stage] at hs
      exact (mute_of_stage (.inl hs) hsp).elim

theorem run_unwritten (settings : Settings) (events : List Event) (hn : (tokens events).Nodup)
    (hc : (Gateway.run { settings } events).socket? c = some s) (hs : s.stage = .greeting) :
    written s = [] := by
  refine run_keeps (p := fun _ g => ∀ s, g.socket? c = some s → s.stage = .greeting →
    written s = []) ?_ ?_ events hn s hc hs
  · intro s hc
    simp [socket?] at hc
  · intro past g e ih _ s' hc' hs'
    cases hc : g.socket? c with
    | none =>
      rcases new_socket hc hc' with rfl | ⟨source, rfl⟩
      · rfl
      · rcases log_stage g.shutdown source with h | h <;> rw [hs'] at h <;> cases h
    | some s =>
      obtain ⟨s'', hc'', hst⟩ := step_socket hc e
      rw [hc'] at hc''
      cases hc''
      obtain ⟨hs, hw⟩ := stepped_greeting hst hs'
      rw [hw, ih s hc hs]

/-- What a reader that greets does with a frame. -/
theorem greeting_turn (h : Reading g client s r s') (hs : s.stage = .greeting)
    (hd : g.shutdown = false) (hi : s.inbox = f :: rest) :
    (idle f = true ∧ r = g.registry ∧ s' = answer { s with inbox := rest } f) ∨
    (closing f = true ∧ r = g.registry ∧ s' = { s with inbox := rest }.finish) ∨
    ∃ text, f = .text text ∧ Greeted g client { s with inbox := rest } text r s' := by
  cases h with
  | idle hn hw => rw [hi] at hn; cases hn
  | done hw => rcases hw with ⟨token, hw⟩ | hw <;> rw [hs] at hw <;> cases hw
  | lost ha | dropped ha | offered ha | shut ha | routed ha => rw [hs] at ha; cases ha
  | closed hw hsd => rw [hd] at hsd; cases hsd
  | skip hw hsd hj hc ht =>
    rw [hi] at hj
    cases hj
    cases f with
    | text text => exact (ht text hs rfl).elim
    | binary | ping | pong => exact .inl ⟨rfl, rfl, rfl⟩
    | close | ended | broken => cases hc
  | leave hw hsd hj hc =>
    rw [hi] at hj
    cases hj
    exact .inr (.inl ⟨hc, rfl, rfl⟩)
  | greet hg hsd hj ho =>
    rw [hi] at hj
    cases hj
    exact .inr (.inr ⟨_, rfl, ho⟩)

theorem replicate_run (g : Gateway) (k : Nat) (e : Event) :
    g.run (List.replicate (k + 1) e) = (g.step e).run (List.replicate k e) := rfl

/-- While the reader skips frames, nothing happens to anybody else. -/
theorem skipping (skipped : List Frame) (hc : g.socket? client = some s)
    (hs : s.stage = .greeting) (hd : g.shutdown = false) (hi : s.inbox = skipped ++ rest)
    (hsk : ∀ f ∈ skipped, idle f = true) :
    ∃ s', After g client g.registry s' (g.run (List.replicate skipped.length (.read client))) ∧
      s'.stage = .greeting ∧ s'.inbox = rest ∧ s'.gone = s.gone ∧ written s' = written s := by
  induction skipped generalizing g s with
  | nil => exact ⟨s, .refl hc, hs, hi, rfl, rfl⟩
  | cons f skipped ih =>
    obtain ⟨r, w, hr, ha⟩ := read_reading hc
    have hw : r = g.registry ∧ w = answer { s with inbox := skipped ++ rest } f := by
      have hf := hsk f List.mem_cons_self
      rcases greeting_turn hr hs hd hi with ⟨-, hw⟩ | ⟨hcl, -⟩ | ⟨text, ht, -⟩
      · exact hw
      · rw [idle_open hf] at hcl
        cases hcl
      · rw [ht] at hf
        cases hf
    obtain ⟨rfl, rfl⟩ := hw
    obtain ⟨s', ha', hs', hi', hg', hw'⟩ := ih ha.socket (by rw [answer_stage]; exact hs)
      (ha.shutdown.trans hd) (answer_inbox _ _) fun d hd => hsk d (List.mem_cons_of_mem f hd)
    rw [List.length_cons, replicate_run]
    refine ⟨s', ?_, hs', hi', ?_, ?_⟩
    · -- the registry that the rest of the frames find is the first one
      exact ha.trans (ha.registry ▸ ha')
    · rw [hg', answer_gone]
    · rw [hw', answer_written]
      rfl

theorem Reaches.get (h : Reaches r f token n seat) : r.get? token = some (n, seat) :=
  get_iff.mpr ⟨h.listed, h.seated, by simpa [isClosed] using h.going⟩

theorem reaches_of_get {text : String} (hp : Wire.Command.parse text = .ok (.bind token))
    (hn : r.get? token = some (n, seat)) : Reaches r (.text text) token n seat := by
  obtain ⟨he, hs, hc⟩ := get_iff.mp hn
  exact ⟨⟨text, rfl, hp⟩, he, hs, by simpa [isClosed] using hc⟩

theorem Reaches.unique (h : Reaches r f token n seat) {token' : String} {n' : Nat} {seat' : Seat}
    (h' : Reaches r f token' n' seat') : token' = token ∧ n' = n ∧ seat' = seat := by
  obtain ⟨text, rfl, hp⟩ := h.named
  obtain ⟨text', ht, hp'⟩ := h'.named
  cases ht
  rw [hp] at hp'
  cases hp'
  have hg := h'.get
  rw [h.get] at hg
  cases hg
  exact ⟨rfl, rfl, rfl⟩

/-- What becomes of a client, whose socket is `w` once its frame was taken. -/
inductive Decided (g : Gateway) (client : Nat) (f : Frame) (w : Socket) :
    Registry → Socket → Prop
  | bound {token : String} {n : Nat} {seat : Seat} : Reaches g.registry f token n seat →
      available seat.session.signal = true → Decided g client f w
        (g.registry.setSeat n (welcomed seat client g.connection))
        { w with stage := .attached token none }
  | taken {token : String} {n : Nat} {seat : Seat} : Reaches g.registry f token n seat →
      available seat.session.signal = false →
      Decided g client f w g.registry (w.emit boundNotice).finish
  | unknown : (∀ token n seat, ¬ Reaches g.registry f token n seat) →
      Decided g client f w g.registry w.finish

/-- A session that is on the roster is waited for, so its signal is open unless it was used. -/
theorem open_of_available {limit : Nat} (h : Listed limit g.registry)
    (hr : Reaches g.registry f token n seat) (ha : available seat.session.signal = true) :
    seat.session.signal = .open := by
  have ho : seat.isOver = false := by
    cases ho : seat.isOver with
    | false => rfl
    | true =>
      have hc := h.finished n seat hr.seated ho
      exact (hr.going (by simpa [isClosed] using hc)).elim
  have hu := h.heard n seat hr.seated ho
  cases hs : seat.session.signal with
  | «open» => rfl
  | unheard => exact (hu hs).elim
  | carrying | «over» => rw [hs] at ha; cases ha

/-- Only a session that was bound before turns a client away. -/
theorem taken_of_refused {limit : Nat} {conn : Connection} (h : Listed limit g.registry)
    (hr : Reaches g.registry f token n seat) (hb : (seat.bind client conn).1 ≠ .ok ()) :
    available seat.session.signal = false := by
  cases ha : available seat.session.signal with
  | false => rfl
  | true =>
    have hopen := open_of_available h hr ha
    rw [bind_first hr.going hopen] at hb
    exact (hb rfl).elim

/-- What the first text leads to, where whoever waits for a registered session still hears it. -/
theorem greeted_decided {limit : Nat} (h : Listed limit g.registry) {text : String}
    (hg : Greeted g client w text r s') : Decided g client (.text text) w r s' := by
  cases hg with
  | stranger hp =>
    refine .unknown fun token n seat hr => ?_
    obtain ⟨text', ht, hp'⟩ := hr.named
    cases ht
    exact hp token hp'
  | unknown hp hn =>
    refine .unknown fun token n seat hr => ?_
    obtain ⟨text', ht, hp'⟩ := hr.named
    cases ht
    rw [hp] at hp'
    cases hp'
    rw [hr.get] at hn
    cases hn
  | bound hp hn hb =>
    obtain ⟨hph, hopen⟩ := bind_accepted.mp hb
    rw [bind_first hph hopen]
    exact .bound (reaches_of_get hp hn) (by simp [hopen, available])
  | taken hp hn hb =>
    have hr := reaches_of_get hp hn
    have ht := taken_of_refused h hr (by rw [hb]; simp)
    rw [bind_taken hr.going ht, set_seat_same hr.seated]
    exact .taken hr ht
  | refused hp hn hb hne =>
    rename_i token n seat error
    have hr := reaches_of_get hp hn
    have hno : (seat.bind client g.connection).1 ≠ .ok () := fun hok => by
      rw [hok] at hb
      cases hb
    rw [bind_taken hr.going (taken_of_refused h hr hno)] at hb
    exact (hne _ (Except.error.inj hb).symm).elim

theorem turn_decided {limit : Nat} (h : Listed limit g.registry)
    (hr : Reading g client s r s') (hs : s.stage = .greeting) (hd : g.shutdown = false)
    (hi : s.inbox = f :: rest) (hf : idle f = false) :
    Decided g client f { s with inbox := rest } r s' := by
  rcases greeting_turn hr hs hd hi with ⟨hidle, -⟩ | ⟨hc, rfl, rfl⟩ | ⟨text, rfl, hg⟩
  · rw [hf] at hidle
    cases hidle
  · refine .unknown fun token n seat hr => ?_
    obtain ⟨text, rfl, hp⟩ := hr.named
    cases hc
  · exact greeted_decided h hg

theorem Decided.speaks (h : Decided g client f w r s') : Speaks s' token ↔
    ∃ n seat, Reaches g.registry f token n seat ∧ available seat.session.signal = true := by
  cases h with
  | bound hr ha =>
    rename_i own n seat
    rw [speaks_attached rfl]
    constructor
    · rintro rfl
      exact ⟨n, seat, hr, ha⟩
    · rintro ⟨m, t, hr', -⟩
      exact (hr.unique hr').1
  | taken hr ha =>
    refine ⟨fun hs => (finish_mute _ hs).elim, ?_⟩
    rintro ⟨m, t, hr', ha'⟩
    obtain ⟨-, -, rfl⟩ := hr.unique hr'
    rw [ha] at ha'
    cases ha'
  | unknown hno =>
    refine ⟨fun hs => (finish_mute _ hs).elim, ?_⟩
    rintro ⟨m, t, hr', -⟩
    exact (hno _ _ _ hr').elim

theorem Decided.admits (h : Decided g client f w r s') (hr : Reaches g.registry f token n seat)
    (ha : available seat.session.signal = true) :
    r = g.registry.setSeat n (welcomed seat client g.connection) ∧
      s' = { w with stage := .attached token none } := by
  cases h with
  | bound hr' ha' =>
    obtain ⟨rfl, rfl, rfl⟩ := hr'.unique hr
    exact ⟨rfl, rfl⟩
  | taken hr' ha' =>
    obtain ⟨-, -, rfl⟩ := hr'.unique hr
    rw [ha] at ha'
    cases ha'
  | unknown hno => exact (hno _ _ _ hr).elim

theorem Decided.turns_away (h : Decided g client f w r s')
    (hno : ∀ token n seat, Reaches g.registry f token n seat →
      available seat.session.signal = false) :
    r = g.registry ∧ s'.stage = .over ∧
    ((∃ token n seat, Reaches g.registry f token n seat) →
      written s' = if w.gone then written w else written w ++ [boundNotice, .close, .ended]) ∧
    ((∀ token n seat, ¬ Reaches g.registry f token n seat) →
      written s' = if w.gone then written w else written w ++ [.close, .ended]) := by
  cases h with
  | bound hr ha =>
    rw [hno _ _ _ hr] at ha
    cases ha
  | taken hr ha =>
    refine ⟨rfl, rfl, fun _ => ?_, fun hn => (hn _ _ _ hr).elim⟩
    rw [finish_written, emit_written, emit_gone]
    cases w.gone <;> simp [isPong, boundNotice]
  | unknown hn =>
    exact ⟨rfl, rfl, fun ⟨_, _, _, hr⟩ => (hn _ _ _ hr).elim, fun _ => finish_written w⟩

/-- The first frame that is not skipped decides, in the registry as it was before any frame. -/
theorem deciding {limit : Nat} {skipped : List Frame} (h : Listed limit g.registry)
    (hc : g.socket? client = some s) (hs : s.stage = .greeting) (hd : g.shutdown = false)
    (hi : s.inbox = skipped ++ f :: rest) (hsk : ∀ f ∈ skipped, idle f = true)
    (hf : idle f = false) :
    ∃ w r s', w.inbox = rest ∧ w.gone = s.gone ∧ written w = written s ∧
      Decided g client f w r s' ∧
      After g client r s' (g.run (List.replicate (skipped.length + 1) (.read client))) := by
  obtain ⟨w, ha, hws, hwi, hwg, hww⟩ := skipping skipped hc hs hd hi hsk
  obtain ⟨r, s', hr, ha'⟩ := read_reading ha.socket
  have hdec := turn_decided (ha.registry ▸ h) hr hws (ha.shutdown.trans hd) hwi hf
  refine ⟨{ w with inbox := rest }, r, s', rfl, hwg, hww, ?_, ?_⟩
  · -- what was skipped has changed neither the sessions nor what a connection is made of
    have hconn : (g.run (List.replicate skipped.length (.read client))).connection =
        g.connection := by
      simp [Gateway.connection, ha.settings]
    generalize g.run (List.replicate skipped.length (.read client)) = g' at *
    cases hdec with
    | bound hrch hav =>
      rw [ha.registry, hconn]
      exact .bound (ha.registry ▸ hrch) hav
    | taken hrch hav =>
      rw [ha.registry]
      exact .taken (ha.registry ▸ hrch) hav
    | unknown hno =>
      rw [ha.registry]
      exact .unknown (ha.registry ▸ hno)
  · rw [List.replicate_succ', run_snoc]
    exact ha.trans ha'

/-- A session that a client was let in to is this client's for good, and the client's only one. -/
structure Claimed (client : Nat) (token : String) (g : Gateway) : Prop where
  taken : ∃ n seat, Found g token n seat ∧ available seat.session.signal = false
  alone : ∀ c s, g.socket? c = some s → Speaks s token → c = client
  only : ∃ s, g.socket? client = some s ∧ s.stage ≠ .greeting ∧
    ∀ other, Speaks s other → other = token

theorem Claimed.step {limit : Nat} (h : Claimed client token g) (hl : Listed limit g.registry)
    (hu : (ids (g.step e).registry).Nodup) : Claimed client token (g.step e) where
  taken := by
    obtain ⟨n, seat, hf, ht⟩ := h.taken
    obtain ⟨u, hfu, hb⟩ := found_step hl hu hf
    exact ⟨n, u, hfu, hb.taken ht⟩
  alone := by
    intro c s' hc hs
    rcases step_speaks hc hs with ⟨s, hcs, hss⟩ | ⟨m, t, he⟩
    · exact h.alone c s hcs hss
    · -- the session's signal was used up before
      obtain ⟨n, seat, hf, ht⟩ := h.taken
      rw [he.untaken hl hf] at ht
      cases ht
  only := by
    obtain ⟨s, hc, hs, ho⟩ := h.only
    obtain ⟨s', hc', hst⟩ := step_socket hc e
    refine ⟨s', hc', fun hg => hs (stepped_greeting hst hg).1, fun other hsp => ?_⟩
    rcases stepped_speaks hc hst hsp with hsp | ⟨m, t, he⟩
    · exact ho other hsp
    · obtain ⟨s₀, hc₀, hs₀⟩ := he.greeting
      rw [hc] at hc₀
      cases hc₀
      exact (hs hs₀).elim

/-- A session that a socket speaks for was let in to once, and that socket is the one. -/
theorem claimed_of_speaks (h : Sound g) (hc : g.socket? client = some s) (hs : Speaks s token) :
    Claimed client token g where
  taken := by
    obtain ⟨n, seat, hf, hj⟩ := h.joined client s token hc hs
    exact ⟨n, seat, hf, hj.taken⟩
  alone c s' hc' hs' := h.alone c client s' s token hc' hc hs' hs
  only := by
    refine ⟨s, hc, fun hg => mute_of_stage (.inl hg) hs, fun other ho => ?_⟩
    rcases hs with ⟨held, hs⟩ | hs
    · exact (speaks_attached hs).mp ho
    · exact (speaks_draining hs).mp ho

theorem claimed_run (events : List Event) (hn : (tokens (past ++ events)).Nodup)
    (h : Claimed client token (Gateway.run { settings } past)) :
    Claimed client token ((Gateway.run { settings } past).run events) := by
  induction events using List.reverseRecOn with
  | nil => exact h
  | append_singleton before e ih =>
    rw [← List.append_assoc] at hn
    have hr := run_reached settings _ hn
    rw [tokens_snoc, List.nodup_append] at hn
    have hp := run_reached settings _ hn.1
    rw [run_snoc, run_append] at hr
    rw [run_append] at hp
    rw [run_snoc]
    exact (ih hn.1).step hp.listed hr.listed.unique

theorem tokens_reads (client : Nat) (past : List Event) (k : Nat) (events : List Event) :
    tokens (past ++ List.replicate k (.read client) ++ events) = tokens (past ++ events) := by
  have hr : tokens (List.replicate k (.read client)) = [] := by
    induction k with
    | zero => rfl
    | succ k ih => simp [tokens, List.replicate_succ, token?]
  simp only [tokens, List.filterMap_append] at hr ⊢
  simp [hr]

/-- A client's socket that still greets, whatever happened before and whoever else there is. Frames
that are not text are skipped, and nobody else notices. The first other frame decides: the client is
let in exactly if the frame names a session on the roster, not closed, whose signal was not used.
That session, and no other, gets the client and its connection, for good. In every other case the
socket is closed and all sessions stay as they are; nothing is written to it but the notice that the
session has a client, if it has one. -/
theorem first_text_decides (settings : Settings) (past : List Event) (client : Nat) (s : Socket)
    (skipped rest : List Frame) (hn : (tokens past).Nodup)
    (hd : (Gateway.run { settings } past).shutdown = false)
    (hc : (Gateway.run { settings } past).socket? client = some s) (hs : s.stage = .greeting)
    (hi : s.inbox = skipped ++ rest) (hsk : ∀ f ∈ skipped, idle f = true) :
    let g := Gateway.run { settings } past
    let after (k : Nat) : Gateway := g.run (List.replicate k (.read client))
    written s = [] ∧
    (∃ s', After g client g.registry s' (after skipped.length) ∧ s'.stage = .greeting ∧
      s'.inbox = rest ∧ written s' = []) ∧
    ∀ f later, rest = f :: later → idle f = false →
      let g' := after (skipped.length + 1)
      (∀ token, (∃ s', g'.socket? client = some s' ∧ Speaks s' token) ↔
        ∃ n seat, Reaches g.registry f token n seat ∧ available seat.session.signal = true) ∧
      (∀ token n seat, Reaches g.registry f token n seat → available seat.session.signal = true →
        let seat' := welcomed seat client g.connection
        (∃ s', After g client (g.registry.setSeat n seat') s' g' ∧
          s'.stage = .attached token none ∧ s'.inbox = later ∧ written s' = []) ∧
        seat'.session.signal.receive.1 = .client client ∧
        seat'.terminal.connection = g.connection ∧
        ∀ events, (tokens (past ++ events)).Nodup → Claimed client token (g'.run events)) ∧
      ((∀ token n seat, Reaches g.registry f token n seat →
          available seat.session.signal = false) →
        ∃ s', After g client g.registry s' g' ∧ s'.stage = .over ∧
          ((∃ token n seat, Reaches g.registry f token n seat) →
            written s' = if s.gone then [] else [boundNotice, .close, .ended]) ∧
          ((∀ token n seat, ¬ Reaches g.registry f token n seat) →
            written s' = if s.gone then [] else [.close, .ended])) := by
  intro g after
  have hr : Reached settings past g := run_reached settings past hn
  have hw : written s = [] := run_unwritten settings past hn hc hs
  refine ⟨hw, ?_, ?_⟩
  · obtain ⟨s', ha, hs', hi', -, hw'⟩ := skipping skipped hc hs hd hi hsk
    exact ⟨s', ha, hs', hi', hw'.trans hw⟩
  rintro f later rfl hf
  intro g'
  obtain ⟨w, r, s', hwi, hwg, hww, hdec, ha⟩ := deciding hr.listed hc hs hd hi hsk hf
  rw [hw] at hww
  refine ⟨?_, ?_, ?_⟩
  · intro token
    rw [← hdec.speaks, show g'.socket? client = some s' from ha.socket]
    simp
  · intro token n seat hrch hav seat'
    obtain ⟨rfl, rfl⟩ := hdec.admits hrch hav
    refine ⟨⟨_, ha, rfl, hwi, hww⟩, ?_, rfl, fun events hn' => ?_⟩
    · simp [seat', welcomed, welcome_signal, Signal.receive]
    · rw [← tokens_reads client past (skipped.length + 1)] at hn'
      have hg' : g' = Gateway.run { settings }
          (past ++ List.replicate (skipped.length + 1) (.read client)) := (run_append _ _ _).symm
      rw [hg']
      refine claimed_run events hn' ?_
      have hreads : tokens (past ++ List.replicate (skipped.length + 1) (.read client)) =
          tokens past := by
        simpa using tokens_reads client past (skipped.length + 1) []
      have hsound := (run_reached settings _ (hreads ▸ hn)).sound
      have hsock := ha.socket
      rw [show g.run _ = _ from hg'] at hsock
      exact claimed_of_speaks hsound hsock ((speaks_attached rfl).mpr rfl)
  · intro hno
    obtain ⟨rfl, hover, htaken, hunknown⟩ := hdec.turns_away hno
    rw [hww, hwg, List.nil_append] at htaken hunknown
    exact ⟨s', ha, hover, htaken, hunknown⟩

/-- Two sessions, and a client that sends other frames before it names one of them. -/
def oneGreeting : List Event :=
  [.start "a" ⟨none, "n", "p", "c"⟩ none, .start "b" ⟨none, "n", "p", "c"⟩ none, .connect 0,
    .frame 0 (.binary [1]), .frame 0 (.ping [2]),
    .frame 0 (.text (Wire.Envelope.bind "a").write)]

theorem first_text_decides_of_two : (tokens oneGreeting).Nodup ∧
    let g := Gateway.run {} oneGreeting
    let g' := g.run (List.replicate 3 (.read 0))
    g.shutdown = false ∧ (∃ s', g'.socket? 0 = some s' ∧ Speaks s' "a") ∧
      ∃ s, g'.registry.seat? 0 = some s ∧ s.session.signal.receive.1 = .client 0 := by
  let named : Frame := .text (Wire.Envelope.bind "a").write
  let s : Socket := { inbox := [.binary [1], .ping [2], named] }
  have hn : (tokens oneGreeting).Nodup := by decide
  have hd : (Gateway.run {} oneGreeting).shutdown = false := by decide +kernel
  have hc : (Gateway.run {} oneGreeting).socket? 0 = some s := by decide +kernel
  have hseat : ((Gateway.run {} oneGreeting).registry.seat? 0).map
      (fun t => (t.session.phase, t.session.signal)) = some (.pending, .open) := by decide +kernel
  have hlisted : (Gateway.run {} oneGreeting).registry.entry? "a" = some 0 := by decide +kernel
  have hparse : (Wire.Command.parse (Wire.Envelope.bind "a").write).toOption =
      some (.bind "a") := by decide +kernel
  obtain ⟨seat, hs, hphase⟩ := Option.map_eq_some_iff.mp hseat
  obtain ⟨hp, ho⟩ := Prod.mk.inj hphase
  have hr : Reaches (Gateway.run {} oneGreeting).registry named "a" 0 seat := by
    refine ⟨⟨_, rfl, ?_⟩, hlisted, hs, by rw [hp]; exact nofun⟩
    generalize Wire.Command.parse _ = result at hparse
    cases result with
    | ok command => simpa [Except.toOption] using hparse
    | error e => simp [Except.toOption] at hparse
  have ha : available seat.session.signal = true := by rw [ho]; rfl
  obtain ⟨-, -, hdecides⟩ := first_text_decides {} oneGreeting 0 s [.binary [1], .ping [2]] [named]
    hn hd hc rfl rfl (by decide)
  obtain ⟨hiff, hbound, -⟩ := hdecides named [] rfl rfl
  obtain ⟨⟨s', hafter, -⟩, hreceive, -⟩ := hbound "a" 0 seat hr ha
  refine ⟨hn, hd, (hiff "a").mpr ⟨0, seat, hr, ha⟩, _, ?_, hreceive⟩
  have hreg := hafter.registry
  simp only [List.length_cons, List.length_nil] at hreg
  rw [hreg]
  exact seat_set_self hs _

end PodConsole.Proofs.Handshake
