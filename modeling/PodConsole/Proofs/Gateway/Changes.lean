import PodConsole.Proofs.Gateway.Turns
import PodConsole.Proofs.Session.Seats
import Mathlib.Data.List.Induction

namespace PodConsole.Proofs.Changes
open Gateway Session Pushing Roster Seats Turns
open Exec (Target)

variable {g : Gateway} {e : Event} {n m : Nat} {s t : Seat} {token : String} {client c : Nat}

/-- The session that a start would add. -/
def newSeat (g : Gateway) (token : String) (target : Target) (hint : Option String) : Seat :=
  Seat.new token target (hint.filter fun h => h ≠ "") g.settings.session.resizeQueueCapacity
    g.bindDeadline

/-- The registry with a new session in it. -/
def admitted (g : Gateway) (token : String) (target : Target) (hint : Option String) : Registry :=
  { g.registry with seats := g.registry.seats ++ [newSeat g token target hint] }.enlist token
    g.registry.seats.length

/-- A turn of the socket that speaks for a session. -/
def Own (g : Gateway) (n : Nat) (s : Seat) (e : Event) : Prop :=
  ∃ client socket token, (e = .read client ∨ e = .write client) ∧
    g.socket? client = some socket ∧ Speaks socket token ∧ Found g token n s

/-- All that one step can do to a session. -/
inductive Touch (g : Gateway) (n : Nat) (s : Seat) : Event → Seat → Prop
  | none {e : Event} : Touch g n s e s
  | bind {client : Nat} {token : String} : g.registry.get? token = some (n, s) →
      Touch g n s (.read client) (s.bind client g.connection).2
  | push {e : Event} {held : Held} : Own g n s e → (push s held).1 = .sent →
      Touch g n s e (push s held).2
  | cancel {e : Event} : Own g n s e → Touch g n s e (cancelled s)
  | stop {e : Event} : Own g n s e → Touch g n s e (s.mapConnection Connection.stopWriting)
  | said {e : Event} {frame : Wire.Envelope} {rest : List Wire.Envelope} : Own g n s e →
      s.terminal.connection.outbound.items = frame :: rest → Touch g n s e (s.mapConnection fun c =>
        { c with outbound := { s.terminal.connection.outbound with items := rest } })
  | attend {token : String} : Touch g n s (.attend token) (s.attend g.clock g.shutdown)
  | attempted {token : String} {result : Except Exec.Failure Unit} :
      Touch g n s (.attempt token result) (s.attempted result)
  | act {token : String} {a : Act} : Touch g n s (.act token a) (s.perform a).2

theorem Touch.keeps (h : Touch g n s e t) : Keeps s t := by
  cases h with
  | none => exact .refl s
  | bind hg => exact bind_keeps s _ _
  | push ho hp => exact push_keeps s _
  | cancel ho => exact connection_keeps s _
  | stop ho => exact connection_keeps s _
  | said ho hi => exact connection_keeps s _
  | attend => exact attend_keeps s _ _
  | attempted => exact attempted_keeps s _
  | act => exact perform_keeps s _

inductive Change (g : Gateway) (e : Event) : Registry → Prop
  | same : Change g e g.registry
  | started {token : String} {target : Target} {hint : Option String} :
      e = .start token target hint → g.registry.size < g.settings.session.maxSessions →
      g.registry.entry? token = none → Change g e (admitted g token target hint)
  | touched {n : Nat} {s t : Seat} : g.registry.seat? n = some s → Touch g n s e t →
      Change g e (g.registry.update n fun _ => t)
  | closed {token : String} : e = .close token → Change g e (g.registry.close token).2

/-- A step that leaves a session's lifetime alone replaces it where it is. -/
theorem Change.placed (hs : g.registry.seat? n = some s) (ht : Touch g n s e t)
    (hl : t.isOver = true → s.isOver = true) : Change g e (g.registry.setSeat n t) := by
  have hc : Change g e (g.registry.update n fun _ => t) := .touched hs ht
  rwa [update_on hs hl] at hc

theorem push_lifetime (s : Seat) (held : Held) : (push s held).2.lifetime = s.lifetime := by
  cases held <;> rfl

theorem over_of_lifetime (h : t.lifetime = s.lifetime) : t.isOver = true → s.isOver = true := by
  simp [Seat.isOver, h]

theorem own_read {socket : Socket} (hc : g.socket? client = some socket)
    (hs : Speaks socket token) (hf : Found g token n s) : Own g n s (.read client) :=
  ⟨client, socket, token, .inl rfl, hc, hs, hf⟩

theorem own_write {socket : Socket} (hc : g.socket? client = some socket)
    (hs : Speaks socket token) (hf : Found g token n s) : Own g n s (.write client) :=
  ⟨client, socket, token, .inr rfl, hc, hs, hf⟩

theorem handed_change {socket s' : Socket} {held : Held} {r : Registry}
    (hc : g.socket? client = some socket) (hs : Speaks socket token) (hf : Found g token n s)
    {sock : Socket} (h : Handed g sock token n s held r s') : Change g (.read client) r := by
  cases h with
  | sent ho =>
    exact .placed hf.seat (.push (own_read hc hs hf) ho)
      (over_of_lifetime (push_lifetime s held))
  | full ho => exact .same
  | closed ho => exact .placed hf.seat (.cancel (own_read hc hs hf)) id

theorem greeted_change {sock s' : Socket} {text : String} {r : Registry}
    (h : Greeted g client sock text r s') : Change g (.read client) r := by
  have bind {token : String} {n : Nat} {s : Seat} (hg : g.registry.get? token = some (n, s)) :
      Change g (.read client) (g.registry.setSeat n (s.bind client g.connection).2) :=
    .placed (get_iff.mp hg).2.1 (.bind hg)
      (over_of_lifetime (bind_seat s client g.connection).2.2.1)
  cases h with
  | stranger hp => exact .same
  | unknown hp hg => exact .same
  | bound hp hg ho | taken hp hg ho | refused hp hg ho hn => exact bind hg

theorem reading_change {sock s' : Socket} {r : Registry} (hc : g.socket? client = some sock)
    (h : Reading g client sock r s') : Change g (.read client) r := by
  cases h with
  | idle | done | lost | closed | skip | leave | dropped => exact .same
  | greet hs hd hi hg => exact greeted_change hg
  | offered hs hf hcl hh => exact handed_change hc (.inl ⟨_, hs⟩) hf hh
  | shut hs hf hcl hd => exact .placed hf.seat (.cancel (own_read hc (.inl ⟨_, hs⟩) hf)) id
  | routed hs hf hcl hd hi hr =>
    cases hr with
    | skipped hn hcl => exact .same
    | handed hh hr => exact handed_change hc (.inl ⟨_, hs⟩) hf hr
    | left hcl => exact .placed hf.seat (.cancel (own_read hc (.inl ⟨_, hs⟩) hf)) id

theorem writing_change {sock s' : Socket} {r : Registry} (hc : g.socket? client = some sock)
    (h : Writing g sock r s') :
    Change g (.write client) r := by
  cases h with
  | wait => exact .same
  | cut hs hf => exact .placed hf.seat (.stop (own_write hc hs hf)) id
  | said hs hf hi => exact .placed hf.seat (.said (own_write hc hs hf) hi) id
  | ended hs hf hq => exact .placed hf.seat (.cancel (own_write hc hs hf)) id

/-- A start looks for room on the roster first, and then for its token. -/
theorem start_eq (g : Gateway) (token : String) (target : Target) (hint : Option String) :
    g.start token target hint =
      if g.settings.session.maxSessions ≤ g.registry.size then
        (.error (.capacityExceeded g.settings.session.maxSessions), g)
      else if (g.registry.entry? token).isSome then (.error (.alreadyBound token), g)
      else (.ok (), { g with registry := admitted g token target hint }) := by
  let added : Registry :=
    { g.registry with seats := g.registry.seats ++ [newSeat g token target hint] }
  -- the new session is the last one, and on the roster only if it is enrolled
  have hseat : added.seat? g.registry.seats.length = some (newSeat g token target hint) := by
    simp [Registry.seat?, added]
  have henroll : added.enroll g.registry.seats.length g.settings.session.maxSessions =
      if g.settings.session.maxSessions ≤ g.registry.size then
        (.error (.capacityExceeded g.settings.session.maxSessions), added)
      else if (g.registry.entry? token).isSome then (.error (.alreadyBound token), added)
      else (.ok (), admitted g token target hint) := by
    simp only [Registry.enroll, hseat]
    rfl
  simp only [added, newSeat] at henroll
  by_cases hfull : g.settings.session.maxSessions ≤ g.registry.size
  · rw [if_pos hfull] at henroll ⊢
    simp only [Gateway.start, Registry.add, henroll]
  · rw [if_neg hfull] at henroll ⊢
    cases hentry : g.registry.entry? token <;> rw [hentry] at henroll <;>
      simp only [Gateway.start, Registry.add, henroll] <;> rfl

theorem start_registry (g : Gateway) (token : String) (target : Target) (hint : Option String) :
    (g.start token target hint).2.registry =
      if g.registry.size < g.settings.session.maxSessions ∧ g.registry.entry? token = none then
        admitted g token target hint
      else g.registry := by
  rw [start_eq]
  by_cases hfull : g.settings.session.maxSessions ≤ g.registry.size
  · rw [if_pos hfull, if_neg fun h => Nat.not_lt.mpr hfull h.1]
  · rw [if_neg hfull]
    cases hentry : g.registry.entry? token with
    | some n => simp
    | none => simp [Nat.lt_of_not_le hfull]

theorem start_change (g : Gateway) (token : String) (target : Target) (hint : Option String) :
    Change g (.start token target hint) (g.start token target hint).2.registry := by
  rw [start_registry]
  split
  · rename_i h
    exact .started rfl h.1 h.2
  · exact .same

/-- What is done to the session of a token, if there is one. -/
theorem on_session_change {f : Seat → Seat} (ht : ∀ n s, Touch g n s e (f s)) :
    Change g e (g.onSession token fun n => g.updateSeat n f).registry := by
  unfold onSession
  cases hn : g.registry.started? token with
  | none => exact .same
  | some n =>
    simp only [Option.elim_some, updateSeat]
    cases hs : g.registry.seat? n with
    | none =>
      have hu : g.registry.update n f = g.registry := by simp [Registry.update, hs]
      rw [hu]
      exact .same
    | some s =>
      have hu : g.registry.update n f = g.registry.update n fun _ => f s := by
        simp [Registry.update, hs]
      rw [hu]
      exact .touched hs (ht n s)

theorem act_change (g : Gateway) (token : String) (a : Act) :
    Change g (.act token a) (g.onSession token fun n => g.act n a).registry := by
  unfold onSession
  cases hn : g.registry.started? token with
  | none => exact .same
  | some n =>
    simp only [Option.elim_some, Gateway.act]
    split
    · rename_i session terminal attachment hs
      simp only [Gateway.perform, Registry.perform, hs]
      exact .placed hs .act id
    · exact .same

/-- A step changes one session at most, in one of the ways above. -/
theorem step_change (g : Gateway) (e : Event) : Change g e (g.step e).registry := by
  cases e with
  | start token target hint => exact start_change g token target hint
  | connect client =>
    simp only [Gateway.step, connect]
    split <;> exact .same
  | follow client source =>
    simp only [Gateway.step, follow]
    split <;> exact .same
  | frame client f => exact .same
  | cut client => exact .same
  | read client =>
    cases hc : g.socket? client with
    | none =>
      have hr : g.step (.read client) = g := by simp [Gateway.step, read?, hc]
      rw [hr]
      exact .same
    | some s =>
      obtain ⟨r, s', hr, ha⟩ := read_reading hc
      exact ha.registry ▸ reading_change hc hr
  | write client =>
    cases hc : g.socket? client with
    | none =>
      have hw : g.step (.write client) = g := by simp [Gateway.step, write?, hc]
      rw [hw]
      exact .same
    | some s =>
      obtain ⟨r, s', hw, ha⟩ := write_writing hc
      exact ha.registry ▸ writing_change hc hw
  | attend token => exact on_session_change fun n s => .attend
  | act token a => exact act_change g token a
  | attempt token result => exact on_session_change fun n s => .attempted
  | close token => exact .closed rfl
  | pass time => exact .same
  | shutdown => exact .same

/-- The client whose socket a step is about. -/
def client? : Event → Option Nat
  | .connect client | .follow client _ | .frame client _ | .cut client | .read client
  | .write client => some client
  | .start _ _ _ | .attend _ | .act _ _ | .attempt _ _ | .close _ | .pass _ | .shutdown => none

theorem on_session_socket {f : Nat → Gateway} (hf : ∀ n, (f n).socket? c = g.socket? c) :
    (g.onSession token f).socket? c = g.socket? c := by
  unfold onSession
  cases g.registry.started? token with
  | none => rfl
  | some n => exact hf n

theorem socket_follow (g : Gateway) (client c : Nat) (source : Option Log.Source) :
    (g.follow client source).socket? c =
      if c = client then some ((g.socket? c).getD (Socket.ofLog g.shutdown source))
      else g.socket? c := by
  unfold follow
  cases h : g.socket? client with
  | some s =>
    by_cases hc : c = client
    · simp [hc, h]
    · simp [hc]
  | none =>
    simp only [Option.isSome_none, Bool.false_eq_true, ↓reduceIte]
    rw [socket_append]
    by_cases hc : c = client
    · simp [hc, h]
    · simp [hc]

/-- A step leaves the sockets of all other clients alone. -/
theorem other_socket (h : client? e ≠ some c) : (g.step e).socket? c = g.socket? c := by
  cases e with
  | start token target hint =>
    simp only [Gateway.step, Gateway.start]
    split <;> rfl
  | connect client =>
    have hc : c ≠ client := fun hc => h (by simp [client?, hc])
    simp [Gateway.step, socket_connect, hc]
  | follow client source =>
    have hc : c ≠ client := fun hc => h (by simp [client?, hc])
    simp [Gateway.step, socket_follow, hc]
  | frame client f =>
    have hc : c ≠ client := fun hc => h (by simp [client?, hc])
    simp [Gateway.step, Gateway.receive, socket_update, hc]
  | cut client =>
    have hc : c ≠ client := fun hc => h (by simp [client?, hc])
    simp [Gateway.step, socket_update, hc]
  | read client =>
    have hc : c ≠ client := fun hc => h (by simp [client?, hc])
    cases hs : g.socket? client with
    | none => simp [Gateway.step, read?, hs]
    | some s =>
      obtain ⟨r, s', hr, ha⟩ := read_reading hs
      exact ha.others c hc
  | write client =>
    have hc : c ≠ client := fun hc => h (by simp [client?, hc])
    cases hs : g.socket? client with
    | none => simp [Gateway.step, write?, hs]
    | some s =>
      obtain ⟨r, s', hw, ha⟩ := write_writing hs
      exact ha.others c hc
  | attend token | attempt token result => exact on_session_socket fun n => rfl
  | act token a =>
    refine on_session_socket fun n => ?_
    unfold Gateway.act
    split <;> rfl
  | close token | pass time | shutdown => rfl

/-- Whether a step can do anything to a client's socket once it is there. -/
def moves (c : Nat) : Event → Bool
  | .frame client _ | .cut client | .read client | .write client => client = c
  | .connect _ | .follow _ _ | .start _ _ _ | .attend _ | .act _ _ | .attempt _ _ | .close _
  | .pass _ | .shutdown => false

/-- All that one step can do to a socket. -/
inductive Stepped (g : Gateway) (c : Nat) (s : Socket) : Event → Socket → Prop
  | same {e : Event} : moves c e = false → Stepped g c s e s
  | frame {f : Frame} :
      Stepped g c s (.frame c f) (s.receive (f.limit g.settings.server.maxMessageBytes))
  | cut : Stepped g c s (.cut c) s.cut
  | read {r : Registry} {s' : Socket} : Reading g c s r s' → (g.step (.read c)).registry = r →
      Stepped g c s (.read c) s'
  | write {r : Registry} {s' : Socket} : Writing g s r s' → (g.step (.write c)).registry = r →
      Stepped g c s (.write c) s'

theorem step_socket {s : Socket} (h : g.socket? c = some s) (e : Event) :
    ∃ s', (g.step e).socket? c = some s' ∧ Stepped g c s e s' := by
  by_cases hown : client? e = some c
  · cases e with
    | start | attend | act | attempt | close | pass | shutdown => cases hown
    | connect client =>
      cases hown
      exact ⟨s, by simp [Gateway.step, socket_connect, h], .same rfl⟩
    | follow client source =>
      cases hown
      exact ⟨s, by simp [Gateway.step, socket_follow, h], .same rfl⟩
    | frame client f =>
      cases hown
      exact ⟨_, by simp [Gateway.step, Gateway.receive, socket_update, h], .frame⟩
    | cut client =>
      cases hown
      exact ⟨_, by simp [Gateway.step, socket_update, h], .cut⟩
    | read client =>
      cases hown
      obtain ⟨r, s', hr, ha⟩ := read_reading h
      exact ⟨s', ha.socket, .read hr ha.registry⟩
    | write client =>
      cases hown
      obtain ⟨r, s', hw, ha⟩ := write_writing h
      exact ⟨s', ha.socket, .write hw ha.registry⟩
  · refine ⟨s, (other_socket hown).trans h, .same ?_⟩
    cases e with
    | frame client f | cut client | read client | write client =>
      simpa [moves, client?] using hown
    | connect | follow | start | attend | act | attempt | close | pass | shutdown => rfl

/-- A socket that was not there before has just been opened. -/
theorem opened_socket {s : Socket} (h : g.socket? c = none) (h' : (g.step e).socket? c = some s) :
    (e = .connect c ∧ s = {}) ∨
      ∃ source, e = .follow c source ∧ s = Socket.ofLog g.shutdown source := by
  by_cases hown : client? e = some c
  · cases e with
    | start | attend | act | attempt | close | pass | shutdown => cases hown
    | connect client =>
      cases hown
      exact .inl ⟨rfl, by simpa [Gateway.step, socket_connect, h, eq_comm] using h'⟩
    | follow client source =>
      cases hown
      exact .inr ⟨source, rfl, by simpa [Gateway.step, socket_follow, h, eq_comm] using h'⟩
    | frame client f =>
      cases hown
      simp [Gateway.step, Gateway.receive, socket_update, h] at h'
    | cut client =>
      cases hown
      simp [Gateway.step, socket_update, h] at h'
    | read client =>
      cases hown
      simp [Gateway.step, read?, h] at h'
    | write client =>
      cases hown
      simp [Gateway.step, write?, h] at h'
  · rw [other_socket hown, h] at h'
    cases h'

theorem new_socket {s : Socket} (h : g.socket? c = none) (h' : (g.step e).socket? c = some s) :
    s = {} ∨ ∃ source, s = Socket.ofLog g.shutdown source :=
  (opened_socket h h').imp And.right fun ⟨source, _, hs⟩ => ⟨source, hs⟩

/-- The settings stay, and a shutdown is for good. -/
theorem step_lasting (g : Gateway) (e : Event) :
    (g.step e).settings = g.settings ∧ (g.shutdown = true → (g.step e).shutdown = true) := by
  have session (token : String) {f : Nat → Gateway}
      (hf : ∀ n, (f n).settings = g.settings ∧ (f n).shutdown = g.shutdown) :
      (g.onSession token f).settings = g.settings ∧
        (g.shutdown = true → (g.onSession token f).shutdown = true) := by
    unfold onSession
    cases g.registry.started? token with
    | none => exact ⟨rfl, id⟩
    | some n => exact ⟨(hf n).1, fun h => (hf n).2.trans h⟩
  cases e with
  | start token target hint =>
    simp only [Gateway.step, Gateway.start]
    split <;> exact ⟨rfl, id⟩
  | connect client =>
    simp only [Gateway.step, connect]
    split <;> exact ⟨rfl, id⟩
  | follow client source =>
    simp only [Gateway.step, follow]
    split <;> exact ⟨rfl, id⟩
  | read client =>
    cases hs : g.socket? client with
    | none => simp [Gateway.step, read?, hs]
    | some s =>
      obtain ⟨r, s', hr, ha⟩ := read_reading hs
      exact ⟨ha.settings, fun h => ha.shutdown.trans h⟩
  | write client =>
    cases hs : g.socket? client with
    | none => simp [Gateway.step, write?, hs]
    | some s =>
      obtain ⟨r, s', hw, ha⟩ := write_writing hs
      exact ⟨ha.settings, fun h => ha.shutdown.trans h⟩
  | attend token | attempt token result => exact session token fun n => ⟨rfl, rfl⟩
  | act token a =>
    refine session token fun n => ?_
    unfold Gateway.act
    split <;> exact ⟨rfl, rfl⟩
  | frame client f | cut client | close token | pass time => exact ⟨rfl, id⟩
  | shutdown => exact ⟨rfl, fun _ => rfl⟩

theorem step_settings (g : Gateway) (e : Event) : (g.step e).settings = g.settings :=
  (step_lasting g e).1

theorem running_before (h : (g.step e).shutdown = false) : g.shutdown = false := by
  cases hg : g.shutdown with
  | false => rfl
  | true =>
    rw [(step_lasting g e).2 hg] at h
    cases h

/-- The token that a step brings in. -/
def token? : Event → Option String
  | .start token _ _ => some token
  | _ => none

/-- The tokens of all starts. -/
def tokens (events : List Event) : List String :=
  events.filterMap token?

theorem run_snoc (g : Gateway) (events : List Event) (e : Event) :
    g.run (events ++ [e]) = (g.run events).step e := by
  simp [Gateway.run]

theorem run_append (g : Gateway) (events more : List Event) :
    g.run (events ++ more) = (g.run events).run more :=
  List.foldl_append

theorem tokens_append (events more : List Event) :
    tokens (events ++ more) = tokens events ++ tokens more :=
  List.filterMap_append

theorem tokens_snoc (events : List Event) (e : Event) :
    tokens (events ++ [e]) = tokens events ++ (token? e).toList := by
  cases h : token? e <;> simp [tokens, h]

/-- What a step keeps, with a token that is new if it brings one, is kept by every run. -/
theorem run_keeps {p : List Event → Gateway → Prop} (start : p [] g)
    (step : ∀ past g' e, p past g' → (∀ token, token? e = some token → token ∉ tokens past) →
      p (past ++ [e]) (g'.step e))
    (events : List Event) (hn : (tokens events).Nodup) : p events (g.run events) := by
  induction events using List.reverseRecOn with
  | nil => exact start
  | append_singleton past e ih =>
    rw [tokens_snoc, List.nodup_append] at hn
    rw [run_snoc]
    refine step past _ e (ih hn.1) ?_
    intro token ht hm
    exact hn.2.2 token hm token (by simp [ht]) rfl

end PodConsole.Proofs.Changes
