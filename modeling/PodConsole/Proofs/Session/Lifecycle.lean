import PodConsole.Session.Course
import Mathlib.Data.List.Infix

namespace PodConsole.Proofs.Lifecycle
open Session

def rank : Phase → Nat
  | .pending => 0
  | .bound => 1
  | .running => 2
  | .closed => 3

/-- Somebody may still bind, as far as the session knows. -/
def available : Signal → Bool
  | .open | .unheard => true
  | .carrying _ | .over => false

def acceptedBy? : Reply → Option Nat
  | .bound client (.ok ()) => some client
  | _ => none

def receivedBy? : Reply → Option Nat
  | .arrival (.client n) => some n
  | _ => none

/-- The clients that were told that they are bound, in order. -/
def accepted (replies : List Reply) : List Nat :=
  replies.filterMap acceptedBy?

/-- The clients that were handed over, in order. -/
def received (replies : List Reply) : List Nat :=
  replies.filterMap receivedBy?

theorem accepted_snoc (replies : List Reply) (r : Reply) :
    accepted (replies ++ [r]) = accepted replies ++ (acceptedBy? r).toList := by
  cases h : acceptedBy? r <;> simp [accepted, h]

theorem received_snoc (replies : List Reply) (r : Reply) :
    received (replies ++ [r]) = received replies ++ (receivedBy? r).toList := by
  cases h : receivedBy? r <;> simp [received, h]

/-- How far the signal has come decides who was accepted and who was handed over. -/
def Told (replies : List Reply) : Signal → Prop
  | .open | .unheard => accepted replies = [] ∧ received replies = []
  | .carrying n => accepted replies = [n] ∧ received replies = []
  | .over => (accepted replies).length ≤ 1 ∧ received replies <+: accepted replies

structure Orderly (deeds : List Deed) (c : Course) : Prop where
  told : Told c.replies c.session.signal
  taken : c.session.phase = .bound ∨ c.session.phase = .closed →
    available c.session.signal = false
  closed : c.session.phase = .closed ↔ .markClosed ∈ deeds

theorem orderly_start (id : String) (target : Exec.Target) (hint : Option String) :
    Orderly [] ⟨{ id, target, hint }, []⟩ where
  told := ⟨rfl, rfl⟩
  taken h := by rcases h with h | h <;> cases h
  closed := by simp

variable {deeds : List Deed} {c : Course}

/-- The session once a client is on its way to the one who waits. -/
def welcome (s : Session) (client : Nat) : Session :=
  if s.phase = .pending then { s with signal := .carrying client }.enter .bound
  else { s with signal := .carrying client }

inductive Binding (s : Session) (client : Nat) : Except SessionError Unit × Session → Prop
  | closed : s.phase = .closed → Binding s client (.error (.closed s.id), s)
  | taken : s.phase ≠ .closed → available s.signal = false →
      Binding s client (.error (.alreadyBound s.id), s)
  | unheard : s.phase ≠ .closed → s.signal = .unheard →
      Binding s client (.error (.closed s.id), { s with signal := .over })
  | first : s.phase ≠ .closed → s.signal = .open → Binding s client (.ok (), welcome s client)

theorem bind_binding (s : Session) (client : Nat) : Binding s client (s.bind client) := by
  unfold Session.bind
  by_cases hp : s.phase = .closed
  · rw [if_pos (by simpa [isClosed] using hp)]
    exact .closed hp
  · rw [if_neg (by simpa [isClosed] using hp)]
    cases hs : s.signal with
    | «open» => exact .first hp hs
    | carrying n => exact .taken hp (by simp [available, hs])
    | unheard => exact .unheard hp hs
    | «over» => exact .taken hp (by simp [available, hs])

theorem welcome_signal (s : Session) (client : Nat) :
    (welcome s client).signal = .carrying client := by
  unfold welcome
  split <;> rfl

theorem welcome_closed (s : Session) (client : Nat) :
    (welcome s client).phase = .closed ↔ s.phase = .closed := by
  unfold welcome
  split
  · rename_i h
    simp [enter, h]
  · rfl

theorem mark_running_signal (s : Session) : s.markRunning.signal = s.signal := by
  unfold markRunning
  split <;> rfl

theorem mark_running_phase (s : Session) :
    s.markRunning.phase = if s.phase = .closed then .closed else .running := by
  unfold markRunning
  split
  · rename_i h
    simp [enter, h]
  · rename_i h
    simp [enter, h]
  · rename_i h
    simp [h]
  · rename_i h
    simp [h]

theorem perform_forward (s : Session) (d : Deed) : rank s.phase ≤ rank (s.perform d).2.phase := by
  cases d with
  | bind client =>
    simp only [perform]
    have hb := bind_binding s client
    generalize s.bind client = after at hb
    cases hb with
    | closed hp | taken hp hs | unheard hp hs => exact Nat.le_refl _
    | first hp hs =>
      unfold welcome
      split
      · rename_i h
        simp [enter, rank, h]
      · exact Nat.le_refl _
  | markRunning =>
    simp only [perform, mark_running_phase]
    cases s.phase <;> simp [rank]
  | markClosed =>
    simp only [perform, markClosed, enter]
    cases s.phase <;> simp [rank]
  | receive | stopReceiving => exact Nat.le_refl _

/-- What was said was not about any client. -/
theorem Told.aside {replies : List Reply} {signal : Signal} (h : Told replies signal) {r : Reply}
    (ha : acceptedBy? r = none) (hr : receivedBy? r = none) : Told (replies ++ [r]) signal := by
  have he : accepted (replies ++ [r]) = accepted replies := by simp [accepted_snoc, ha]
  have hz : received (replies ++ [r]) = received replies := by simp [received_snoc, hr]
  cases signal with
  | «open» | unheard | carrying n | «over» => simpa only [Told, he, hz] using h

theorem Told.end {replies : List Reply} {signal : Signal} (h : Told replies signal) :
    Told replies .over := by
  cases signal with
  | «open» | unheard | carrying n =>
    obtain ⟨ha, hr⟩ := h
    simp [Told, ha, hr]
  | «over» => exact h

theorem Told.stopSending {replies : List Reply} {signal : Signal} (h : Told replies signal) :
    Told replies signal.stopSending := by
  cases signal with
  | carrying n => exact h
  | «open» | unheard | «over» => exact h.end

theorem Told.stopReceiving {replies : List Reply} {signal : Signal} (h : Told replies signal) :
    Told replies signal.stopReceiving := by
  cases signal with
  | «open» | unheard => exact h
  | carrying n | «over» => exact h.end

theorem Told.carry {replies : List Reply} (h : Told replies .open) (client : Nat) :
    Told (replies ++ [.bound client (.ok ())]) (.carrying client) := by
  obtain ⟨ha, hr⟩ := h
  exact ⟨by simp [accepted_snoc, ha, acceptedBy?], by simp [received_snoc, hr, receivedBy?]⟩

theorem Told.receive {replies : List Reply} {signal : Signal} (h : Told replies signal) :
    Told (replies ++ [.arrival signal.receive.1]) signal.receive.2 := by
  cases signal with
  | carrying n =>
    obtain ⟨ha, hr⟩ := h
    have he : accepted (replies ++ [.arrival (.client n)]) = [n] := by
      simp [accepted_snoc, ha, acceptedBy?]
    have hz : received (replies ++ [.arrival (.client n)]) = [n] := by
      simp [received_snoc, hr, receivedBy?]
    simp [Signal.receive, Told, he, hz]
  | «open» | unheard | «over» => exact h.aside rfl rfl

theorem taken_stop_sending (signal : Signal) : available signal.stopSending = false := by
  cases signal <;> rfl

theorem taken_stop_receiving {signal : Signal} (h : available signal = false) :
    available signal.stopReceiving = false := by
  cases signal with
  | carrying n | «over» => rfl
  | «open» | unheard => cases h

theorem taken_receive {signal : Signal} (h : available signal = false) :
    available signal.receive.2 = false := by
  cases signal with
  | carrying n | «over» => rfl
  | «open» | unheard => cases h

theorem Orderly.bind (h : Orderly deeds c) (client : Nat) :
    Orderly (deeds ++ [.bind client]) (c.step (.bind client)) := by
  simp only [Course.step, perform]
  have hb := bind_binding c.session client
  generalize c.session.bind client = after at hb
  cases hb with
  | closed hp | taken hp hs =>
    exact ⟨h.told.aside rfl rfl, h.taken, by simpa using h.closed⟩
  | unheard hp hs => exact ⟨h.told.end.aside rfl rfl, fun _ => rfl, by simpa using h.closed⟩
  | first hp hs =>
    refine ⟨?_, ?_, ?_⟩
    · have ht : Told c.replies .open := hs ▸ h.told
      simpa only [welcome_signal] using ht.carry client
    · intro _
      simp [welcome_signal, available]
    · simpa [welcome_closed] using h.closed

theorem Orderly.mark_running (h : Orderly deeds c) :
    Orderly (deeds ++ [.markRunning]) (c.step .markRunning) := by
  have hc : c.session.markRunning.phase = .closed ↔ c.session.phase = .closed := by
    rw [mark_running_phase]
    split
    · rename_i hp
      simp [hp]
    · rename_i hp
      simp [hp]
  refine ⟨?_, ?_, ?_⟩
  · simpa only [Course.step, perform, mark_running_signal] using h.told.aside rfl rfl
  · simp only [Course.step, perform, mark_running_signal]
    rintro (hp | hp)
    · rw [mark_running_phase] at hp
      split at hp <;> cases hp
    · exact h.taken (.inr (hc.mp hp))
  · simpa [Course.step, perform, hc] using h.closed

theorem Orderly.step (h : Orderly deeds c) (d : Deed) : Orderly (deeds ++ [d]) (c.step d) := by
  cases d with
  | bind client => exact h.bind client
  | markRunning => exact h.mark_running
  | markClosed =>
    exact ⟨h.told.stopSending.aside rfl rfl, fun _ => taken_stop_sending _,
      by simp [Course.step, perform, markClosed, enter]⟩
  | receive =>
    exact ⟨h.told.receive, fun hp => taken_receive (h.taken hp),
      by simpa [Course.step, perform] using h.closed⟩
  | stopReceiving =>
    exact ⟨h.told.stopReceiving.aside rfl rfl, fun hp => taken_stop_receiving (h.taken hp),
      by simpa [Course.step, perform] using h.closed⟩

theorem run_orderly (id : String) (target : Exec.Target) (hint : Option String)
    (deeds : List Deed) :
    Orderly deeds (Course.run ⟨{ id, target, hint }, []⟩ deeds) := by
  induction deeds using List.reverseRecOn with
  | nil => exact orderly_start id target hint
  | append_singleton deeds d ih =>
    simpa only [Course.run, List.foldl_append, List.foldl_cons, List.foldl_nil] using ih.step d

theorem run_forward (c : Course) (deeds : List Deed) :
    rank c.session.phase ≤ rank (c.run deeds).session.phase := by
  induction deeds generalizing c with
  | nil => exact Nat.le_refl _
  | cons d rest ih => exact Nat.le_trans (perform_forward c.session d) (ih (c.step d))

/-- A session's phases only go forward, and closed is the last. The first closing is told that it
is, and no other. One client at most is accepted, and it is the only one that the one who waits can
be handed, once; it is there for the one who waits as soon as it is accepted. A client that is
refused changes no phase and does not reach the one who waits. Once a session is bound or closed,
nobody can bind any more. -/
theorem life_of_a_session (id : String) (target : Exec.Target) (hint : Option String)
    (deeds : List Deed) :
    let c := Course.run ⟨{ id, target, hint }, []⟩ deeds
    (∀ later, rank c.session.phase ≤ rank (c.run later).session.phase ∧
      (c.session.phase = .closed → (c.run later).session.phase = .closed)) ∧
    (c.session.markClosed.1 = true ↔ .markClosed ∉ deeds) ∧
    (accepted c.replies).length ≤ 1 ∧
    received c.replies <+: accepted c.replies ∧
    (∀ client, (c.session.bind client).1 = .ok () →
      (c.session.bind client).2.signal.receive.1 = .client client) ∧
    (∀ client e, (c.session.bind client).1 = .error e →
      (c.session.bind client).2.phase = c.session.phase ∧
      ∀ n, (c.session.bind client).2.signal.receive.1 = .client n ↔
        c.session.signal.receive.1 = .client n) ∧
    (c.session.phase = .bound ∨ c.session.phase = .closed →
      available c.session.signal = false) := by
  intro c
  have ho : Orderly deeds c := run_orderly id target hint deeds
  refine ⟨?_, ?_, ?_, ?_, ?_, ?_, ho.taken⟩
  · intro later
    have hf := run_forward c later
    refine ⟨hf, fun hp => ?_⟩
    rw [hp] at hf
    cases hl : (c.run later).session.phase with
    | pending | bound | running => simp [hl, rank] at hf
    | closed => rfl
  · simp [markClosed, isClosed, ho.closed]
  · exact ho.told.end.1
  · exact ho.told.end.2
  · intro client hk
    have hb := bind_binding c.session client
    generalize c.session.bind client = after at hb hk
    cases hb with
    | closed hp | taken hp hs | unheard hp hs => cases hk
    | first hp hs => rw [welcome_signal, Signal.receive]
  · intro client e he
    have hb := bind_binding c.session client
    generalize c.session.bind client = after at hb he
    cases hb with
    | closed hp | taken hp hs => exact ⟨rfl, fun n => Iff.rfl⟩
    | unheard hp hs => exact ⟨rfl, by simp [hs, Signal.receive]⟩
    | first hp hs => cases he

end PodConsole.Proofs.Lifecycle
