import PodConsole.Proofs.Session.Lifecycle
import Mathlib.Data.List.TakeWhile

namespace PodConsole.Proofs.Refusals
open Session Lifecycle

def isBind : Deed → Bool
  | .bind _ => true
  | _ => false

/-- Somebody tried to bind, whatever came of it. -/
def tried (deeds : List Deed) : Bool :=
  deeds.any isBind

/-- The one who waits had given up before anybody tried to bind. -/
def deserted (deeds : List Deed) : Prop :=
  .stopReceiving ∈ deeds.takeWhile fun d => !isBind d

variable {deeds : List Deed} {c : Course}

theorem tried_snoc (deeds : List Deed) (d : Deed) :
    tried (deeds ++ [d]) = (tried deeds || isBind d) := by
  simp [tried]

theorem take_while_untried (h : tried deeds = false) (d : Deed) :
    (deeds ++ [d]).takeWhile (fun d => !isBind d) = deeds ++ [d].takeWhile fun d => !isBind d := by
  apply List.takeWhile_append_of_pos
  intro e he
  have := List.any_eq_false.mp h e he
  simpa using this

/-- The first to try settles whether the session was deserted. -/
theorem deserted_snoc (h : tried deeds = true) (d : Deed) :
    deserted (deeds ++ [d]) ↔ deserted deeds := by
  obtain ⟨e, he, hb⟩ := List.any_eq_true.mp h
  have hl : (deeds.takeWhile fun d => !isBind d).length ≠ deeds.length := by
    intro hl
    have hp := (List.takeWhile_prefix (fun d => !isBind d) (l := deeds)).eq_of_length hl
    have := List.mem_takeWhile_imp (hp.symm ▸ he : e ∈ deeds.takeWhile fun d => !isBind d)
    simp [hb] at this
  rw [deserted, deserted, List.takeWhile_append, if_neg hl]

theorem deserted_bind (h : tried deeds = false) (client : Nat) :
    deserted (deeds ++ [.bind client]) ↔ .stopReceiving ∈ deeds := by
  rw [deserted, take_while_untried h]
  simp [isBind]

/-- What the signal and the answers tell of the deeds so far. -/
structure Tried (deeds : List Deed) (c : Course) : Prop where
  free : available c.session.signal = true ↔ .markClosed ∉ deeds ∧ tried deeds = false
  unheard : available c.session.signal = true →
    (c.session.signal = .unheard ↔ .stopReceiving ∈ deeds)
  answered : .markClosed ∉ deeds → tried deeds = true →
    (accepted c.replies = [] ↔ deserted deeds)

theorem tried_start (id : String) (target : Exec.Target) (hint : Option String) :
    Tried [] ⟨{ id, target, hint }, []⟩ where
  free := by simp [available, tried]
  unheard _ := by simp
  answered _ h := by cases h

theorem available_stop_receiving (signal : Signal) :
    available signal.stopReceiving = available signal := by
  cases signal <;> rfl

theorem available_receive (signal : Signal) :
    available signal.receive.2 = available signal := by
  cases signal <;> rfl

/-- A deed that is no attempt to bind gives nobody an answer of that kind. -/
theorem accepted_aside (c : Course) {d : Deed} (h : isBind d = false) :
    accepted (c.step d).replies = accepted c.replies := by
  cases d with
  | bind client => cases h
  | markRunning | markClosed | receive | stopReceiving =>
    simp [Course.step, perform, accepted_snoc, acceptedBy?]

theorem Tried.answered_aside (h : Tried deeds c) {d : Deed} (hd : isBind d = false)
    (hc : .markClosed ∉ deeds ++ [d]) (ht : tried (deeds ++ [d]) = true) :
    accepted (c.step d).replies = [] ↔ deserted (deeds ++ [d]) := by
  rw [tried_snoc, hd, Bool.or_false] at ht
  rw [accepted_aside c hd, deserted_snoc ht]
  exact h.answered (fun hm => hc (List.mem_append_left _ hm)) ht

theorem Tried.bind (h : Tried deeds c) (ho : Orderly deeds c) (client : Nat) :
    Tried (deeds ++ [.bind client]) (c.step (.bind client)) := by
  have htried : tried (deeds ++ [.bind client]) = true := by simp [tried_snoc, isBind]
  simp only [Course.step, perform]
  have hb := bind_binding c.session client
  generalize c.session.bind client = after at hb
  cases hb with
  | closed hp =>
    have hm : .markClosed ∈ deeds := ho.closed.mp hp
    have ha := ho.taken (.inr hp)
    exact ⟨by simp [ha, htried], fun hs => absurd (ha.symm.trans hs) (by simp),
      fun hc => absurd (List.mem_append_left _ hm) hc⟩
  | taken hp ha =>
    have hm : .markClosed ∉ deeds := fun hm => hp (ho.closed.mpr hm)
    have ht : tried deeds = true := by
      by_contra ht
      have := h.free.mpr ⟨hm, by simpa using ht⟩
      simp [ha] at this
    refine ⟨by simp [ha, htried], fun hs => absurd (ha.symm.trans hs) (by simp), fun _ _ => ?_⟩
    rw [accepted_snoc, deserted_snoc ht]
    simpa [acceptedBy?] using h.answered hm ht
  | unheard hp hs =>
    have hav : available c.session.signal = true := by simp [hs, available]
    have ht := (h.free.mp hav).2
    have ha : accepted c.replies = [] := (hs ▸ ho.told : Told c.replies .unheard).1
    refine ⟨by simp [available, htried], by simp [available], fun _ _ => ?_⟩
    rw [accepted_snoc, deserted_bind ht]
    simpa [acceptedBy?, ha] using (h.unheard hav).mp hs
  | first hp hs =>
    have hav : available c.session.signal = true := by simp [hs, available]
    have ht := (h.free.mp hav).2
    refine ⟨?_, ?_, fun _ _ => ?_⟩
    · simp [welcome_signal, available, htried]
    · simp [welcome_signal, available]
    · rw [accepted_snoc, deserted_bind ht, ← h.unheard hav]
      simp [acceptedBy?, hs]

theorem Tried.step (h : Tried deeds c) (ho : Orderly deeds c) (d : Deed) :
    Tried (deeds ++ [d]) (c.step d) := by
  cases d with
  | bind client => exact h.bind ho client
  | markRunning =>
    have hs : (c.step .markRunning).session.signal = c.session.signal := mark_running_signal _
    refine ⟨?_, ?_, fun hc ht => h.answered_aside rfl hc ht⟩
    · simpa [hs, tried_snoc, isBind] using h.free
    · simpa [hs] using h.unheard
  | markClosed =>
    have ha : available (c.step .markClosed).session.signal = false :=
      taken_stop_sending c.session.signal
    exact ⟨by simp [ha], fun hs => absurd (ha.symm.trans hs) nofun,
      fun hc ht => h.answered_aside rfl hc ht⟩
  | receive =>
    have hs : (c.step .receive).session.signal = c.session.signal.receive.2 := rfl
    refine ⟨?_, fun hav => ?_, fun hc ht => h.answered_aside rfl hc ht⟩
    · simpa [hs, available_receive, tried_snoc, isBind] using h.free
    · rw [hs, available_receive] at hav
      have := h.unheard hav
      cases hc : c.session.signal with
      | «open» | unheard => simpa [hs, hc, Signal.receive] using this
      | carrying n | «over» => simp [hc, available] at hav
  | stopReceiving =>
    have hs : (c.step .stopReceiving).session.signal = c.session.signal.stopReceiving := rfl
    refine ⟨?_, fun hav => ?_, fun hc ht => h.answered_aside rfl hc ht⟩
    · simpa [hs, available_stop_receiving, tried_snoc, isBind] using h.free
    · rw [hs, available_stop_receiving] at hav
      cases hc : c.session.signal with
      | «open» | unheard => simp [hs, hc, Signal.stopReceiving]
      | carrying n | «over» => simp [hc, available] at hav

theorem run_snoc (c : Course) (deeds : List Deed) (d : Deed) :
    c.run (deeds ++ [d]) = (c.run deeds).step d := by
  simp [Course.run]

theorem run_tried (id : String) (target : Exec.Target) (hint : Option String)
    (deeds : List Deed) : Tried deeds (Course.run ⟨{ id, target, hint }, []⟩ deeds) := by
  induction deeds using List.reverseRecOn with
  | nil => exact tried_start id target hint
  | append_singleton deeds d ih =>
    rw [run_snoc]
    exact ih.step (run_orderly id target hint deeds) d

theorem perform_id (s : Session) (d : Deed) : (s.perform d).2.id = s.id := by
  cases d with
  | bind client =>
    simp only [perform]
    have hb := bind_binding s client
    generalize s.bind client = after at hb
    cases hb with
    | closed hp | taken hp ha | unheard hp hs => rfl
    | first hp hs =>
      unfold welcome
      split <;> rfl
  | markRunning =>
    simp only [perform, markRunning]
    split <;> rfl
  | markClosed | receive | stopReceiving => rfl

theorem run_id (c : Course) (deeds : List Deed) : (c.run deeds).session.id = c.session.id := by
  induction deeds generalizing c with
  | nil => rfl
  | cons d rest ih => exact (ih (c.step d)).trans (perform_id c.session d)

/-- A client is told that another one has the session exactly if somebody tried to bind before and
the session was not closed. It is true if the one who waits had not given up before the first try;
if it had, nobody has the session. Every other answer is that the client is bound or that the
session is closed. -/
theorem taken_means_tried (id : String) (target : Exec.Target) (hint : Option String)
    (deeds : List Deed) (client : Nat) :
    let c := Course.run ⟨{ id, target, hint }, []⟩ deeds
    let answer := (c.session.bind client).1
    (answer = .error (.alreadyBound id) ↔ tried deeds = true ∧ .markClosed ∉ deeds) ∧
    (answer = .error (.alreadyBound id) → (accepted c.replies = [] ↔ deserted deeds)) ∧
    (answer = .ok () ∨ answer = .error (.closed id) ∨ answer = .error (.alreadyBound id)) := by
  intro c answer
  have ho : Orderly deeds c := run_orderly id target hint deeds
  have ht : Tried deeds c := run_tried id target hint deeds
  have hid : c.session.id = id := run_id _ deeds
  have hb : Binding c.session client (c.session.bind client) := bind_binding c.session client
  have hanswer : answer = (c.session.bind client).1 := rfl
  generalize c.session.bind client = after at hb hanswer
  have htaken : answer = .error (.alreadyBound id) ↔ tried deeds = true ∧ .markClosed ∉ deeds := by
    cases hb with
    | closed hp =>
      have hm : .markClosed ∈ deeds := ho.closed.mp hp
      simp [hanswer, hm]
    | taken hp ha =>
      have hm : .markClosed ∉ deeds := fun hm => hp (ho.closed.mpr hm)
      have hav := mt ht.free.mpr (by simp [ha])
      simpa [hanswer, hid, hm] using hav
    | unheard hp hs | first hp hs =>
      have hav := ht.free.mp (by simp [hs, available])
      simp [hanswer, hav]
  refine ⟨htaken, fun h => ?_, ?_⟩
  · obtain ⟨htr, hm⟩ := htaken.mp h
    exact ht.answered hm htr
  · cases hb with
    | closed hp | unheard hp hs => exact .inr (.inl (by rw [hanswer, hid]))
    | taken hp ha => exact .inr (.inr (by rw [hanswer, hid]))
    | first hp hs => exact .inl hanswer

/-- Nobody has the session, and the second to try is told that another client has it. -/
theorem taken_by_nobody :
    let c := Course.run ⟨{ id := "a", target := ⟨none, "team-a", "web-0", "app"⟩ }, []⟩
      [.stopReceiving, .bind 1]
    accepted c.replies = [] ∧ (c.session.bind 2).1 = .error (.alreadyBound "a") :=
  ⟨rfl, rfl⟩

end PodConsole.Proofs.Refusals
