import PodConsole.Rehearsal.Desk
import PodConsole.Kubectl.Launch
import PodConsole.Proofs.Exec.Choosing
import PodConsole.Proofs.Kubectl.Exchanges

namespace PodConsole.Proofs.Desks
open Exec Kubectl Rehearsal Exchange Exchanges Sending Choosing
open Session (Act Answer Queue Terminal)
open Wire (Envelope)

def Reaches (x y : Exchange) : Prop :=
  ∃ events, x.run events = y

theorem Reaches.refl (x : Exchange) : Reaches x x :=
  ⟨[], rfl⟩

theorem Reaches.trans {x y z : Exchange} (h : Reaches x y) (h' : Reaches y z) : Reaches x z := by
  obtain ⟨events, rfl⟩ := h
  obtain ⟨more, rfl⟩ := h'
  exact ⟨events ++ more, by simp [Exchange.run]⟩

theorem reaches_step (x : Exchange) (e : Event) : Reaches x (x.step e) :=
  ⟨[e], rfl⟩

/-- There is room for one frame, for everything sent was taken. -/
def Roomy (t : Terminal) : Prop :=
  t.connection.outbound.items = [] ∧ 0 < t.connection.outbound.capacity

structure Plays (x : Exchange) (p : Desk.Course) (d : Desk) : Prop where
  attempt : x.attempt = p.attempt
  terminal : x.terminal = d.terminal
  waiting : x.waiting = none
  roomy : Roomy d.terminal

/-- The client has done something, and the attempt does not know of it yet. -/
structure Served (x y : Exchange) (t : Terminal) : Prop where
  reaches : Reaches x y
  attempt : y.attempt = x.attempt
  waiting : y.waiting = x.waiting
  terminal : y.terminal = t

theorem Served.trans {x y z : Exchange} {t u : Terminal} (h : Served x y t) (h' : Served y z u) :
    Served x z u :=
  ⟨h.reaches.trans h'.reaches, h'.attempt.trans h.attempt, h'.waiting.trans h.waiting, h'.terminal⟩

def emptied (t : Terminal) : Terminal :=
  t.mapConnection fun c => { c with outbound := { c.outbound with items := [] } }

theorem take_all (x : Exchange) : ∃ y, Served x y (emptied x.terminal) := by
  generalize hi : x.terminal.connection.outbound.items = frames
  induction frames generalizing x with
  | nil =>
    have ht : emptied x.terminal = x.terminal := by
      rw [emptied, ← hi]
      rfl
    exact ⟨x, .refl x, rfl, rfl, ht.symm⟩
  | cons frame frames ih =>
    have hs : x.step (.client .take) = { x.mapConnection fun c =>
        { c with outbound := { c.outbound with items := frames } } with
        seen := x.seen ++ [frame] } := by
      simp only [Exchange.step, Exchange.client, Queue.poll, hi]
      rfl
    obtain ⟨y, hy⟩ := ih (x.step (.client .take)) (by rw [hs]; rfl)
    refine ⟨y, (reaches_step x _).trans hy.reaches, ?_, ?_, ?_⟩
    · rw [hy.attempt, hs]
      rfl
    · rw [hy.waiting, hs]
      rfl
    · rw [hy.terminal, hs]
      rfl

theorem type_served (x : Exchange) (d : Desk) (h : x.terminal = d.terminal) (text : String) :
    Served x (x.step (.client (.keys text))) (d.type text).terminal :=
  ⟨reaches_step x _, rfl, rfl, by rw [Desk.type, ← h]; rfl⟩

theorem reply_served (replies : List (String × String)) (d : Desk) (x : Exchange)
    (h : x.terminal = d.terminal) :
    ∃ y, Served x y (d.reply replies).terminal ∧
      y.terminal.connection.outbound = x.terminal.connection.outbound := by
  induction replies generalizing d x with
  | nil => exact ⟨x, ⟨.refl x, rfl, rfl, h⟩, rfl⟩
  | cons reply replies ih =>
    obtain ⟨needle, text⟩ := reply
    unfold Desk.reply
    split
    · have hs := type_served x d h text
      obtain ⟨y, hy, ho⟩ := ih (d.type text) _ hs.terminal
      exact ⟨y, hs.trans hy, ho⟩
    · exact ⟨x, ⟨.refl x, rfl, rfl, h⟩, rfl⟩

theorem cancel_served (x : Exchange) (leaves : Bool) :
    ∃ y, Served x y (x.terminal.mapConnection fun c =>
      { c with cancelled := c.cancelled || leaves }) := by
  cases leaves with
  | true =>
    refine ⟨x.step (.client .cancel), reaches_step x _, rfl, rfl, ?_⟩
    simp only [Bool.or_true]
    rfl
  | false => exact ⟨x, .refl x, rfl, rfl, by simp [Terminal.mapConnection]⟩

theorem look_eq (d : Desk) : ∃ (leaves : Bool) (after : Desk),
    d.look = after.reply d.replies ∧ after.terminal = (emptied d.terminal).mapConnection fun c =>
      { c with cancelled := c.cancelled || leaves } :=
  ⟨_, _, rfl, rfl⟩

theorem look_served (x : Exchange) (d : Desk) (h : x.terminal = d.terminal)
    (hc : 0 < d.terminal.connection.outbound.capacity) :
    ∃ y, Served x y d.look.terminal ∧ Roomy d.look.terminal := by
  obtain ⟨leaves, after, he, ht⟩ := look_eq d
  obtain ⟨y, hy⟩ := take_all x
  obtain ⟨z, hz⟩ := cancel_served y leaves
  have hd : z.terminal = after.terminal := by rw [hz.terminal, hy.terminal, h, ht]
  obtain ⟨w, hw, ho⟩ := reply_served d.replies after z hd
  rw [he]
  refine ⟨w, (hy.trans hz).trans hw, ?_⟩
  rw [← hw.terminal, Roomy, ho, hd, ht]
  exact ⟨rfl, hc⟩

theorem tell_attempt (x : Exchange) (e : Attempt.Event) :
    (x.tell e).attempt = x.attempt.step e ∧ (x.tell e).terminal = x.terminal := by
  unfold Exchange.tell
  split
  · exact ⟨rfl, rfl⟩
  · rename_i h
    simp [Attempt.step, h]

theorem tell_waiting {x : Exchange} (h : x.waiting = none) (e : Attempt.Event) :
    (x.tell e).waiting = none := by
  unfold Exchange.tell
  split
  · rfl
  · exact h

variable {x : Exchange} {p q : Desk.Course} {d : Desk}

theorem Plays.feed (h : Plays x p d) (e : Attempt.Event) : Plays (x.tell e) (p.feed e) d where
  attempt := by rw [(tell_attempt x e).1, h.attempt]; rfl
  terminal := (tell_attempt x e).2.trans h.terminal
  waiting := tell_waiting h.waiting e
  roomy := h.roomy

theorem Plays.same (h : Plays x p d) (ha : q.attempt = p.attempt) : Plays x q d :=
  ⟨h.attempt.trans ha.symm, h.terminal, h.waiting, h.roomy⟩

/-- The process or the clock has done something, or nothing of note. -/
def Passes (p q : Desk.Course) : Prop :=
  q.attempt = p.attempt ∨
    ∃ e, isFromProcess e = true ∧ q.attempt = p.attempt.step e

theorem output_passes (p : Desk.Course) (now : Nat) (bytes : Text.Bytes) :
    Passes p (p.output now bytes) := by
  unfold Desk.Course.output
  split
  · exact .inl rfl
  · exact .inr ⟨.output bytes, rfl, rfl⟩

theorem run_passes {now : Nat} (h : p.run? now = some q) : Passes p q := by
  unfold Desk.Course.run? at h
  split at h
  · cases h
    exact output_passes { p with script := _ } now _
  · obtain ⟨⟨y, script⟩, _, rfl⟩ := Option.map_eq_some_iff.mp h
    exact output_passes { p with script := _ } now _

theorem end_passes {now : Nat} (h : p.end? now = some q) : Passes p q := by
  unfold Desk.Course.end? at h
  split at h
  · split at h
    · cases h
      exact .inr ⟨.outputEnd, rfl, rfl⟩
    · obtain ⟨code, _, rfl⟩ := Option.map_eq_some_iff.mp h
      exact .inr ⟨.exit code, rfl, rfl⟩
  · split at h
    · cases h
      exact .inr ⟨.outputEnd, rfl, rfl⟩
    · split at h
      · cases h
        exact .inr ⟨.drained, rfl, rfl⟩
      · cases h
  · cases h

theorem timer_passes {now : Nat} (h : p.timer? now = some q) : Passes p q := by
  unfold Desk.Course.timer? at h
  split at h
  · cases h
  · split at h
    · dsimp only at h
      split at h
      · cases h
        exact .inr ⟨.settle, rfl, rfl⟩
      · cases h
    · split at h
      · cases h
        exact .inr ⟨.deadline, rfl, rfl⟩
      · cases h

theorem Plays.passes (h : Plays x p d) (hp : Passes p q) : ∃ y, Reaches x y ∧ Plays y q d := by
  rcases hp with ha | ⟨e, he, ha⟩
  · exact ⟨x, .refl x, h.same ha⟩
  · have hs : x.step (.process e) = x.tell e := by simp [Exchange.step, he]
    exact ⟨x.tell e, hs ▸ reaches_step x (.process e), (h.feed e).same ha⟩

theorem Plays.moved (h : Plays x p d) {t : Terminal} (ht : SameOutput d.terminal t) :
    Plays { x with terminal := t } p { d with terminal := t } :=
  ⟨h.attempt, rfl, h.waiting, by rw [Roomy, ht.2]; exact h.roomy⟩

theorem Plays.input (h : Plays x p d) {d' : Desk} (hi : p.input? d = some (q, d')) :
    ∃ y, Reaches x y ∧ Plays y q d' := by
  unfold Desk.Course.input? at hi
  split at hi
  · cases hi
  · rename_i hg
    have hf : x.attempt.stage.isForwarding = true := by
      simp only [Bool.or_eq_true, Bool.not_eq_true', not_or, Bool.not_eq_false] at hg
      rw [h.attempt]
      exact hg.1
    have hl := reaches_step x .listen
    have hm := reaches_step x .measure
    simp only [Exchange.step, Exchange.listen, Exchange.measure, hf, h.terminal] at hl hm
    split at hi
    · rename_i bytes t hr
      have ht := read_same d.terminal
      rw [hr] at hl ht
      cases hi
      exact ⟨_, hl, (h.moved ht).feed (.keys bytes)⟩
    · rename_i t hr
      rw [hr] at hl
      cases hi
      exact ⟨_, hl, h.feed .left⟩
    · split at hi
      · rename_i size t hr
        have ht := next_size_same d.terminal
        rw [hr] at hm ht
        cases hi
        exact ⟨_, hm, (h.moved ht).feed (.size size)⟩
      · rename_i t hr
        rw [hr] at hm
        cases hi
        exact ⟨_, hm, h.feed .left⟩
      · cases hi

theorem perform_roomy {t : Terminal} {act : Act} (hr : Roomy t) (ha : isSpeaking act = true) :
    (∀ frame, (t.perform act).1 ≠ .full frame) ∧
      0 < (t.perform act).2.connection.outbound.capacity := by
  have hp := perform_performed (t := t) ha
  generalize t.perform act = r at hp
  obtain ⟨hi, hc⟩ := hr
  cases hp with
  | silent | refused | done => exact ⟨fun _ => by simp, hc⟩
  | full _ hl =>
    rw [hi] at hl
    exact absurd hl (Nat.not_le_of_lt hc)

/-- Nothing has to wait where there is room. -/
theorem perform_attempt {x : Exchange} {act : Act}
    (hn : ∀ frame, (x.terminal.perform act).1 ≠ .full frame) (hw : x.waiting = none) :
    (x.perform act).attempt = x.attempt.step
      (if (x.terminal.perform act).1 = .refused then .refused else .taken) ∧
    (x.perform act).terminal = (x.terminal.perform act).2 ∧ (x.perform act).waiting = none := by
  unfold Exchange.perform
  dsimp only
  split
  · rename_i frame ha
    exact (hn frame ha).elim
  · rename_i ha
    rw [if_pos ha]
    refine ⟨(tell_attempt _ _).1, (tell_attempt _ _).2, ?_⟩
    apply tell_waiting
    exact hw
  · rename_i ha
    rw [if_neg ha]
    refine ⟨(tell_attempt _ _).1, (tell_attempt _ _).2, ?_⟩
    apply tell_waiting
    rfl

theorem Plays.act (h : Plays x p d) {act : Act} (ha : p.attempt.act? = some act) :
    ∃ y, Reaches x y ∧
      Plays y (p.feed (if (d.terminal.perform act).1 = .refused then .refused else .taken))
        { d with terminal := (d.terminal.perform act).2 }.look := by
  obtain ⟨hn, hc⟩ := perform_roomy h.roomy (act_speaking ha)
  have ht : x.step .turn = { x with calls := x.calls ++ [act] }.perform act := by
    simp only [Exchange.step, Exchange.turn, h.waiting, h.attempt, ha]
  rw [← h.terminal] at hn hc ⊢
  obtain ⟨hs, hu, hw⟩ := perform_attempt (x := { x with calls := x.calls ++ [act] }) hn h.waiting
  obtain ⟨y, hy, hr⟩ := look_served ({ x with calls := x.calls ++ [act] }.perform act)
    { d with terminal := (x.terminal.perform act).2 } hu hc
  refine ⟨y, (ht ▸ reaches_step x .turn).trans hy.reaches, ?_, hy.terminal, ?_, hr⟩
  · rw [hy.attempt, hs, h.attempt]
    rfl
  · rw [hy.waiting, hw]

/-- The exchange can come to the end that a desk has seen. A desk that gets stuck reports that the
client is gone. -/
def Played (x : Exchange) (r : Except Failure Unit × Desk) : Prop :=
  ∃ y, Reaches x y ∧ y.terminal = r.2.terminal ∧ Roomy r.2.terminal ∧
    (y.attempt.stage = .over r.1 ∨ r.1 = .error .disconnected)

theorem Played.after {x y : Exchange} {r : Except Failure Unit × Desk} (hr : Reaches x y)
    (h : Played y r) : Played x r := by
  obtain ⟨z, hz, h⟩ := h
  exact ⟨z, hr.trans hz, h⟩

theorem Plays.stuck (h : Plays x p d) : Played x (.error .disconnected, d) :=
  ⟨x, .refl x, h.terminal, h.roomy, .inr rfl⟩

theorem Plays.play (fuel : Nat) (h : Plays x p d) : Played x (Desk.playIn fuel p d) := by
  induction fuel generalizing x p d with
  | zero => exact h.stuck
  | succ fuel ih =>
    unfold Desk.playIn
    split
    · rename_i result hs
      exact ⟨x, .refl x, h.terminal, h.roomy, .inl (by rw [h.attempt, hs])⟩
    · split
      · rename_i act ha
        obtain ⟨y, hy, hp⟩ := h.act ha
        exact (ih hp).after hy
      · split
        · rename_i hi
          obtain ⟨y, hy, hp⟩ := h.input hi
          exact (ih hp).after hy
        · split
          · rename_i q hq
            have hp : Passes p q := by
              rcases Option.or_eq_some_iff.mp hq with hq | ⟨_, hq⟩
              · exact run_passes hq
              · rcases Option.or_eq_some_iff.mp hq with hq | ⟨_, hq⟩
                · exact end_passes hq
                · exact timer_passes hq
            obtain ⟨y, hy, hp⟩ := h.passes hp
            exact (ih hp).after hy
          · split
            · rename_i time _
              have hc : Plays x p { d with clock := time } :=
                ⟨h.attempt, h.terminal, h.waiting, h.roomy⟩
              exact ih hc
            · exact h.stuck

theorem run_exchange (l : Launch) (events : List Event) :
    l.run (events.map .exchange) = { l with current := l.current.run events } := by
  induction events generalizing l with
  | nil => rfl
  | cons e events ih => exact ih (l.step (.exchange e))

theorem launch_run_append (l : Launch) (events more : List Launch.Event) :
    l.run (events ++ more) = (l.run events).run more := by
  simp [Launch.run]

/-- What can be played can be played by the attempt that a launch is at. -/
def Launched (l : Launch) (r : Except Failure Unit × Desk) : Prop :=
  ∃ events y, l.run events = { l with current := y } ∧ y.terminal = r.2.terminal ∧
    Roomy r.2.terminal ∧ (y.attempt.stage = .over r.1 ∨ r.1 = .error .disconnected)

theorem Played.launched {l : Launch} {r : Except Failure Unit × Desk} (h : Played l.current r) :
    Launched l r := by
  obtain ⟨y, ⟨events, he⟩, h⟩ := h
  refine ⟨events.map .exchange, y, ?_, h⟩
  rw [run_exchange, he]

theorem exec_launched (l : Launch) (shell : Shell) (d : Desk) (hr : Roomy d.terminal)
    (hl : l.current = .start shell.name d.terminal) : Launched l (Desk.exec shell d) := by
  unfold Desk.exec
  split
  · obtain ⟨reason, hm⟩ : ∃ reason, missing d.client.binary = .establish reason := ⟨_, rfl⟩
    rw [hm]
    refine ⟨[.unable reason], { l.current with
      attempt := l.current.attempt.finish (.error (.establish reason)) }, ?_, ?_, hr, .inl rfl⟩
    · rw [Launch.run, List.foldl_cons, List.foldl_nil, Launch.step, Launch.unable, if_pos]
      rw [hl]
      rfl
    · rw [hl]
      rfl
  · refine (Plays.play _ ?_).launched
    rw [hl]
    exact ⟨rfl, rfl, rfl, hr⟩

theorem attach_launched (a : Attachment) (d : Desk) (l : Launch) (hr : Roomy d.terminal)
    (ha : l.attachment = a) (hl : l.current = .start a.current.name d.terminal) :
    ∃ events, (l.run events).current.terminal = (a.run Desk.exec d).2.terminal ∧
      ((l.run events).result = some (a.run Desk.exec d).1 ∨
        (a.run Desk.exec d).1 = .error .disconnected) := by
  obtain ⟨events, y, he, ht, hr', hs⟩ := exec_launched l a.current d hr hl
  generalize hx : Desk.exec a.current d = r at ht hr' hs
  obtain ⟨result, after⟩ := r
  rcases hc : a.conclude result with verdict | next
  · rw [run_over hx hc]
    rcases hs with hs | hs
    · have hstep : (l.run events).step .conclude = { l with
          current := y
          result := some verdict } := by
        simp only [he, Launch.step, Launch.conclude, hs, ha, hc]
      refine ⟨events ++ [.conclude], ?_⟩
      rw [launch_run_append, Launch.run, List.foldl_cons, List.foldl_nil, hstep]
      exact ⟨ht, .inl rfl⟩
    · refine ⟨events, by rw [he]; exact ht, .inr ?_⟩
      dsimp only at hs
      subst hs
      cases hc
      rfl
  · have hlater := (conclude_again hc).2
    rcases hs with hs | hs
    · have hstep : (l.run events).step .conclude = { l with
          attachment := next
          past := l.past ++ [y]
          current := .start next.current.name after.terminal } := by
        simp only [he, Launch.step, Launch.conclude, Launch.attempts, hs, ha, hc, ht]
      obtain ⟨more, hm⟩ := attach_launched next after ((l.run events).step .conclude) hr'
        (by rw [hstep]) (by rw [hstep])
      refine ⟨events ++ (.conclude :: more), ?_⟩
      rw [run_again hx hc, launch_run_append]
      exact hm
    · dsimp only at hs
      subst hs
      cases hc
termination_by a.later.length
decreasing_by
  rw [hlater]
  exact Nat.lt_succ_self _

/-- Whatever a desk does at a terminal with room is one of the runs of a launch. -/
theorem desk_launches (d : Desk) (hint : Option String) (h : Roomy d.terminal) :
    ∃ events, ((Launch.start hint d.terminal).run events).current.terminal =
        (d.run hint).2.terminal ∧
      (((Launch.start hint d.terminal).run events).result = some (d.run hint).1 ∨
        (d.run hint).1 = .error .disconnected) :=
  attach_launched (.start hint) d (.start hint d.terminal) h rfl rfl

end PodConsole.Proofs.Desks
