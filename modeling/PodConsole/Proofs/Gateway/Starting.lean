import PodConsole.Gateway.Front
import PodConsole.Proofs.Gateway.Changes
import PodConsole.Proofs.Session.Admission
import PodConsole.Proofs.Text.Stretches

namespace PodConsole.Proofs.Starting
open Gateway Session Changes
open Exec (Segment Target)
open Http (Problem)

variable {g : Gateway} {token n p c : String} {cluster shell : Option String}

/-- Nothing is left once both ends are trimmed. -/
def Blank (text : String) : Prop :=
  Text.trim text.toList = []

/-- The segment that is the first blank one. -/
def FirstBlank (n p c : String) : Segment → Prop
  | .namespaceName => Blank n
  | .pod => ¬ Blank n ∧ Blank p
  | .container => ¬ Blank n ∧ ¬ Blank p ∧ Blank c

/-- A target can be made of segments of which none is blank. -/
def Named (n p c : String) : Prop :=
  ¬ Blank n ∧ ¬ Blank p ∧ ¬ Blank c

theorem is_blank_iff {text : String} : Text.isBlank text = true ↔ Blank text :=
  (Stretches.trim_eq_nil_iff text.toList).symm

theorem FirstBlank.not_named {segment : Segment} (h : FirstBlank n p c segment) :
    ¬ Named n p c := by
  rintro ⟨hn, hp, hc⟩
  cases segment with
  | namespaceName => exact hn h
  | pod => exact hp h.2
  | container => exact hc h.2.2

theorem FirstBlank.unique {one other : Segment} (h : FirstBlank n p c one)
    (h' : FirstBlank n p c other) : one = other := by
  cases one <;> cases other <;> simp_all [FirstBlank]

/-- The target of some segments, without a cluster that is blank. -/
def meant (cluster : Option String) (n p c : String) : Target :=
  ⟨cluster.filter fun name => !Text.isBlank name, n, p, c⟩

theorem of_segments_cases (cluster : Option String) (n p c : String) :
    (∃ segment, FirstBlank n p c segment ∧ Target.ofSegments cluster n p c = .error segment) ∨
      Named n p c ∧ Target.ofSegments cluster n p c = .ok (meant cluster n p c) := by
  unfold Target.ofSegments
  by_cases hn : Blank n
  · exact .inl ⟨.namespaceName, hn, if_pos (is_blank_iff.mpr hn)⟩
  · rw [if_neg (mt is_blank_iff.mp hn)]
    by_cases hp : Blank p
    · exact .inl ⟨.pod, ⟨hn, hp⟩, if_pos (is_blank_iff.mpr hp)⟩
    · rw [if_neg (mt is_blank_iff.mp hp)]
      by_cases hc : Blank c
      · exact .inl ⟨.container, ⟨hn, hp, hc⟩, if_pos (is_blank_iff.mpr hc)⟩
      · exact .inr ⟨⟨hn, hp, hc⟩, if_neg (mt is_blank_iff.mp hc)⟩

theorem meant_cluster {name : String} :
    (meant cluster n p c).cluster = some name ↔ cluster = some name ∧ ¬ Blank name := by
  rw [meant, Option.filter_eq_some_iff, ← is_blank_iff, Bool.not_eq_true, Bool.not_eq_true']

/-- The answer to a request that is refused. -/
def refused (problem : Problem) : Response :=
  .reply problem.reply

def blankSegment (segment : Segment) : Problem :=
  .validation (segment.name ++ " must not be empty")

def noRoom (limit : Nat) : Problem :=
  .capacity ("session limit of " ++ toString limit ++ " reached")

/-- The answer to a request that is granted. -/
def granted (token : String) : Response :=
  .reply ⟨200, some (Json.writeObject [("id", Json.quote token)])⟩

/-- All that a request with an unused token can come to. -/
inductive Handled (g : Gateway) (token : String) (cluster : Option String) (n p c : String)
    (shell : Option String) : Response × Gateway → Prop
  | blank {segment : Segment} : FirstBlank n p c segment →
      Handled g token cluster n p c shell (refused (blankSegment segment), g)
  | full : Named n p c → g.settings.session.maxSessions ≤ g.registry.size →
      Handled g token cluster n p c shell (refused (noRoom g.settings.session.maxSessions), g)
  | started : Named n p c → g.registry.size < g.settings.session.maxSessions →
      Handled g token cluster n p c shell
        (granted token, { g with registry := admitted g token (meant cluster n p c) shell })

theorem start_handled (unused : g.registry.entry? token = none) (cluster : Option String)
    (n p c : String) (shell : Option String) :
    Handled g token cluster n p c shell (g.grant token (.start cluster n p c shell)) := by
  obtain ⟨segment, hblank, htarget⟩ | ⟨hnamed, htarget⟩ := of_segments_cases cluster n p c
  · simp only [Gateway.grant, Gateway.startTerminal, htarget]
    exact .blank hblank
  · by_cases hfull : g.settings.session.maxSessions ≤ g.registry.size
    · simp only [Gateway.grant, Gateway.startTerminal, htarget, start_eq, if_pos hfull]
      exact .full hnamed hfull
    · simp only [Gateway.grant, Gateway.startTerminal, htarget, start_eq, if_neg hfull, unused]
      exact .started hnamed (Nat.lt_of_not_le hfull)

/-- The sessions that somebody waits for, a client of theirs or its shell. -/
def waiters (r : Registry) : List Nat :=
  (List.range r.seats.length).filter fun n => (r.seat? n).any fun s => !s.isOver

theorem waiters_admitted (g : Gateway) (token : String) (target : Target) (hint : Option String) :
    waiters (admitted g token target hint) =
      waiters g.registry ++ [g.registry.seats.length] := by
  have hlength : (admitted g token target hint).seats.length = g.registry.seats.length + 1 := by
    simp [admitted, Registry.enlist]
  have hseat (n : Nat) := Roster.seat_add g.registry (newSeat g token target hint) n
  have hadmitted (n : Nat) : (admitted g token target hint).seat? n =
      if n = g.registry.seats.length then some (newSeat g token target hint)
      else g.registry.seat? n := hseat n
  rw [waiters, hlength, List.range_succ, List.filter_append, waiters]
  congr 1
  · apply List.filter_congr
    intro n hn
    rw [hadmitted, if_neg (Nat.ne_of_lt (List.mem_range.mp hn))]
  · simp [hadmitted, newSeat, Seat.new, Seat.isOver]

theorem new_seat_hint {target : Target} {name : String} :
    (newSeat g token target shell).session.hint = some name ↔ shell = some name ∧ name ≠ "" := by
  simp [newSeat, Seat.new, Option.filter_eq_some_iff]

/-- The status of an answer. -/
def status? : Response → Option Nat
  | .reply r => some r.status
  | .terminal | .logs _ _ => none

/-- A request to start a terminal is answered with 400 exactly if a segment is blank, and the first
such is named; else with 503 exactly if there is no room; else with 200 and the new token. Then there
is one more session, pending and on the roster under its token, with the segments as they were given,
and one more who waits. After any other answer nothing has changed. -/
theorem terminal_starts_whole_or_not_at_all (g : Gateway) (token : String)
    (unused : g.registry.entry? token = none) (cluster : Option String) (n p c : String)
    (shell : Option String) :
    let answer := (g.grant token (.start cluster n p c shell)).1
    let after := (g.grant token (.start cluster n p c shell)).2
    let limit := g.settings.session.maxSessions
    (status? answer = some 400 ↔ Blank n ∨ Blank p ∨ Blank c) ∧
    (∀ segment, FirstBlank n p c segment → answer = refused (blankSegment segment)) ∧
    (status? answer = some 503 ↔ ¬ (Blank n ∨ Blank p ∨ Blank c) ∧ limit ≤ g.registry.size) ∧
    (status? answer = some 503 → answer = refused (noRoom limit)) ∧
    (status? answer = some 200 ↔ ¬ (Blank n ∨ Blank p ∨ Blank c) ∧ g.registry.size < limit) ∧
    (status? answer = some 200 →
      answer = granted token ∧
      ∃ s : Seat, after = { g with registry :=
          { seats := g.registry.seats ++ [s]
            roster := g.registry.roster ++ [(token, g.registry.seats.length)] } } ∧
        s.session.id = token ∧ s.session.phase = .pending ∧ s.session.signal = .open ∧
        s.session.target.namespaceName = n ∧ s.session.target.pod = p ∧
        s.session.target.container = c ∧
        (∀ name, s.session.target.cluster = some name ↔ cluster = some name ∧ ¬ Blank name) ∧
        (∀ name, s.session.hint = some name ↔ shell = some name ∧ name ≠ "") ∧
        s.lifetime = .waiting (g.clock + 1000 * g.settings.session.bindTimeoutSecs) ∧
        waiters after.registry = waiters g.registry ++ [g.registry.seats.length]) ∧
    (status? answer ≠ some 200 → after = g) := by
  intro answer after limit
  have named_iff : Named n p c ↔ ¬ (Blank n ∨ Blank p ∨ Blank c) := by
    simp [Named]
  have hhandled : Handled g token cluster n p c shell (answer, after) :=
    start_handled unused cluster n p c shell
  generalize answer = answer, after = after at hhandled
  cases hhandled with
  | @blank segment hblank =>
    have hnot := hblank.not_named
    have hsome : Blank n ∨ Blank p ∨ Blank c := by
      rwa [named_iff, not_not] at hnot
    refine ⟨by simpa [status?, refused, blankSegment, Problem.reply, Problem.status] using hsome,
      ?_, ?_, nofun, ?_, nofun, fun _ => rfl⟩
    · intro other hother
      rw [hblank.unique hother]
    · simp [status?, refused, blankSegment, Problem.reply, Problem.status, hsome]
    · simp [status?, refused, blankSegment, Problem.reply, Problem.status, hsome]
  | full hnamed hfull =>
    have hnone := named_iff.mp hnamed
    refine ⟨?_, fun _ hblank => (hblank.not_named hnamed).elim, ?_, fun _ => rfl, ?_, nofun,
      fun _ => rfl⟩
    · simp [status?, refused, noRoom, Problem.reply, Problem.status, hnone]
    · simp [status?, refused, noRoom, Problem.reply, Problem.status, hnone, hfull, limit]
    · simp [status?, refused, noRoom, Problem.reply, Problem.status, hfull, limit]
  | started hnamed hroom =>
    have hnone := named_iff.mp hnamed
    refine ⟨?_, fun _ hblank => (hblank.not_named hnamed).elim, ?_, nofun, ?_, fun _ => ⟨rfl, ?_⟩,
      fun hother => (hother rfl).elim⟩
    · simp [status?, granted, hnone]
    · simp [status?, granted, hroom, limit]
    · simp [status?, granted, hnone, hroom, limit]
    · refine ⟨newSeat g token (meant cluster n p c) shell, ?_, rfl, rfl, rfl, rfl, rfl, rfl,
        fun _ => meant_cluster, fun _ => new_seat_hint, rfl, waiters_admitted g _ _ _⟩
      have hroster := Admission.roster_enlist
        (r := { g.registry with
          seats := g.registry.seats ++ [newSeat g token (meant cluster n p c) shell] })
        unused g.registry.seats.length
      rw [← hroster]
      rfl

/-- A gateway for two sessions that has one. -/
def halfFull : Gateway :=
  ({ settings := { session := { maxSessions := 2 } } } : Gateway).step
    (.start "a" ⟨none, "n", "p", "c"⟩ none)

/-- The cluster is a blank, and so is the shell. -/
theorem second_terminal_starts :
    let after := (halfFull.grant "b" (.start (some "\u00a0") "team" "web-0" "app" (some ""))).2
    halfFull.registry.entry? "b" = none ∧
      after.registry.roster = [("a", 0), ("b", 1)] ∧ waiters after.registry = [0, 1] := by
  intro after
  have hunused : halfFull.registry.entry? "b" = none := by decide
  have hnone : ¬ (Blank "team" ∨ Blank "web-0" ∨ Blank "app") := by
    simp only [← is_blank_iff]
    decide
  obtain ⟨-, -, -, -, hstatus, hgranted, -⟩ :=
    terminal_starts_whole_or_not_at_all halfFull "b" hunused (some "\u00a0") "team" "web-0" "app"
      (some "")
  obtain ⟨-, s, hafter, -, -, -, -, -, -, -, -, -, hwaiters⟩ :=
    hgranted (hstatus.mpr ⟨hnone, by decide⟩)
  refine ⟨hunused, ?_, ?_⟩
  · have hroster := congrArg (fun g : Gateway => g.registry.roster) hafter
    exact hroster.trans rfl
  · exact hwaiters.trans rfl

end PodConsole.Proofs.Starting
