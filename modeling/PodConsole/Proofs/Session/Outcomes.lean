import PodConsole.Proofs.Session.Vigils

namespace PodConsole.Proofs.Outcomes
open Session Attending Vigils
open Exec (Attachment Failure Shell Target)
open Wire (Envelope)

/-- The one who waits finds that the shell has ended, with a result. -/
def Reports (v : Vigil) (ended : Except Failure Unit) (result : Except Failure Shell) : Prop :=
  ∃ a, v.look.seat.lifetime = .running a ∧ a.conclude ended = .over result

variable {v : Vigil} {o : Outcome} {hs : List Happening} {h : Happening} {hint : Option String}
  {timeout : Nat}

/-- A client or its loss comes before a shutdown, and a shutdown before the time. -/
theorem look_decides (hk : Kept hint timeout hs v) {deadline : Nat}
    (hl : v.seat.lifetime = .waiting deadline) :
    match news hs, hs.any shuts, decide (timeout ≤ elapsed hs) with
    | .client _, false, _ => v.look.seat.lifetime = .running (.start hint)
    | .client _, true, _ => v.look.seat.lifetime.outcome? = some .shutdown
    | .nobody, _, _ => v.look.seat.lifetime = .over .abandoned
    | .nobodyYet, true, _ => v.look.seat.lifetime = .over .shutdown
    | .nobodyYet, false, true => v.look.seat.lifetime = .over .timedOut
    | .nobodyYet, false, false => v.look.seat.lifetime = .waiting timeout := by
  obtain ⟨hd, -, heard⟩ := hk.waiting hl
  have ha := look_attended v
  rw [hk.shutdown, hk.clock] at ha
  generalize v.look.seat = t at ha
  generalize hs.any shuts = shut at ha
  have opened (ho : v.seat.session.signal = .open) : news hs = .nobodyYet := by
    rw [← heard.arrival, ho]
    rfl
  cases ha with
  | launched hw hs => simp [(heard.carried hs).1, hk.hint]
  | turnedAway hw hs hp => simp [(heard.carried hs).1, hp.outcome]
  | abandoned hw hn =>
    rw [heard.arrival] at hn
    simp [hn, Seat.leave]
  | shutDown hw ho => simp [opened ho, Seat.leave]
  | timedOut hw ho hlate =>
    cases hl.symm.trans hw
    simp [opened ho, hd ▸ hlate, Seat.leave]
  | patient hw ho hearly =>
    cases hl.symm.trans hw
    have hlt : ¬ timeout ≤ elapsed hs := by omega
    simp [opened ho, hlt, hl, hd]
  | stopped hw | busy hw | parting hw | gone hw => cases hl.symm.trans hw

/-- A shutdown comes before anything that a shell may come to. -/
theorem look_interrupts (hk : Kept hint timeout hs v) {a : Attachment}
    (hl : v.seat.lifetime = .running a) :
    if hs.any shuts then v.look.seat.lifetime.outcome? = some .shutdown
    else v.look.seat.lifetime = .running a := by
  have ha := look_attended v
  rw [hk.shutdown] at ha
  generalize v.look.seat = t at ha
  generalize hs.any shuts = shut at ha
  cases ha with
  | stopped hw hp => simp [hp.outcome]
  | busy hw => simp [hl]
  | launched hw | turnedAway hw | abandoned hw | shutDown hw | timedOut hw | patient hw
  | parting hw | gone hw => cases hl.symm.trans hw

theorem look_silent (hn : v.look.seat.lifetime.outcome? = none) : v.look.sent = v.sent := by
  have hu : v.look.sent = v.sent ++ uttered v.seat v.look.seat := rfl
  rw [hu, (look_attended v).silent hn, List.append_nil]

theorem turn_decided (ho : v.seat.lifetime.outcome? = some o) (work : Option Work) :
    v.turn work = v.look := by
  unfold Vigil.turn
  rw [if_neg (by simp [outcome_runs ((look_attended v).decided ho)])]

theorem look_launches (v : Vigil) : v.look.launches =
    v.launches + (v.look.seat.lifetime.runs && !v.seat.lifetime.runs).toNat :=
  rfl

theorem look_idle (hr : v.look.seat.lifetime.runs = false) : v.look.launches = v.launches := by
  rw [look_launches, hr]
  rfl

theorem turn_launches (v : Vigil) (work : Option Work) :
    (v.turn work).launches = v.look.launches := by
  have ht := turn_turned v work
  generalize v.turn work = v' at ht
  cases ht with
  | looked => rfl
  | @worked work => cases work <;> rfl

/-- A shell is started in a turn that finds a client and no shutdown, and nowhere else. -/
theorem step_launches (hk : Kept hint timeout hs v) (h : Happening) :
    (v.step h).launches = v.launches ∨ v.launches = 0 ∧ (v.step h).launches = 1 ∧
      ∃ work deadline client, h = .turn work ∧ v.seat.lifetime = .waiting deadline ∧
        news hs = .client client ∧ hs.any shuts = false := by
  rcases step_cases v h with ⟨work, rfl, hv⟩ | ho
  · rw [hv, turn_launches, look_launches]
    rcases (look_attended v).launch with hsame | ⟨hone, hshut, deadline, client, hl, hs⟩
    · exact .inl (by rw [hsame]; rfl)
    · obtain ⟨-, h0, heard⟩ := hk.waiting hl
      exact .inr ⟨h0, by rw [hone, h0]; rfl, work, deadline, client, rfl, hl,
        (heard.carried hs).1, hk.shutdown.symm.trans hshut⟩
  · exact .inl ho.same.2.2.2

theorem step_decided (ho : v.seat.lifetime.outcome? = some o) (h : Happening) :
    (v.step h).seat.lifetime.outcome? = some o ∧ (v.step h).launches = v.launches := by
  rcases step_cases v h with ⟨work, rfl, hv⟩ | hout
  · have hlook := (look_attended v).decided ho
    rw [hv, turn_decided ho]
    exact ⟨hlook, look_idle (outcome_runs hlook)⟩
  · obtain ⟨hl, -, -, hn⟩ := hout.same
    exact ⟨by rw [hl]; exact ho, hn⟩

/-- How a session comes to something in one step. -/
inductive Ending (v : Vigil) (h : Happening) : Outcome → Prop
  | waited {o : Outcome} : o ≠ .finished → o ≠ .failed → (v.step h).launches = 0 → Ending v h o
  | stopped : Ending v h .shutdown
  | reported {ended : Except Failure Unit} {result : Except Failure Shell} :
      h = .turn (some (.ended ended)) → Reports v ended result →
      Ending v h (if isFine result then .finished else .failed)

theorem step_ending (hk : Kept hint timeout hs v) (hn : v.seat.lifetime.outcome? = none)
    (ho : (v.step h).seat.lifetime.outcome? = some o) : Ending v h o := by
  rcases step_cases v h with ⟨work, rfl, hv⟩ | hout
  · have ht := turn_turned v work
    have hlaunches : (v.step (.turn work)).launches = v.look.launches := turn_launches v work
    rw [hv] at ho
    generalize v.turn work = v' at ht ho
    cases ht with
    | looked =>
      rcases (look_attended v).decides hn ho with rfl | ⟨⟨deadline, hl⟩, hfinished, hfailed⟩
      · exact .stopped
      · refine .waited hfinished hfailed ?_
        rw [hlaunches, look_idle (outcome_runs ho), (hk.waiting hl).2.1]
    | @worked work a hl =>
      cases work with
      | act act =>
        have hact : (v.look.work (.act act)).seat.lifetime = .running a := hl
        rw [hact] at ho
        cases ho
      | ended ended =>
        obtain ⟨result, hc, rfl⟩ := (attempted_concluded hl ended).outcome ho
        exact .reported rfl ⟨a, hl, hc⟩
  · rw [hout.same.1, hn] at ho
    cases ho

theorem look_over (hl : v.seat.lifetime = .over o) :
    v.look.seat = v.seat ∧ v.look.sent = v.sent := by
  have hs : v.look.seat = v.seat := (look_attended v).left hl
  refine ⟨hs, ?_⟩
  have hu : v.look.sent = v.sent ++ uttered v.seat v.look.seat := rfl
  rw [hu, hs, uttered_same rfl, List.append_nil]

theorem step_over (hl : v.seat.lifetime = .over o) (h : Happening) :
    (v.step h).seat.lifetime = .over o ∧ (v.step h).sent = v.sent := by
  rcases step_cases v h with ⟨work, rfl, hv⟩ | hout
  · obtain ⟨hseat, hsent⟩ := look_over hl
    rw [hv, turn_decided (by rw [hl]; rfl), hseat]
    exact ⟨hl, hsent⟩
  · exact ⟨hout.same.1.trans hl, hout.same.2.2.1⟩

/-- The notice of a failure is on its way behind what was said before, or the client is gone. -/
inductive Failing (said : List Envelope) (failure : Failure) (v : Vigil) : Prop
  | parting : v.seat.lifetime = .parting .failed (.toast failure.message) → v.sent = said →
      Failing said failure v
  | told : v.seat.lifetime = .over .failed → v.sent = said ++ [.toast failure.message] →
      Failing said failure v
  | untold : v.seat.lifetime = .over .failed → v.sent = said → v.seat.terminal.isClosed = true →
      Failing said failure v

variable {said : List Envelope} {failure : Failure}

theorem parted_failing {s : Seat} (h : Parted s .failed (.toast failure.message) v.seat)
    (hs : s.terminal.connection.outbound.sending = true)
    (hv : v.sent = said ++ uttered s v.seat) : Failing said failure v := by
  rcases h.cases hs with ⟨hl, hu⟩ | ⟨hl, ⟨hc, hu⟩ | hu⟩
  · exact .parting hl (by rw [hv, hu, List.append_nil])
  · exact .untold hl (by rw [hv, hu, List.append_nil]) hc
  · exact .told hl (by rw [hv, hu])

theorem Failing.decided (hf : Failing said failure v) :
    v.seat.lifetime.outcome? = some .failed := by
  cases hf with
  | parting hl | told hl | untold hl =>
    rw [hl]
    rfl

theorem Failing.look (hk : Kept hint timeout hs v) (hf : Failing said failure v) :
    Failing said failure v.look := by
  cases hf with
  | parting hl hsaid =>
    have hu : v.look.sent = said ++ uttered v.seat v.look.seat := by
      rw [← hsaid]
      rfl
    exact parted_failing ((look_attended v).parted hl) (hk.met_parting hl).sending hu
  | told hl hsaid =>
    obtain ⟨hseat, hsent⟩ := look_over hl
    exact .told (by rw [hseat]; exact hl) (hsent.trans hsaid)
  | untold hl hsaid hc =>
    obtain ⟨hseat, hsent⟩ := look_over hl
    exact .untold (by rw [hseat]; exact hl) (hsent.trans hsaid) (by rw [hseat]; exact hc)

theorem Failing.step (hk : Kept hint timeout hs v) (hf : Failing said failure v) (h : Happening) :
    Failing said failure (v.step h) := by
  rcases step_cases v h with ⟨work, rfl, hv⟩ | hout
  · rw [hv, turn_decided hf.decided]
    exact hf.look hk
  · obtain ⟨hl, -, hs, -⟩ := hout.same
    cases hf with
    | parting hl' hsaid => exact .parting (hl.trans hl') (hs.trans hsaid)
    | told hl' hsaid => exact .told (hl.trans hl') (hs.trans hsaid)
    | untold hl' hsaid hc =>
      exact .untold (hl.trans hl') (hs.trans hsaid) ((hout.late (hk.unheard hl')).closed hc)

variable {ended : Except Failure Unit} {result : Except Failure Shell}

/-- The step in which a shell's end is found. -/
theorem Reports.step (hr : Reports v ended result) : ∃ a,
    v.look.seat.lifetime = .running a ∧ a.conclude ended = .over result ∧
      v.look.sent = v.sent ∧
      v.step (.turn (some (.ended ended))) = v.look.become (v.look.seat.attempted ended) := by
  obtain ⟨a, hl, hc⟩ := hr
  refine ⟨a, hl, hc, look_silent (by rw [hl]; rfl), ?_⟩
  have hv : v.step (.turn (some (.ended ended))) = v.turn (some (.ended ended)) := rfl
  rw [hv, Vigil.turn, if_pos (by rw [hl]; rfl)]
  rfl

theorem Reports.finished (hr : Reports v ended result) (hfine : isFine result = true) :
    (v.step (.turn (some (.ended ended)))).seat.lifetime = .over .finished ∧
      (v.step (.turn (some (.ended ended)))).sent = v.sent := by
  obtain ⟨a, hl, hc, hsilent, hstep⟩ := hr.step
  rw [hstep, (attempted_concluded hl ended).left hc hfine, ← hsilent]
  refine ⟨rfl, ?_⟩
  simp only [Vigil.become, uttered_leave, List.append_nil]

theorem Reports.failing (hk : Kept hint timeout hs v) (hr : Reports v ended (.error failure))
    (hne : failure ≠ .disconnected) :
    Failing v.sent failure (v.step (.turn (some (.ended ended)))) := by
  obtain ⟨a, hl, hc, hsilent, hstep⟩ := hr.step
  rw [hstep, ← hsilent]
  exact parted_failing (v := v.look.become (v.look.seat.attempted ended))
    ((attempted_concluded hl ended).parted hc hne) (hk.look.met hl).sending rfl

theorem Reports.undecided (hr : Reports v ended result) :
    v.seat.lifetime.outcome? = none := by
  obtain ⟨a, hl, -⟩ := hr
  cases ho : v.seat.lifetime.outcome? with
  | none => rfl
  | some o =>
    have hlook := (look_attended v).decided ho
    rw [hl] at hlook
    cases hlook

/-- While nothing is decided, only a process sends anything. -/
theorem step_undecided (hn : (v.step h).seat.lifetime.outcome? = none) :
    ∃ frames, (v.step h).sent = v.sent ++ frames ∧
      (notices h = false → ∀ f ∈ frames, isNotice f = false) := by
  rcases step_cases v h with ⟨work, rfl, hv⟩ | hout
  · have ht := turn_turned v work
    rw [hv] at hn ⊢
    generalize v.turn work = v' at ht hn
    cases ht with
    | looked => exact ⟨[], by rw [look_silent hn, List.append_nil], fun _ => nofun⟩
    | @worked work a hl =>
      have hsilent : v.look.sent = v.sent := look_silent (by rw [hl]; rfl)
      rw [← hsilent]
      cases work with
      | act act =>
        obtain ⟨frames, hf, hn⟩ := perform_outbound v.look.seat.terminal act
        refine ⟨frames, ?_, hn⟩
        simp only [Vigil.work, Vigil.become, uttered, Seat.perform, hf, List.drop_left]
      | ended ended =>
        have hu := (attempted_concluded hl ended).silent hn
        refine ⟨[], ?_, fun _ => nofun⟩
        simp only [Vigil.work, Vigil.become, hu]
  · exact ⟨[], by simpa using hout.same.2.2.1, fun _ => nofun⟩

/-- A shutdown came before anyone was handed over, so no shell will be started any more. -/
structure Barred (v : Vigil) : Prop where
  shutdown : v.shutdown = true
  launches : v.launches = 0
  idle : v.seat.lifetime.runs = false
  unfinished : v.seat.lifetime.outcome? ≠ some .finished
  unfailed : v.seat.lifetime.outcome? ≠ some .failed

theorem Barred.look (hb : Barred v) : Barred v.look := by
  have ha := look_attended v
  rw [hb.shutdown] at ha
  obtain ⟨hidle, ho⟩ := ha.shut
  refine ⟨hb.shutdown, (look_idle hidle).trans hb.launches, hidle, ?_, ?_⟩
  · rcases ho with ho | ho | ho <;> simp [ho, hb.unfinished]
  · rcases ho with ho | ho | ho <;> simp [ho, hb.unfailed]

theorem Barred.step (hb : Barred v) (h : Happening) : Barred (v.step h) := by
  rcases step_cases v h with ⟨work, rfl, hv⟩ | hout
  · have hlook := hb.look
    rw [hv, Vigil.turn, if_neg (by simp [hlook.idle])]
    exact hlook
  · obtain ⟨hl, -, -, hn⟩ := hout.same
    have hs : (v.step h).shutdown = true := by
      generalize v.step h = v' at hout
      cases hout with
      | bind | close | pass | deed => exact hb.shutdown
      | shutdown => rfl
    exact ⟨hs, hn.trans hb.launches, by rw [hl]; exact hb.idle, by rw [hl]; exact hb.unfinished,
      by rw [hl]; exact hb.unfailed⟩

theorem Barred.run (hb : Barred v) (hs : List Happening) : Barred (v.run hs) := by
  induction hs generalizing v with
  | nil => exact hb
  | cons h rest ih => exact ih (hb.step h)

theorem run_decided (h : v.seat.lifetime.outcome? = some o)
    (hs : List Happening) : (v.run hs).seat.lifetime.outcome? = some o := by
  induction hs generalizing v with
  | nil => exact h
  | cons e rest ih => exact ih (step_decided h e).1

theorem run_over (h : v.seat.lifetime = .over o)
    (hs : List Happening) : (v.run hs).seat.lifetime = .over o ∧ (v.run hs).sent = v.sent := by
  induction hs generalizing v with
  | nil => exact ⟨h, rfl⟩
  | cons e rest ih =>
    obtain ⟨hl, hs⟩ := step_over h e
    obtain ⟨hl', hs'⟩ := ih hl
    exact ⟨hl', hs'.trans hs⟩

theorem run_failing (hk : Kept hint timeout hs v)
    (hf : Failing said failure v) (later : List Happening) :
    Failing said failure (v.run later) := by
  induction later generalizing v hs with
  | nil => exact hf
  | cons h rest ih => exact ih (hk.step h) (hf.step hk h)

section

variable (id : String) (target : Target) (hint : Option String) (room timeout : Nat)

/-- A shell is started once at most, and then in a turn that found a client and no shutdown. -/
theorem run_launches (hs : List Happening) :
    let run := (Vigil.start id target hint room timeout).run
    (run hs).launches = 0 ∨ (run hs).launches = 1 ∧
      ∃ before work later deadline client, hs = before ++ .turn work :: later ∧
        (run before).seat.lifetime = .waiting deadline ∧ news before = .client client ∧
        before.any shuts = false := by
  intro run
  induction hs using List.reverseRecOn with
  | nil => exact .inl rfl
  | append_singleton hs h ih =>
    have hk : Kept hint timeout hs (run hs) := run_kept id target hint room timeout hs
    have hsnoc : run (hs ++ [h]) = (run hs).step h := run_snoc _ hs h
    rw [hsnoc]
    rcases step_launches hk h with hsame | ⟨-, hone, work, deadline, client, rfl, hl, hn, hshut⟩
    · rw [hsame]
      refine ih.imp_right ?_
      rintro ⟨hone, before, work, later, deadline, client, rfl, hl, hn, hshut⟩
      exact ⟨hone, before, work, later ++ [h], deadline, client, by simp, hl, hn, hshut⟩
    · exact .inr ⟨hone, hs, work, [], deadline, client, rfl, hl, hn, hshut⟩

/-- Who gave up waiting has started nothing. -/
theorem run_unlaunched (hs : List Happening) {o : Outcome} (hu : o = .timedOut ∨ o = .abandoned) :
    let v := (Vigil.start id target hint room timeout).run hs
    v.seat.lifetime.outcome? = some o → v.launches = 0 := by
  induction hs using List.reverseRecOn with
  | nil => exact nofun
  | append_singleton hs h ih =>
    have hk := run_kept id target hint room timeout hs
    simp only [run_snoc] at ih ⊢
    generalize (Vigil.start id target hint room timeout).run hs = v at hk ih
    intro ho
    cases hp : v.seat.lifetime.outcome? with
    | some o' =>
      obtain ⟨hsame, hn⟩ := step_decided hp h
      rw [hn]
      exact ih (by rw [hp, ← hsame, ho])
    | none =>
      have he := step_ending hk hp ho
      cases he with
      | waited _ _ hn => exact hn
      | stopped => rcases hu with hu | hu <;> cases hu
      | @reported ended result => split at hu <;> rcases hu with hu | hu <;> cases hu

/-- What comes of a shell is what its end was, and nothing else comes to that. -/
theorem run_reported (hs : List Happening) {fine : Bool}
    (ho : ((Vigil.start id target hint room timeout).run hs).seat.lifetime.outcome? =
      some (if fine then .finished else .failed)) :
    ∃ before ended later result, hs = before ++ .turn (some (.ended ended)) :: later ∧
      Reports ((Vigil.start id target hint room timeout).run before) ended result ∧
      isFine result = fine := by
  induction hs using List.reverseRecOn with
  | nil => cases ho
  | append_singleton hs h ih =>
    have hk := run_kept id target hint room timeout hs
    rw [run_snoc] at ho
    cases hp : ((Vigil.start id target hint room timeout).run hs).seat.lifetime.outcome? with
    | some o' =>
      have hsame := (step_decided hp h).1
      obtain ⟨before, ended, later, result, rfl, hr, hf⟩ := ih (by rw [hp, ← hsame, ho])
      exact ⟨before, ended, later ++ [h], result, by simp, hr, hf⟩
    | none =>
      have he := step_ending hk hp ho
      generalize hverdict : (if fine then Outcome.finished else .failed) = o at he
      cases he with
      | waited hn hm =>
        cases fine with
        | true => exact (hn hverdict.symm).elim
        | false => exact (hm hverdict.symm).elim
      | stopped => cases fine <;> cases hverdict
      | @reported ended result hh hr =>
        subst hh
        refine ⟨hs, ended, [], result, rfl, hr, ?_⟩
        cases hf : isFine result <;> cases fine <;> simp [hf] at hverdict ⊢

/-- The notices of a run that has come to nothing yet are those of its process. -/
theorem run_unnoticed {hs : List Happening} (hn : ∀ h ∈ hs, notices h = false)
    (ho : ((Vigil.start id target hint room timeout).run hs).seat.lifetime.outcome? = none) :
    ∀ f ∈ ((Vigil.start id target hint room timeout).run hs).sent, isNotice f = false := by
  induction hs using List.reverseRecOn with
  | nil => exact nofun
  | append_singleton hs h ih =>
    rw [run_snoc] at ho ⊢
    have hbefore : ((Vigil.start id target hint room timeout).run hs).seat.lifetime.outcome? =
        none := by
      cases hp : ((Vigil.start id target hint room timeout).run hs).seat.lifetime.outcome? with
      | none => rfl
      | some o =>
        rw [(step_decided hp h).1] at ho
        cases ho
    obtain ⟨frames, hs', hf⟩ := step_undecided ho
    intro f hm
    rw [hs'] at hm
    rcases List.mem_append.mp hm with hm | hm
    · exact ih (fun h hh => hn h (List.mem_append_left _ hh)) hbefore f hm
    · exact hf (hn h (by simp)) f hm

/-- What was found of a shell's end is what the run comes to. -/
theorem run_reports {before : List Happening}
    (hr : Reports ((Vigil.start id target hint room timeout).run before) ended result)
    (later : List Happening) :
    let first := (Vigil.start id target hint room timeout).run before
    let v := (Vigil.start id target hint room timeout).run
      (before ++ .turn (some (.ended ended)) :: later)
    (isFine result = true → v.seat.lifetime = .over .finished ∧ v.sent = first.sent) ∧
    (∀ failure, result = .error failure → failure ≠ .disconnected →
      Failing first.sent failure v) := by
  intro first v
  have hv : v = (first.step (.turn (some (.ended ended)))).run later := run_append _ _ _
  have hk : Kept hint timeout before first := run_kept id target hint room timeout before
  rw [hv]
  constructor
  · intro hfine
    obtain ⟨hl, hs⟩ := hr.finished hfine
    obtain ⟨hl', hs'⟩ := run_over hl later
    exact ⟨hl', hs'.trans hs⟩
  · rintro failure rfl hne
    exact run_failing (hk.step _) (hr.failing hk hne) later

/-- The one who waits answers a client or its loss before a shutdown, a shutdown before the time,
and a shutdown before the end of a shell; what was decided stays decided, and is held up only while
an open client has no room for its last frame. A shell is started once at most, for a client that
was found while there was no shutdown; a session that timed out or was abandoned, or that was shut
down before its client was found, has none and comes to no end of one. The end of a shell is told by
its result: a session whose shell exited or whose client left sends no more, and any other failure
is the last that an open client is told, in the only notice that is not the process's own. -/
theorem outcomes_are_decided (hs : List Happening) :
    let run := (Vigil.start id target hint room timeout).run
    let v := run hs
    let next := v.look.seat.lifetime
    (∀ deadline, v.seat.lifetime = .waiting deadline →
      match news hs, hs.any shuts, decide (timeout ≤ elapsed hs) with
      | .client _, false, _ => next = .running (.start hint)
      | .client _, true, _ => next.outcome? = some .shutdown
      | .nobody, _, _ => next = .over .abandoned
      | .nobodyYet, true, _ => next = .over .shutdown
      | .nobodyYet, false, true => next = .over .timedOut
      | .nobodyYet, false, false => next = .waiting timeout) ∧
    (∀ a, v.seat.lifetime = .running a →
      if hs.any shuts then next.outcome? = some .shutdown else next = .running a) ∧
    (∀ o, v.seat.lifetime.outcome? = some o →
      ∀ later, (v.run later).seat.lifetime.outcome? = some o) ∧
    (∀ o last, v.seat.lifetime = .parting o last →
      v.seat.terminal.isClosed = true ∨
        v.seat.terminal.connection.outbound.items.length <
          v.seat.terminal.connection.outbound.capacity →
      next = .over o) ∧
    (v.launches = 0 ∨ v.launches = 1 ∧
      ∃ before work later deadline client, hs = before ++ .turn work :: later ∧
        (run before).seat.lifetime = .waiting deadline ∧ news before = .client client ∧
        before.any shuts = false) ∧
    (∀ o, o = .timedOut ∨ o = .abandoned → v.seat.lifetime.outcome? = some o →
      v.launches = 0) ∧
    (∀ before later deadline, hs = before ++ later → before.any shuts = true →
      (run before).seat.lifetime = .waiting deadline →
      v.launches = 0 ∧ v.seat.lifetime.outcome? ≠ some .finished ∧
        v.seat.lifetime.outcome? ≠ some .failed) ∧
    (∀ fine, v.seat.lifetime.outcome? = some (if fine then .finished else .failed) ↔
      ∃ before ended later result, hs = before ++ .turn (some (.ended ended)) :: later ∧
        Reports (run before) ended result ∧ isFine result = fine) ∧
    (∀ before ended later result, hs = before ++ .turn (some (.ended ended)) :: later →
      Reports (run before) ended result →
      (isFine result = true →
        v.seat.lifetime = .over .finished ∧ v.sent = (run before).sent) ∧
      (∀ failure, result = .error failure → failure ≠ .disconnected →
        v.seat.lifetime = .over .failed → v.seat.terminal.isClosed = false →
        v.sent = (run before).sent ++ [.toast failure.message] ∧
        ((∀ h ∈ before, notices h = false) →
          v.sent.filter isNotice = [.toast failure.message]))) := by
  intro run v next
  have kept (hs : List Happening) : Kept hint timeout hs (run hs) :=
    run_kept id target hint room timeout hs
  refine ⟨fun deadline => look_decides (kept hs), fun a => look_interrupts (kept hs),
    fun o => run_decided, fun o last hl hc => ((look_attended v).parted hl).ends hc,
    run_launches id target hint room timeout hs,
    fun o hu => run_unlaunched id target hint room timeout hs hu, ?_, fun fine => ⟨?_, ?_⟩, ?_⟩
  · rintro before later deadline rfl hshut hl
    have hb : Barred (run before) :=
      ⟨(kept before).shutdown.trans hshut, ((kept before).waiting hl).2.1, by rw [hl]; rfl,
        by simp [hl, Lifetime.outcome?], by simp [hl, Lifetime.outcome?]⟩
    have hlast : Barred v := by
      have hv : v = (run before).run later := run_append _ _ _
      rw [hv]
      exact hb.run later
    exact ⟨hlast.launches, hlast.unfinished, hlast.unfailed⟩
  · exact run_reported id target hint room timeout hs
  · rintro ⟨before, ended, later, result, rfl, hr, rfl⟩
    obtain ⟨hfinished, hfailing⟩ := run_reports id target hint room timeout hr later
    cases hf : isFine result with
    | true => simp [v, run, (hfinished hf).1, Lifetime.outcome?]
    | false =>
      cases result with
      | ok shell => cases hf
      | error failure => exact (hfailing failure rfl (is_fine_error.mp hf)).decided
  · rintro before ended later result rfl hr
    obtain ⟨hfinished, hfailing⟩ := run_reports id target hint room timeout hr later
    refine ⟨hfinished, fun failure he hne hl hopen => ?_⟩
    cases hfailing failure he hne with
    | parting hl' => cases hl.symm.trans hl'
    | untold _ _ hc => cases hc.symm.trans hopen
    | told _ hsent =>
      refine ⟨hsent, fun hn => ?_⟩
      have hsilent := run_unnoticed id target hint room timeout hn hr.undecided
      rw [hsent, List.filter_append, List.filter_eq_nil_iff.mpr fun f hm => by simp [hsilent f hm]]
      rfl

end

-- A client, a shutdown and the end of the time, all ready at the first look.
example :
    let v := (Vigil.start "s" ⟨none, "ns", "pod", "c"⟩ none 4 600).run
      [.pass 600, .shutdown, .bind 1 8 8, .turn (some (.ended (.ok ())))]
    v.seat.lifetime = .over .shutdown ∧ v.launches = 0 ∧ v.sent = [.toast shutdownNotice] := by
  decide

end PodConsole.Proofs.Outcomes
