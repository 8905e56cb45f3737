import PodConsole.Proofs.Gateway.Resizing
import PodConsole.Proofs.Kubectl.Screens

namespace PodConsole.Proofs.Hosting
open Gateway Session Lifecycle Turns Changes Listing Speakers Sparing Routing Sizes Screens
  Resizing
open Kubectl (Launch)
open Wire (Size)

variable {h : Host} {e : Host.Event} {events : List Host.Event} {n : Nat} {s : Seat}
  {token : String} {got : List Size} {settings : Settings} {past : List Gateway.Event} {l : Launch}

/-- The steps of the gateway that a run takes. -/
def trace (h : Host) : List Host.Event → List Gateway.Event
  | [] => []
  | e :: rest => (h.deed? e).toList ++ trace (h.step e) rest

/-- What is not done by the session's own process. -/
def outer (events : List Host.Event) : List Gateway.Event :=
  events.filterMap fun
    | .gateway e => some e
    | .launch _ => none

theorem begin_gateway (h : Host) : h.begin.gateway = h.gateway ∧ h.begin.token = h.token := by
  unfold Host.begin
  split <;> exact ⟨rfl, rfl⟩

theorem step_gateway (h : Host) (e : Host.Event) :
    (h.step e).gateway = h.gateway.run (h.deed? e).toList ∧ (h.step e).token = h.token := by
  have hrun (o : Option Gateway.Event) :
      o.elim h.gateway h.gateway.step = h.gateway.run o.toList := by
    cases o <;> rfl
  cases e with
  | gateway e =>
    simp only [Host.step, begin_gateway, hrun, and_self]
  | launch e =>
    simp only [Host.step, hrun, and_self]

theorem run_snoc (h : Host) (events : List Host.Event) (e : Host.Event) :
    h.run (events ++ [e]) = (h.run events).step e := by
  simp [Host.run]

theorem trace_snoc (h : Host) (events : List Host.Event) (e : Host.Event) :
    trace h (events ++ [e]) = trace h events ++ ((h.run events).deed? e).toList := by
  induction events generalizing h with
  | nil => simp [trace, Host.run]
  | cons d rest ih =>
    rw [List.cons_append, trace, trace, ih, List.append_assoc]
    rfl

theorem run_gateway (h : Host) (events : List Host.Event) :
    (h.run events).gateway = h.gateway.run (trace h events) ∧ (h.run events).token = h.token := by
  induction events generalizing h with
  | nil => exact ⟨rfl, rfl⟩
  | cons e rest ih =>
    obtain ⟨hg, ht⟩ := ih (h.step e)
    obtain ⟨hstep, htok⟩ := step_gateway h e
    rw [trace, run_append, ← hstep]
    exact ⟨hg, ht.trans htok⟩

/-- A process uses its terminal, and comes to an end. -/
theorem deed_own {d : Gateway.Event} {e : Launch.Event} (hd : l.deed? token e = some d) :
    (∃ a, d = .act token a) ∨ ∃ result, d = .attempt token result := by
  cases e with
  | exchange e =>
    obtain ⟨a, -, rfl⟩ := Option.map_eq_some_iff.mp hd
    exact .inl ⟨a, rfl⟩
  | unable => cases hd
  | conclude =>
    simp only [Launch.deed?] at hd
    split at hd
    · cases hd
      exact .inr ⟨_, rfl⟩
    all_goals cases hd

/-- Whatever has to do with no process comes from outside, in order. -/
theorem trace_outer {α : Type} {f : Gateway.Event → List α} (ha : ∀ token a, f (.act token a) = [])
    (hr : ∀ token result, f (.attempt token result) = []) (h : Host) (events : List Host.Event) :
    (trace h events).flatMap f = (outer events).flatMap f := by
  induction events generalizing h with
  | nil => rfl
  | cons e rest ih =>
    rw [trace, List.flatMap_append, ih]
    cases e with
    | gateway e =>
      have hd : (h.deed? (.gateway e)).toList.flatMap f = f e := by
        simp only [Host.deed?]
        cases ho : Host.isOwn h.token e with
        | false => simp
        | true =>
          cases e with
          | act => simp [ha]
          | attempt => simp [hr]
          | start | connect | follow | frame | cut | read | write | attend | close | pass
          | shutdown => cases ho
      rw [hd]
      rfl
    | launch e =>
      have hd : (h.deed? (.launch e)).toList.flatMap f = [] := by
        cases ho : h.deed? (.launch e) with
        | none => rfl
        | some d =>
          obtain ⟨l, -, hl⟩ := Option.bind_eq_some_iff.mp ho
          rcases deed_own hl with ⟨a, rfl⟩ | ⟨result, rfl⟩
          · simp [ha]
          · simp [hr]
      rw [hd]
      rfl

theorem trace_tokens (past : List Gateway.Event) (h : Host) (events : List Host.Event) :
    tokens (past ++ trace h events) = tokens (past ++ outer events) := by
  have hf (l : List Gateway.Event) : tokens l = l.flatMap fun e => (token? e).toList :=
    List.filterMap_eq_flatMap_toList _ _
  rw [tokens_append, tokens_append, hf (trace h events), hf (outer events)]
  exact congrArg _ (trace_outer (fun _ _ => rfl) (fun _ _ => rfl) h events)

theorem running_found (hr : h.running? = some s) :
    ∃ n, Found h.gateway h.token n s ∧ isRunning s = true := by
  obtain ⟨n, hn, hs⟩ := Option.bind_eq_some_iff.mp hr
  obtain ⟨t, ht, hl⟩ := Option.bind_eq_some_iff.mp hs
  split at hl
  · rename_i hrun
    cases hl
    exact ⟨n, ⟨hn, ht⟩, by simp [isRunning, hrun]⟩
  all_goals cases hl

theorem ready_iff {e : Launch.Event} : h.ready? e = some l ↔ Launch.isClient e = false ∧
    ∃ s m, h.running? = some s ∧ h.launch = some m ∧ l = m.onto s.terminal := by
  unfold Host.ready?
  cases Launch.isClient e with
  | true => simp
  | false =>
    simp only [Bool.false_eq_true, if_false, Option.bind_eq_some_iff, Option.map_eq_some_iff,
      true_and]
    constructor
    · rintro ⟨s, hs, m, hm, rfl⟩
      exact ⟨s, m, hs, hm, rfl⟩
    · rintro ⟨s, m, hs, hm, rfl⟩
      exact ⟨s, hs, m, hm, rfl⟩

/-- The sizes that the process gets in one step. -/
def sizesIn (h : Host) (e : Host.Event) : List Size :=
  sizesGiven h.token h.gateway (h.deed? e).toList

theorem sizes_in_eq (h : Host) (e : Host.Event) : sizesIn h e =
    (h.deed? e).toList.flatMap fun d => (givenAnswer h.token h.gateway d).filterMap answered? := by
  unfold sizesIn sizesGiven answers
  cases h.deed? e <;> simp [along]

/-- What others do gives the process nothing. -/
theorem sizes_in_gateway (h : Host) (e : Gateway.Event) : sizesIn h (.gateway e) = [] := by
  rw [sizes_in_eq]
  simp only [Host.deed?]
  cases ho : Host.isOwn h.token e with
  | true => rfl
  | false =>
    have hne : ∀ a, e ≠ .act h.token a := by
      rintro a rfl
      simp [Host.isOwn] at ho
    simp [unanswered hne]

/-- What the terminal gives out to the attempts is what the session's process gets. -/
theorem sizes_in_launch {e : Launch.Event} (hr : h.ready? e = some l) :
    sizesIn h (.launch e) = givenOut l e := by
  obtain ⟨hc, s, m, hs, hm, rfl⟩ := ready_iff.mp hr
  obtain ⟨n, hf, hrun⟩ := running_found hs
  have hseat : (seatOf h.gateway.registry h.token).filter isRunning = some s := by
    rw [seat_of_found hf]
    simp [Option.filter, hrun]
  rw [sizes_in_eq]
  simp only [Host.deed?, hr, Option.bind_some]
  cases e with
  | unable => rfl
  | conclude =>
    simp only [Launch.deed?, givenOut]
    split
    · simp [givenAnswer]
    all_goals rfl
  | exchange e =>
    simp only [Launch.deed?, givenOut, given, givenFor]
    cases (m.onto s.terminal).current.act? e with
    | none => rfl
    | some act =>
      have hterm : (m.onto s.terminal).current.terminal = s.terminal := rfl
      simp only [Option.map_some, Option.toList_some, List.flatMap_cons, List.flatMap_nil,
        List.append_nil, givenAnswer, if_true, hseat, Seat.perform, Option.bind_some, hterm,
        answered_one]

/-- The attempts know of the sizes `got`, and of no others. -/
structure Hosted (got : List Size) (launch : Option Launch) : Prop where
  idle : launch = none → got = []
  told : ∀ l, launch = some l → sizesTold l = got
  fitted : ∀ l, launch = some l → Fitted l

/-- The session's terminal has the last of the sizes `got`. -/
def Keeping (got : List Size) (h : Host) : Prop :=
  ∀ n s, Found h.gateway h.token n s → s.terminal.size = latest {} got

theorem hosted_none : Hosted [] none where
  idle _ := rfl
  told _ hl := by cases hl
  fitted _ hl := by cases hl

theorem Hosted.begin (hh : Hosted got h.launch) (hk : Keeping got h) :
    Hosted got h.begin.launch := by
  unfold Host.begin
  split
  · rename_i s hl hs
    obtain ⟨n, hf, -⟩ := running_found hs
    have hgot : got = [] := hh.idle hl
    subst hgot
    obtain ⟨htold, hfit⟩ := fitted_start s.session.hint (hk n s hf)
    refine ⟨nofun, fun l hl => ?_, fun l hl => ?_⟩
    · cases hl
      exact htold
    · cases hl
      exact hfit
  · exact hh

theorem Hosted.step (hh : Hosted got h.launch) (hk : Keeping got h)
    (hk' : Keeping (got ++ sizesIn h e) (h.step e)) :
    Hosted (got ++ sizesIn h e) (h.step e).launch := by
  cases e with
  | gateway e =>
    let after : Host :=
      { h with gateway := (h.deed? (.gateway e)).elim h.gateway h.gateway.step }
    obtain ⟨hg, ht⟩ := begin_gateway after
    rw [sizes_in_gateway, List.append_nil] at hk' ⊢
    refine Hosted.begin (h := after) hh fun n s hf => hk' n s ?_
    rw [show h.step (.gateway e) = after.begin from rfl, hg, ht]
    exact hf
  | launch e =>
    cases hr : h.ready? e with
    | none =>
      have hs : sizesIn h (.launch e) = [] := by simp [sizes_in_eq, Host.deed?, hr]
      rw [hs, List.append_nil]
      simpa only [Host.step, hr, Option.map_none, Option.none_or] using hh
    | some l =>
      rw [sizes_in_launch hr]
      obtain ⟨hc, s, m, hs, hm, rfl⟩ := ready_iff.mp hr
      obtain ⟨n, hf, -⟩ := running_found hs
      have htold := hh.told m hm
      -- the attempts see the session's terminal as it is now
      have honto : Fitted (m.onto s.terminal) := (hh.fitted m hm).onto (htold ▸ hk n s hf)
      have hlaunch : (h.step (.launch e)).launch = some ((m.onto s.terminal).step e) := by
        simp [Host.step, hr]
      rw [hlaunch]
      refine ⟨nofun, fun l hl => ?_, fun l hl => ?_⟩
      · cases hl
        rw [launch_step _ hc, sizes_told_onto, htold]
      · cases hl
        exact honto.step hc

/-- The attempts get all sizes that the session's process gets, in every run of the host. -/
theorem run_hosted (hf : Found (Gateway.run { settings } past) token n s)
    (hm : Metered [] [] s) (events : List Host.Event)
    (hn : (tokens (past ++ outer events)).Nodup) :
    let start : Host := { gateway := Gateway.run { settings } past, token }
    Hosted (sizesGiven token start.gateway (trace start events)) (start.run events).launch := by
  intro start
  have keeping (events : List Host.Event) (hn : (tokens (past ++ outer events)).Nodup) :
      Keeping (sizesGiven token start.gateway (trace start events)) (start.run events) := by
    rw [← trace_tokens past start] at hn
    obtain ⟨u, hfu, hmet, -⟩ := run_metered _ hn hf hm
    obtain ⟨hg, ht⟩ := run_gateway start events
    intro m t hft
    rw [hg, ht] at hft
    obtain ⟨-, rfl⟩ := hfu.unique hft
    exact hmet.size
  induction events using List.reverseRecOn with
  | nil =>
    have hnone : (start.run []).launch = none := rfl
    rw [hnone]
    exact hosted_none
  | append_singleton events e ih =>
    have hpast : (tokens (past ++ outer events)).Nodup := by
      refine hn.sublist (List.Sublist.filterMap _ (List.Sublist.append_left ?_ past))
      exact List.Sublist.filterMap _ (List.sublist_append_left events [e])
    have hsizes : sizesGiven token start.gateway (trace start (events ++ [e])) =
        sizesGiven token start.gateway (trace start events) ++ sizesIn (start.run events) e := by
      obtain ⟨hg, ht⟩ := run_gateway start events
      rw [trace_snoc, sizesIn, hg, ht]
      simp [sizesGiven, answers, along_append, start]
    have hlast := keeping (events ++ [e]) hn
    rw [hsizes, run_snoc] at hlast ⊢
    exact (ih hpast).step (keeping events hpast) hlast

/-- What is done at the terminal that the attempts see is done at the session's. -/
theorem exchange_terminal {limit : Nat} {e : Kubectl.Exchange.Event}
    (hl : Listed limit h.gateway.registry) (hr : h.ready? (.exchange e) = some l) :
    ∃ n s, Found (h.step (.launch (.exchange e))).gateway h.token n s ∧
      s.terminal = (l.step (.exchange e)).current.terminal := by
  obtain ⟨hc, s, m, hs, hm, rfl⟩ := ready_iff.mp hr
  obtain ⟨n, hf, hrun⟩ := running_found hs
  have hterm : ((m.onto s.terminal).step (.exchange e)).current.terminal = _ :=
    (exchange_served (m.onto s.terminal).current hc).terminal
  rw [hterm, (step_gateway h _).1]
  simp only [Host.deed?, hr, Option.bind_some, Launch.deed?]
  cases (m.onto s.terminal).current.act? e with
  | none => exact ⟨n, s, hf, rfl⟩
  | some act =>
    have hseat : seatOf (h.gateway.step (.act h.token act)).registry h.token =
        some (s.perform act).2 := by
      rw [subject_step hl rfl, if_pos rfl, seat_of_found hf]
      simp [turned, hrun]
    obtain ⟨k, hk⟩ := found_of_seat hseat
    exact ⟨k, _, hk, rfl⟩

/-- Every screen has a size that was taken, or the first one. -/
theorem Hosted.screens (hh : Hosted got (some l)) (hp : ∀ z ∈ got, z.rows ≠ 0 ∧ z.cols ≠ 0) :
    sizesTold l = got ∧ l.current.attempt.screen = latest {} got ∧
      ∀ x ∈ l.attempts, x.attempt.screen.rows ≠ 0 ∧ x.attempt.screen.cols ≠ 0 := by
  have htold := hh.told l rfl
  have hfit := hh.fitted l rfl
  refine ⟨htold, htold ▸ hfit.current, fun x hx => ?_⟩
  rcases hfit.known hx with hfirst | hmem
  · rw [hfirst]
    decide
  · exact hp _ (htold ▸ hmem)

theorem asked_positive {frames : List Frame} {z : Size}
    (hz : z ∈ (asked frames).filterMap handed?) : z.rows ≠ 0 ∧ z.cols ≠ 0 := by
  obtain ⟨held, hheld, hsize⟩ := List.mem_filterMap.mp hz
  obtain ⟨f, -, hf⟩ := List.mem_filterMap.mp hheld
  cases held with
  | keys => cases hsize
  | size z =>
    cases hsize
    cases f with
    | text text =>
      simp only [routed?] at hf
      split at hf
      · cases hf
      · rename_i hp
        cases hf
        exact resize_positive hp
      all_goals cases hf
    | binary | ping | pong | close | ended | broken => cases hf

/-- The turn in which a client is let in to a session, and what it finds there. -/
theorem let_in {client : Nat} {sock sock' : Socket} (hn : (tokens past).Nodup)
    (hc : (Gateway.run { settings } past).socket? client = some sock)
    (hs : sock.stage = .greeting)
    (hc' : ((Gateway.run { settings } past).step (.read client)).socket? client = some sock')
    (hs' : sock'.stage = .attached token none) :
    ∃ n s, Bound client token n sock' s (Gateway.run { settings } (past ++ [.read client])) ∧
      Metered [] [] s ∧
      s.terminal.sizes.capacity = settings.session.resizeQueueCapacity := by
  have hnext : (tokens (past ++ [.read client])).Nodup := by
    simpa [tokens_snoc, token?] using hn
  have hr := run_reached settings past hn
  have hr' := run_reached settings _ hnext
  have hlast : Gateway.run { settings } (past ++ [.read client]) =
      (Gateway.run { settings } past).step (.read client) := Changes.run_snoc _ _ _
  have hspeaks : Speaks sock' token := (speaks_attached hs').mpr rfl
  obtain ⟨n, s, hb⟩ :=
    bound_of_speaks hr'.sound (run_open settings _ hnext) (hlast ▸ hc') hspeaks
  rcases step_speaks hc' hspeaks with ⟨w, hw, hold⟩ | ⟨m, t, he⟩
  · -- a socket that greets speaks for nobody
    rw [hc] at hw
    cases hw
    exact (mute_of_stage (.inl hs) hold).elim
  · have hfound := he.lands hr.listed (hlast ▸ hr'.listed.unique)
    obtain ⟨rfl, rfl⟩ := (hlast ▸ hb.found).unique hfound
    obtain ⟨hm, hcap⟩ := entering_metered hn he
    exact ⟨_, _, hb, hm, hcap⟩

/-- A client is let in to its session, and from then on frames come and are read, sizes are taken,
attempts fail and are followed by others, in any order. The sizes that the attempts take are, in
order and none left out, those that the client's frames ask for; as long as session and socket are
there, all the rest waits, in a queue that is never longer than it may be or in the socket. The
screen of the process that runs has the last size that was taken, or 24 rows and 80 columns, also if
the process has just been started in place of another. No screen is ever without rows or columns. -/
theorem sizes_arrive_in_order (settings : Settings) (past : List Gateway.Event) (client : Nat)
    (sock sock' : Socket) (token : String) (events : List Host.Event)
    (hn : (tokens (past ++ outer events)).Nodup)
    (hc : (Gateway.run { settings } past).socket? client = some sock)
    (hs : sock.stage = .greeting)
    (hc' : ((Gateway.run { settings } past).step (.read client)).socket? client = some sock')
    (hs' : sock'.stage = .attached token none) :
    let start : Host :=
      { gateway := (Gateway.run { settings } past).step (.read client), token }
    let h := start.run events
    let news := (outer events).flatMap (arrived settings.server.maxMessageBytes client)
    let sent := (asked (sock'.inbox ++ news)).filterMap handed?
    let taken := sizesGiven token start.gateway (trace start events)
    taken <+: sent ∧
    (∀ z ∈ sent, z.rows ≠ 0 ∧ z.cols ≠ 0) ∧
    (∃ n s, Found h.gateway token n s ∧
      s.terminal.sizes.items.length ≤ settings.session.resizeQueueCapacity ∧
      (h.gateway.shutdown = false → Hearing s → ∃ w, h.gateway.socket? client = some w ∧
        taken ++ s.terminal.sizes.items ++ (waiting w []).filterMap handed? = sent)) ∧
    ∀ l, h.launch = some l → sizesTold l = taken ∧
      l.current.attempt.screen = latest ⟨24, 80⟩ taken ∧
      ∀ x ∈ l.attempts, x.attempt.screen.rows ≠ 0 ∧ x.attempt.screen.cols ≠ 0 := by
  intro start h news sent taken
  have hpast : (tokens past).Nodup := by
    rw [tokens_append, List.nodup_append] at hn
    exact hn.1
  have hstart : start.gateway = Gateway.run { settings } (past ++ [.read client]) := by
    rw [Changes.run_snoc]
  have houter : (tokens (past ++ [.read client] ++ outer events)).Nodup := by
    have hread : tokens (past ++ [.read client]) = tokens past := by simp [tokens_snoc, token?]
    rwa [tokens_append, hread, ← tokens_append]
  have htrace : (tokens (past ++ [.read client] ++ trace start events)).Nodup := by
    rwa [trace_tokens]
  obtain ⟨n, s, hb, hm, hcap⟩ := let_in hpast hc hs hc' hs'
  obtain ⟨hgate, -⟩ := run_gateway start events
  obtain ⟨hpart, w, u, hb', hall⟩ := run_flows (trace start events) htrace hb
  obtain ⟨v, hfv, hmet, hroom⟩ := run_metered (trace start events) htrace hb.found hm
  obtain ⟨-, rfl⟩ := hb'.found.unique hfv
  rw [← hstart, ← hgate] at hb' hall
  rw [← hstart, List.nil_append, List.nil_append] at hmet
  rw [← hstart] at hpart
  have hsent : waiting sock' ((trace start events).flatMap
      (arrived settings.server.maxMessageBytes client)) = asked (sock'.inbox ++ news) := by
    rw [trace_outer (fun _ _ => rfl) (fun _ _ => rfl), waiting_attached hs']
    rfl
  rw [hsent] at hpart hall
  have hahead : taken <+: sent := hmet.queue.part.trans (hpart.filterMap handed?)
  have hpositive : ∀ z ∈ sent, z.rows ≠ 0 ∧ z.cols ≠ 0 := fun z hz => asked_positive hz
  refine ⟨hahead, hpositive, ⟨n, v, hb'.found, ?_, fun hd hh => ?_⟩, fun l hl => ?_⟩
  · rw [← hcap, ← hroom]
    exact hmet.queue.room
  · obtain ⟨-, hwhole⟩ := hall ⟨hd, hh⟩
    refine ⟨w, hb'.socket, ?_⟩
    rw [hmet.queue.all hh.sizes, ← List.filterMap_append, hwhole]
  · have hsame : ({ gateway := Gateway.run { settings } (past ++ [.read client]), token } : Host) =
        start := by rw [← hstart]
    have hhosted : Hosted taken h.launch := by
      have hh := run_hosted hb.found hm events houter
      rwa [hsame] at hh
    rw [hl] at hhosted
    exact hhosted.screens fun z hz => hpositive z (hahead.subset hz)

/-- A client that names its session and says how large it is. -/
def measuredClient : List Gateway.Event :=
  [.start "a" ⟨none, "n", "p", "c"⟩ none, .connect 0,
    .frame 0 (.text (Wire.Envelope.bind "a").write),
    .frame 0 (.text (Wire.Envelope.resize ⟨30, 100⟩).write)]

/-- The first shell takes the size and fails, and the second one takes the next. -/
def twoShells : List Host.Event :=
  [.gateway (.attend "a"), .gateway (.read 0), .launch (.exchange .measure),
    .launch (.exchange (.process .outputEnd)), .launch (.exchange (.process (.exit 127))),
    .launch .conclude, .gateway (.frame 0 (.text (Wire.Envelope.resize ⟨40, 120⟩).write)),
    .gateway (.read 0), .launch (.exchange .measure)]

theorem sizes_of_two_attempts :
    let start : Host :=
      { gateway := (Gateway.run {} measuredClient).step (.read 0), token := "a" }
    (tokens (measuredClient ++ outer twoShells)).Nodup ∧
    ∃ l, (start.run twoShells).launch = some l ∧ l.attempts.length = 2 ∧
      sizesTold l = [⟨30, 100⟩, ⟨40, 120⟩] ∧ l.current.attempt.screen = ⟨40, 120⟩ := by
  intro start
  let named : Frame := .text (Wire.Envelope.bind "a").write
  let sized : Frame := .text (Wire.Envelope.resize ⟨30, 100⟩).write
  let sock : Socket := { inbox := [named, sized] }
  let sock' : Socket := { stage := .attached "a" none, inbox := [sized] }
  have hn : (tokens (measuredClient ++ outer twoShells)).Nodup := by decide
  have hc : (Gateway.run {} measuredClient).socket? 0 = some sock := by decide +kernel
  have hc' : ((Gateway.run {} measuredClient).step (.read 0)).socket? 0 = some sock' := by
    decide +kernel
  have htaken : sizesGiven "a" start.gateway (trace start twoShells) =
      [⟨30, 100⟩, ⟨40, 120⟩] := by decide +kernel
  have hlength : ((start.run twoShells).launch.map fun l => l.attempts.length) = some 2 := by
    decide +kernel
  obtain ⟨l, hl, htwo⟩ := Option.map_eq_some_iff.mp hlength
  obtain ⟨-, -, -, hscreens⟩ := sizes_arrive_in_order {} measuredClient 0 sock sock' "a" twoShells
    hn hc rfl hc' rfl
  obtain ⟨htold, hcur, -⟩ := hscreens l hl
  rw [htaken] at htold hcur
  exact ⟨hn, l, hl, htwo, htold, hcur⟩

end PodConsole.Proofs.Hosting
