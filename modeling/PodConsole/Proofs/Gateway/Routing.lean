import PodConsole.Proofs.Gateway.Handshake

namespace PodConsole.Proofs.Routing
open Gateway Session Lifecycle Pushing Roster Seats Turns Changes Listing Speakers Handshake

variable {g : Gateway} {e : Event} {client n : Nat} {s s' w : Socket} {f : Frame}
  {rest : List Frame} {r : Registry} {token : String} {seat u : Seat} {held : Held}
  {settings : Settings} {past : List Event} {limit : Nat}

/-- The frames that a step brings from a client. -/
def arrived (maxBytes client : Nat) : Event → List Frame
  | .frame c f => if c = client then [f.limit maxBytes] else []
  | .cut c => if c = client then [.ended] else []
  | _ => []

/-- What frames ask to be handed over, up to the one with which the client leaves. -/
def asked (frames : List Frame) : List Held :=
  (frames.takeWhile fun f => !closing f).filterMap routed?

/-- What a socket has still to hand over, with the frames that are to come. -/
def waiting (s : Socket) (future : List Frame) : List Held :=
  match s.stage with
  | .attached _ held => held.toList ++ asked (s.inbox ++ future)
  | .greeting | .draining _ | .listening | .over => []

/-- What one step hands to a session. -/
def handedOver (n : Nat) (before after : Registry) : List Held :=
  match before.seat? n, after.seat? n with
  | some s, some t => entries s t
  | _, _ => []

/-- What a run hands to a session. -/
def entered (n : Nat) (g : Gateway) : List Event → List Held
  | [] => []
  | e :: rest => handedOver n g.registry (g.step e).registry ++ entered n (g.step e) rest

theorem routed_goes_on (h : routed? f = some held) : closing f = false := by
  cases f with
  | text | binary | ping | pong => rfl
  | close | ended | broken => cases h

theorem asked_closing (h : closing f = true) (frames : List Frame) : asked (f :: frames) = [] := by
  simp [asked, h]

theorem asked_skipped (hc : closing f = false) (hr : routed? f = none) (frames : List Frame) :
    asked (f :: frames) = asked frames := by
  simp [asked, hc, hr]

theorem asked_routed (h : routed? f = some held) (frames : List Frame) :
    asked (f :: frames) = held :: asked frames := by
  simp [asked, routed_goes_on h, h]

theorem waiting_attached {held? : Option Held} (h : s.stage = .attached token held?)
    (future : List Frame) : waiting s future = held?.toList ++ asked (s.inbox ++ future) := by
  simp [waiting, h]

theorem waiting_unattached (h : ∀ token held, s.stage ≠ .attached token held)
    (future : List Frame) : waiting s future = [] := by
  unfold waiting
  split
  · rename_i token held hs
    exact (h token held hs).elim
  · rfl
  · rfl
  · rfl
  · rfl

theorem waiting_same (hs : s'.stage = s.stage) (hi : s'.inbox = s.inbox) (future : List Frame) :
    waiting s' future = waiting s future := by
  simp [waiting, hs, hi]

/-- Somebody is there for all that passes between a client and its session. -/
structure Hearing (s : Seat) : Prop where
  keys : s.terminal.connection.stdin.receiving = true
  sizes : s.terminal.sizes.receiving = true
  outbound : s.terminal.connection.outbound.receiving = true

/-- The reader has not been told to stop. -/
def Open (s : Socket) (seat : Seat) : Prop :=
  ∀ token held, s.stage = .attached token held → seat.terminal.connection.cancelled = false

/-- What a step makes of what the client asked for: it enters the queues or waits on, and while
somebody hears it, nothing is lost. -/
structure Flows (live : Prop) (news : List Frame) (s s' : Socket) (seat u : Seat) : Prop where
  part : ∀ future, entries seat u ++ waiting s' future <+: waiting s (news ++ future)
  all : live → ∀ future, entries seat u ++ waiting s' future = waiting s (news ++ future)
  still : Open s' u

theorem Flows.whole {live : Prop} {news : List Frame}
    (h : ∀ future, entries seat u ++ waiting s' future = waiting s (news ++ future))
    (ho : Open s' u) : Flows live news s s' seat u :=
  ⟨fun future => h future ▸ List.prefix_rfl, fun _ => h, ho⟩

/-- The reader stops, and there was a reason. -/
theorem Flows.stop {live : Prop} {news : List Frame} (he : entries seat u = [])
    (hs : ∀ token held, s'.stage ≠ .attached token held) (hl : ¬ live) :
    Flows live news s s' seat u where
  part future := by
    rw [he, waiting_unattached hs]
    exact List.nil_prefix
  all hlive := (hl hlive).elim
  still token held h := (hs token held h).elim

/-- A socket that no session reads from. -/
theorem Flows.idle {live : Prop} {news : List Frame} (he : entries seat u = [])
    (hs : ∀ token held, s.stage ≠ .attached token held)
    (hs' : ∀ token held, s'.stage ≠ .attached token held) : Flows live news s s' seat u :=
  .whole (fun future => by rw [he, waiting_unattached hs, waiting_unattached hs']; rfl)
    fun token held h => (hs' token held h).elim

theorem entries_self (s : Seat) : entries s s = [] :=
  (Quiet.refl s).entries

theorem entries_same_queues (hk : u.terminal.connection.stdin = seat.terminal.connection.stdin)
    (hz : u.terminal.sizes = seat.terminal.sizes) : entries seat u = [] :=
  entries_suffix (hk ▸ List.suffix_rfl) (hz ▸ List.suffix_rfl)

/-- Where both queues have both ends, a refusal means that there is no room. -/
theorem takes_of_hearing (hj : Joined seat) (hh : Hearing seat) (held : Held) :
    takes seat held = true := by
  cases held with
  | keys text => simp [takes, hj.keys, hh.keys]
  | size size => simp [takes, hj.sizes, hh.sizes]

/-- A turn of a client's socket, with the session as it is afterwards. -/
def Passes (g : Gateway) (n : Nat) (s s' : Socket) (seat : Seat) (r : Registry) : Prop :=
  ∃ u, r.seat? n = some u ∧ Flows (g.shutdown = false ∧ Hearing u) [] s s' seat u

/-- A client that is attached to a session, or was. -/
structure Bound (client : Nat) (token : String) (n : Nat) (s : Socket) (seat : Seat)
    (g : Gateway) : Prop where
  claimed : Claimed client token g
  socket : g.socket? client = some s
  found : Found g token n seat
  joined : Joined seat
  isOpen : Open s seat

theorem Bound.greets_not (h : Bound client token n s seat g) : s.stage ≠ .greeting := by
  obtain ⟨s₀, hc, hg, -⟩ := h.claimed.only
  rw [h.socket] at hc
  cases hc
  exact hg

/-- The client's socket speaks for no other session. -/
theorem Bound.mine (h : Bound client token n s seat g) {other : String} (hs : Speaks s other)
    {m : Nat} {t : Seat} (hm : Found g other m t) : token = other ∧ n = m ∧ seat = t := by
  obtain ⟨s₀, hc, -, honly⟩ := h.claimed.only
  rw [h.socket] at hc
  cases hc
  have hown := (honly other hs).symm
  subst hown
  obtain ⟨rfl, rfl⟩ := h.found.unique hm
  exact ⟨rfl, rfl, rfl⟩

theorem Bound.passes_same (h : Bound client token n s seat g) :
    Passes g n s s seat g.registry :=
  ⟨seat, h.found.seat, .whole (fun future => by rw [entries_self]; rfl) h.isOpen⟩

theorem handed_passes (h : Bound client token n s seat g)
    (hc : seat.terminal.connection.cancelled = false)
    (hs : ∀ future, waiting s future = held :: asked (w.inbox ++ future))
    (hh : Handed g w token n seat held r s') : Passes g n s s' seat r := by
  have hp := push_pushed seat held
  cases hh with
  | sent ho =>
    refine ⟨_, seat_set_self h.found.seat _, ?_⟩
    generalize push seat held = after at hp ho
    cases hp with
    | closed | full => cases ho
    | sent ht hr he hss hl hcan =>
      refine .whole (fun future => ?_) fun _ _ _ => hcan.trans hc
      rw [he, hs, waiting_attached rfl]
      rfl
  | full ho =>
    refine ⟨seat, h.found.seat, .whole (fun future => ?_) fun _ _ _ => hc⟩
    rw [entries_self, hs, waiting_attached rfl]
    rfl
  | closed ho =>
    refine ⟨_, seat_set_self h.found.seat _, .stop (entries_same_queues rfl rfl) nofun ?_⟩
    -- the senders are there, so it is a receiver that has gone
    rintro ⟨-, hk, hz, hout⟩
    have ht := takes_of_hearing h.joined ⟨hk, hz, hout⟩ held
    generalize push seat held = after at hp ho
    cases hp with
    | closed hn => rw [ht] at hn; cases hn
    | full | sent => cases ho

theorem routed_passes (h : Bound client token n s seat g)
    (hc : seat.terminal.connection.cancelled = false) (ha : s.stage = .attached token none)
    (hi : s.inbox = f :: rest) (hr : Routed g { s with inbox := rest } token n seat f r s') :
    Passes g n s s' seat r := by
  have hw (future : List Frame) : waiting s future = asked (f :: (rest ++ future)) := by
    rw [waiting_attached ha, hi]
    rfl
  cases hr with
  | skipped hn hcl =>
    refine ⟨seat, h.found.seat, .whole (fun future => ?_) fun _ _ _ => hc⟩
    have hst : (answer { s with inbox := rest } f).stage = .attached token none := by
      rw [answer_stage]
      exact ha
    rw [entries_self, List.nil_append, List.nil_append, hw, asked_skipped hcl hn,
      waiting_attached hst, answer_inbox]
    rfl
  | handed hn hh =>
    refine handed_passes h hc (fun future => ?_) hh
    rw [hw, asked_routed hn]
  | left hcl =>
    refine ⟨_, seat_set_self h.found.seat _, .whole (fun future => ?_) fun _ _ hst => by cases hst⟩
    rw [List.nil_append, hw, asked_closing hcl]
    exact List.append_eq_nil_iff.mpr ⟨entries_same_queues rfl rfl, rfl⟩

theorem reading_passes (h : Bound client token n s seat g) (hr : Reading g client s r s') :
    Passes g n s s' seat r := by
  have listens (hw : s.stage = .greeting ∨ s.stage = .listening) {s' : Socket}
      (hs' : ∀ token held, s'.stage ≠ .attached token held) : Passes g n s s' seat g.registry := by
    refine ⟨seat, h.found.seat, .idle (entries_self seat) (fun token held ha => ?_) hs'⟩
    rcases hw with hw | hw <;> rw [hw] at ha <;> cases ha
  cases hr with
  | idle | done | lost => exact h.passes_same
  | closed hw hd => exact listens hw nofun
  | skip hw hd hi hcl ht =>
    refine listens hw fun token held ha => ?_
    rw [answer_stage] at ha
    rcases hw with hw | hw <;> rw [hw] at ha <;> cases ha
  | leave hw hd hi hcl => exact listens hw nofun
  | greet hs => exact (h.greets_not hs).elim
  | dropped ha hm hcan =>
    obtain ⟨rfl, rfl, rfl⟩ := h.mine (.inl ⟨_, ha⟩) hm
    rw [h.isOpen _ _ ha] at hcan
    cases hcan
  | offered ha hm hcan hh =>
    obtain ⟨rfl, rfl, rfl⟩ := h.mine (.inl ⟨_, ha⟩) hm
    exact handed_passes h hcan (fun future => by rw [waiting_attached ha]; rfl) hh
  | shut ha hm hcan hd =>
    obtain ⟨rfl, rfl, rfl⟩ := h.mine (.inl ⟨_, ha⟩) hm
    refine ⟨_, seat_set_self h.found.seat _, .stop (entries_same_queues rfl rfl) nofun ?_⟩
    rintro ⟨hon, -⟩
    rw [hd] at hon
    cases hon
  | routed ha hm hcan hd hi hr =>
    obtain ⟨rfl, rfl, rfl⟩ := h.mine (.inl ⟨_, ha⟩) hm
    exact routed_passes h hcan ha hi hr

theorem writing_passes (h : Bound client token n s seat g) (hw : Writing g s r s') :
    Passes g n s s' seat r := by
  cases hw with
  | wait => exact h.passes_same
  | cut ha hm =>
    obtain ⟨rfl, rfl, rfl⟩ := h.mine ha hm
    refine ⟨_, seat_set_self h.found.seat _, .stop (entries_same_queues rfl rfl) nofun ?_⟩
    rintro ⟨-, -, -, hout⟩
    cases hout
  | said ha hm hi =>
    obtain ⟨rfl, rfl, rfl⟩ := h.mine ha hm
    refine ⟨_, seat_set_self h.found.seat _, .whole (fun future => ?_) fun token held hst => ?_⟩
    · rw [(said_quiet seat _).entries, List.nil_append, List.nil_append]
      exact waiting_same (emit_stage _ _) (emit_inbox _ _) future
    · rw [emit_stage] at hst
      exact h.isOpen token held hst
  | ended ha hm hq =>
    obtain ⟨rfl, rfl, rfl⟩ := h.mine ha hm
    refine ⟨_, seat_set_self h.found.seat _, .stop (entries_same_queues rfl rfl) nofun ?_⟩
    -- a session that sends nothing more takes nothing either
    rintro ⟨-, hk, -, -⟩
    have hsealed := h.joined.isSealed hq
    rw [show seat.terminal.connection.stdin.receiving = true from hk] at hsealed
    cases hsealed

theorem Bound.aside (h : Bound client token n s seat g) (hl : Listed limit g.registry)
    (hm : moves client e = false ∨ (∃ f, e = .frame client f) ∨ e = .cut client) :
    ¬ Own g n seat e := by
  rintro ⟨c, sock, other, he, hc, hs, hf⟩
  obtain ⟨-, hid⟩ := (found_iff hl.unique).mp hf
  obtain ⟨-, hid'⟩ := (found_iff hl.unique).mp h.found
  have hother : other = token := hid.symm.trans hid'
  subst hother
  have hcl := h.claimed.alone c sock hc hs
  subst hcl
  rcases he with rfl | rfl <;> rcases hm with hm | ⟨f, hm⟩ | hm <;> simp [moves] at hm

theorem Flows.mono {live live' : Prop} {news : List Frame} (h : Flows live news s s' seat u)
    (hl : live' → live) : Flows live' news s s' seat u :=
  ⟨h.part, fun hlive => h.all (hl hlive), h.still⟩

theorem waiting_receive (s : Socket) (f : Frame) (future : List Frame) :
    waiting (s.receive f) future = waiting s (f :: future) := by
  unfold Socket.receive
  split
  · rename_i hs
    rw [waiting_unattached (by simp [hs]), waiting_unattached (by simp [hs])]
  · simp [waiting]

theorem arrived_elsewhere (maxBytes : Nat) (h : moves client e = false) :
    arrived maxBytes client e = [] := by
  cases e with
  | frame c f | cut c =>
    have hc : c ≠ client := by simpa [moves] using h
    simp [arrived, hc]
  | start | connect | follow | read | write | attend | act | attempt | close | pass
  | shutdown => rfl

/-- Whatever happens, what a client sent is handed over or waits; it is lost if the gateway shuts
down, or if the session or the socket has gone. -/
theorem Bound.step (h : Bound client token n s seat g) (hl : Listed limit g.registry)
    (hu : (ids (g.step e).registry).Nodup) : ∃ s' u, Bound client token n s' u (g.step e) ∧
      handedOver n g.registry (g.step e).registry = entries seat u ∧ Ends seat u ∧
      Flows ((g.step e).shutdown = false ∧ Hearing u)
        (arrived g.settings.server.maxMessageBytes client e) s s' seat u := by
  obtain ⟨s', hc', hst⟩ := step_socket h.socket e
  obtain ⟨u, hfu, hb⟩ := found_step hl hu h.found
  have quiet (hm : moves client e = false ∨ (∃ f, e = .frame client f) ∨ e = .cut client) :
      Quiet seat u :=
    hb.quiet h.joined.taken (h.aside hl hm)
  have turn {r : Registry} (hreg : (g.step e).registry = r) (hpasses : Passes g n s s' seat r) :
      Flows ((g.step e).shutdown = false ∧ Hearing u) [] s s' seat u := by
    obtain ⟨v, hv, hflow⟩ := hpasses
    rw [← hreg, hfu.seat] at hv
    cases hv
    exact hflow.mono fun hlive => ⟨running_before hlive.1, hlive.2⟩
  have flows : Flows ((g.step e).shutdown = false ∧ Hearing u)
      (arrived g.settings.server.maxMessageBytes client e) s s' seat u := by
    cases hst with
    | same hm =>
      -- somebody else's turn, which hands nothing to this session
      have hq := quiet (.inl hm)
      refine .whole (fun future => ?_) fun token held hs =>
        hq.cancelled.trans (h.isOpen token held hs)
      rw [hq.entries, arrived_elsewhere _ hm]
      rfl
    | frame =>
      have hq := quiet (.inr (.inl ⟨_, rfl⟩))
      refine .whole (fun future => ?_) fun token held hs =>
        hq.cancelled.trans (h.isOpen token held ?_)
      · rw [hq.entries, List.nil_append, waiting_receive]
        simp [arrived]
      · rwa [receive_stage] at hs
    | cut =>
      have hq := quiet (.inr (.inr rfl))
      refine .whole (fun future => ?_) fun token held hs =>
        hq.cancelled.trans (h.isOpen token held ?_)
      · have hcut : waiting s.cut future = waiting (s.receive .ended) future :=
          waiting_same rfl rfl future
        rw [hq.entries, List.nil_append, hcut, waiting_receive]
        simp [arrived]
      · rw [← receive_stage s .ended]
        exact hs
    | read hr hreg => exact turn hreg (reading_passes h hr)
    | write hw hreg => exact turn hreg (writing_passes h hw)
  refine ⟨s', u, ⟨h.claimed.step hl hu, hc', hfu, hb.joined h.joined, flows.still⟩, ?_,
    hb.ends h.joined.taken, flows⟩
  simp [handedOver, h.found.seat, hfu.seat]

/-- As long as it is attached to a session, nobody has told a client's reader to stop. -/
def AllOpen (g : Gateway) : Prop :=
  ∀ c s token n seat, g.socket? c = some s → Speaks s token → Found g token n seat → Open s seat

theorem bound_of_speaks (hr : Sound g) (ho : AllOpen g) (hc : g.socket? client = some s)
    (hs : Speaks s token) : ∃ n seat, Bound client token n s seat g := by
  obtain ⟨n, seat, hf, hj⟩ := hr.joined client s token hc hs
  exact ⟨n, seat, claimed_of_speaks hr hc hs, hc, hf, hj, ho client s token n seat hc hs hf⟩

theorem AllOpen.step (ho : AllOpen g) (hr : Sound g) (hl : Listed limit g.registry)
    (hu : (ids (g.step e).registry).Nodup) : AllOpen (g.step e) := by
  intro c s' token n u hc' hs' hf'
  rcases step_speaks hc' hs' with ⟨s, hc, hs⟩ | ⟨m, t, he⟩
  · obtain ⟨m, seat, hb⟩ := bound_of_speaks hr ho hc hs
    -- the client was attached before the step, and the step keeps that
    obtain ⟨s'', v, hb', -, -, -⟩ := hb.step (e := e) hl hu
    have hsock := hb'.socket
    rw [hc'] at hsock
    cases hsock
    obtain ⟨rfl, rfl⟩ := hf'.unique hb'.found
    exact hb'.isOpen
  · -- a connection that was just made
    obtain ⟨rfl, rfl⟩ := hf'.unique (he.lands hl hu)
    obtain ⟨hp, hq⟩ := bind_accepted.mp he.accepted
    intro other held hst
    rw [bind_first hp hq]
    rfl

theorem run_open (settings : Settings) (events : List Event) (hn : (tokens events).Nodup) :
    AllOpen (Gateway.run { settings } events) := by
  refine (run_keeps (p := fun past g => Reached settings past g ∧ AllOpen g) ?_ ?_ events hn).2
  · refine ⟨⟨in_step_start settings, sound_start settings⟩, ?_⟩
    intro c s token n seat hc
    simp [socket?] at hc
  · intro past g e ih hf
    have hr := ih.1.step hf
    exact ⟨hr, ih.2.step ih.1.sound ih.1.listed hr.listed.unique⟩

theorem run_flows (events : List Event) (hn : (tokens (past ++ events)).Nodup)
    (h : Bound client token n s seat (Gateway.run { settings } past)) :
    let g := Gateway.run { settings } past
    let sent := waiting s (events.flatMap (arrived settings.server.maxMessageBytes client))
    entered n g events <+: sent ∧
    ∃ s' u, Bound client token n s' u (g.run events) ∧
      ((g.run events).shutdown = false ∧ Hearing u →
        (g.shutdown = false ∧ Hearing seat) ∧ entered n g events ++ waiting s' [] = sent) := by
  induction events generalizing past s seat with
  | nil => exact ⟨List.nil_prefix, s, seat, h, fun hlive => ⟨hlive, rfl⟩⟩
  | cons e rest ih =>
    obtain ⟨hnow, hnext, hn⟩ := run_reached_cons hn
    obtain ⟨s₁, u₁, hb, hent, hends, hflow⟩ := h.step hnow.listed hnext.listed.unique
    rw [hnow.inStep.settings] at hflow
    have hrun : Gateway.run { settings } (past ++ [e]) =
        (Gateway.run { settings } past).step e := run_snoc _ _ _
    obtain ⟨hpart, s', u, hb', hall⟩ := ih hn (hrun ▸ hb)
    simp only [hrun] at hpart hb' hall
    simp only [entered, hent, List.flatMap_cons]
    refine ⟨?_, s', u, hb', fun hlive => ?_⟩
    · -- what this step hands over comes before what the rest of the run does
      exact ((List.prefix_append_right_inj _).mpr hpart).trans (hflow.part _)
    · obtain ⟨hlive₁, hrest⟩ := hall hlive
      refine ⟨⟨running_before hlive₁.1, hends.keys hlive₁.2.keys, hends.sizes hlive₁.2.sizes,
        hends.outbound hlive₁.2.outbound⟩, ?_⟩
      rw [List.append_assoc, hrest]
      exact hflow.all hlive₁ _

theorem handed_room (hj : Joined seat) (hh : Hearing seat)
    (h : Handed g w token n seat held r s') :
    (Roomy seat held → (∃ u, r = g.registry.setSeat n u ∧ entries seat u = [held]) ∧
      s' = { w with stage := .attached token none }) ∧
    (¬ Roomy seat held →
      r = g.registry ∧ s' = { w with stage := .attached token (some held) }) := by
  have ht := takes_of_hearing hj hh held
  have hp := push_pushed seat held
  generalize hafter : push seat held = after at hp
  cases hp with
  | closed hn => rw [ht] at hn; cases hn
  | full _ hroom =>
    refine ⟨fun hr => (hroom hr).elim, fun _ => ?_⟩
    cases h with
    | sent ho | closed ho => rw [hafter] at ho; cases ho
    | full => exact ⟨rfl, rfl⟩
  | sent _ hroom he =>
    refine ⟨fun _ => ?_, fun hn => (hn hroom).elim⟩
    cases h with
    | full ho | closed ho => rw [hafter] at ho; cases ho
    | sent =>
      rw [hafter]
      exact ⟨⟨_, rfl, he⟩, rfl⟩

/-- An attached reader hands over what it holds before it takes another frame. -/
theorem attached_turn (hb : Bound client token n s seat g) (hd : g.shutdown = false)
    {held? : Option Held} (hs : s.stage = .attached token held?)
    (h : Reading g client s r s') :
    (∃ item, held? = some item ∧ Handed g s token n seat item r s') ∨
    (held? = none ∧ s.inbox = []) ∨
    ∃ f rest, held? = none ∧ s.inbox = f :: rest ∧
      Routed g { s with inbox := rest } token n seat f r s' := by
  have mine {other : String} {held' : Option Held} (ha : s.stage = .attached other held') {m : Nat}
      {t : Seat} (hm : Found g other m t) :
      token = other ∧ held? = held' ∧ n = m ∧ seat = t := by
    obtain ⟨rfl, rfl, rfl⟩ := hb.mine (.inl ⟨_, ha⟩) hm
    rw [hs] at ha
    cases ha
    exact ⟨rfl, rfl, rfl, rfl⟩
  cases h with
  | idle hi hno =>
    cases held? with
    | none => exact .inr (.inl ⟨rfl, hi⟩)
    | some item => exact (hno token item hs).elim
  | done hw => rcases hw with ⟨other, hw⟩ | hw <;> rw [hs] at hw <;> cases hw
  | lost ha hno =>
    rw [hs] at ha
    cases ha
    exact (hno n seat hb.found).elim
  | closed hw | skip hw | leave hw => rcases hw with hw | hw <;> rw [hs] at hw <;> cases hw
  | greet hw => rw [hs] at hw; cases hw
  | dropped ha hm hcan =>
    obtain ⟨rfl, rfl, rfl, rfl⟩ := mine ha hm
    rw [hb.isOpen _ _ hs] at hcan
    cases hcan
  | offered ha hm hcan hh =>
    obtain ⟨rfl, rfl, rfl, rfl⟩ := mine ha hm
    exact .inl ⟨_, rfl, hh⟩
  | shut ha hm hcan hsd => rw [hd] at hsd; cases hsd
  | routed ha hm hcan hsd hi hr =>
    obtain ⟨rfl, rfl, rfl, rfl⟩ := mine ha hm
    exact .inr (.inr ⟨_, _, rfl, hi, hr⟩)

/-- What is held enters as soon as there is room for it. -/
theorem held_turn (hb : Bound client token n s seat g) (hd : g.shutdown = false)
    (hh : Hearing seat) (hs : s.stage = .attached token (some held)) :
    (Roomy seat held → ∃ u, entries seat u = [held] ∧ After g client (g.registry.setSeat n u)
      { s with stage := .attached token none } (g.step (.read client))) ∧
    (¬ Roomy seat held → After g client g.registry s (g.step (.read client))) := by
  obtain ⟨r, s', hread, ha⟩ := read_reading hb.socket
  rcases attached_turn hb hd hs hread with ⟨item, hi, h⟩ | ⟨hi, -⟩ | ⟨f, rest, hi, -⟩
  · cases hi
    obtain ⟨hroom, hfull⟩ := handed_room hb.joined hh h
    refine ⟨fun hr => ?_, fun hr => ?_⟩
    · obtain ⟨⟨u, rfl, he⟩, rfl⟩ := hroom hr
      exact ⟨u, he, ha⟩
    · obtain ⟨rfl, rfl⟩ := hfull hr
      rwa [← hs] at ha
  · cases hi
  · cases hi

theorem frame_turn (hb : Bound client token n s seat g) (hd : g.shutdown = false)
    (hh : Hearing seat) (hs : s.stage = .attached token none) (hi : s.inbox = f :: rest) :
    (∀ item, routed? f = some item →
      (Roomy seat item → ∃ u, entries seat u = [item] ∧ After g client (g.registry.setSeat n u)
        { s with inbox := rest } (g.step (.read client))) ∧
      (¬ Roomy seat item → After g client g.registry
        { s with stage := .attached token (some item), inbox := rest } (g.step (.read client)))) ∧
    (routed? f = none → closing f = false →
      After g client g.registry (answer { s with inbox := rest } f) (g.step (.read client))) ∧
    (closing f = true → ∃ u, entries seat u = [] ∧ After g client (g.registry.setSeat n u)
      { s with stage := .draining token, inbox := rest } (g.step (.read client))) := by
  obtain ⟨r, s', hread, ha⟩ := read_reading hb.socket
  rcases attached_turn hb hd hs hread with ⟨item, hn, -⟩ | ⟨-, hn⟩ | ⟨f', rest', -, hi', h⟩
  · cases hn
  · rw [hi] at hn
    cases hn
  rw [hi] at hi'
  cases hi'
  cases h with
  | skipped hr hc =>
    refine ⟨fun item hitem => ?_, fun _ _ => ha, fun hcl => ?_⟩
    · rw [hr] at hitem
      cases hitem
    · rw [hc] at hcl
      cases hcl
  | handed hr h =>
    obtain ⟨hroom, hfull⟩ := handed_room hb.joined hh h
    refine ⟨fun item hitem => ?_, fun hn => ?_, fun hcl => ?_⟩
    · rw [hr] at hitem
      cases hitem
      refine ⟨fun hroomy => ?_, fun hroomy => ?_⟩
      · obtain ⟨⟨u, rfl, he⟩, rfl⟩ := hroom hroomy
        rw [← hs] at ha
        exact ⟨u, he, ha⟩
      · obtain ⟨rfl, rfl⟩ := hfull hroomy
        exact ha
    · rw [hr] at hn
      cases hn
    · rw [routed_goes_on hr] at hcl
      cases hcl
  | left hc =>
    refine ⟨fun item hitem => ?_, fun _ hcl => ?_, fun _ => ?_⟩
    · rw [routed_goes_on hitem] at hc
      cases hc
    · rw [hc] at hcl
      cases hcl
    · exact ⟨cancelled seat, entries_same_queues rfl rfl, ha⟩

/-- A client's socket that is attached to a session, whatever happened before and whatever happens
next. What enters the session's queues is, in order, what the client's frames ask for, up to the
frame with which it leaves; while the gateway runs and session and socket are there, all the rest
waits in the socket. The queues grow at their ends only. The reader takes one frame at a time: one
that asks for nothing changes no session, one that finds room enters, and one that finds none is
held, with all frames behind it, until there is room. -/
theorem frames_are_routed_in_order (settings : Settings) (past : List Event) (client : Nat)
    (s : Socket) (token : String) (held : Option Held) (hn : (tokens past).Nodup)
    (hc : (Gateway.run { settings } past).socket? client = some s)
    (hs : s.stage = .attached token held) :
    let g := Gateway.run { settings } past
    ∃ n seat, Found g token n seat ∧
      (∀ events, (tokens (past ++ events)).Nodup →
        let g' := g.run events
        let news := events.flatMap (arrived settings.server.maxMessageBytes client)
        let sent := held.toList ++ asked (s.inbox ++ news)
        entered n g events <+: sent ∧
        ∀ u, g'.registry.seat? n = some u → g'.shutdown = false → Hearing u →
          ∃ s', g'.socket? client = some s' ∧ entered n g events ++ waiting s' [] = sent) ∧
      (∀ e u, (g.step e).registry.seat? n = some u →
        Grown seat.terminal.connection.stdin u.terminal.connection.stdin ∧
        Grown seat.terminal.sizes u.terminal.sizes) ∧
      (g.shutdown = false → Hearing seat →
        let g' := g.step (.read client)
        (∀ item, held = some item →
          (Roomy seat item → ∃ u, entries seat u = [item] ∧ After g client
            (g.registry.setSeat n u) { s with stage := .attached token none } g') ∧
          (¬ Roomy seat item → After g client g.registry s g')) ∧
        ∀ f rest, held = none → s.inbox = f :: rest →
          (∀ item, routed? f = some item →
            (Roomy seat item → ∃ u, entries seat u = [item] ∧ After g client
              (g.registry.setSeat n u) { s with inbox := rest } g') ∧
            (¬ Roomy seat item → After g client g.registry
              { s with stage := .attached token (some item), inbox := rest } g')) ∧
          (routed? f = none → closing f = false →
            After g client g.registry (answer { s with inbox := rest } f) g') ∧
          (closing f = true → ∃ u, entries seat u = [] ∧ After g client
            (g.registry.setSeat n u) { s with stage := .draining token, inbox := rest } g')) := by
  intro g
  have hr : Reached settings past g := run_reached settings past hn
  obtain ⟨n, seat, hb⟩ := bound_of_speaks hr.sound (run_open settings past hn) hc
    ((speaks_attached hs).mpr rfl)
  refine ⟨n, seat, hb.found, ?_, ?_, ?_⟩
  · intro events hn' g' news sent
    have hsent : sent = waiting s news := (waiting_attached hs news).symm
    obtain ⟨hpart, s', u, hb', hall⟩ := run_flows events hn' hb
    rw [hsent]
    refine ⟨hpart, fun v hv hd hh => ⟨s', hb'.socket, (hall ⟨hd, ?_⟩).2⟩⟩
    have hu := hb'.found.seat
    rw [show (Gateway.run { settings } past).run events = g' from rfl, hv] at hu
    cases hu
    exact hh
  · intro e u hu
    obtain ⟨v, hv, hbecame⟩ := effect_seat (step_effect hr.listed) hb.found.seat
    rw [hu] at hv
    cases hv
    exact hbecame.grown hb.joined.taken
  · intro hd hh g'
    refine ⟨fun item hitem => held_turn hb hd hh (hitem ▸ hs), fun f rest hnone hi => ?_⟩
    exact frame_turn hb hd hh (hnone ▸ hs) hi

/-- A client with a session. -/
def attachedClient : List Event :=
  [.start "a" ⟨none, "n", "p", "c"⟩ none, .connect 0,
    .frame 0 (.text (Wire.Envelope.bind "a").write), .read 0, .attend "a"]

/-- Keystrokes, frames that ask for nothing, a size, and keystrokes once the client has left. -/
def someFrames : List Event :=
  [.frame 0 (.text (Wire.Envelope.stdin "ls").write), .frame 0 (.binary [1]),
    .frame 0 (.text (Wire.Envelope.bind "b").write), .read 0, .read 0, .read 0,
    .frame 0 (.text (Wire.Envelope.resize ⟨30, 100⟩).write), .frame 0 .close,
    .frame 0 (.text (Wire.Envelope.stdin "x").write), .read 0, .read 0, .read 0]

theorem frames_of_one_client_are_routed :
    (tokens attachedClient).Nodup ∧ (tokens (attachedClient ++ someFrames)).Nodup ∧
    entered 0 (Gateway.run {} attachedClient) someFrames =
      [.keys "ls", .size ⟨30, 100⟩] := by
  have hn : (tokens attachedClient).Nodup := by decide
  have hn' : (tokens (attachedClient ++ someFrames)).Nodup := by decide
  have hc : (Gateway.run {} attachedClient).socket? 0 = some { stage := .attached "a" none } := by
    decide +kernel
  have hstarted : (Gateway.run {} attachedClient).registry.started? "a" = some 0 := by
    decide +kernel
  have hhearing : (((Gateway.run {} attachedClient).run someFrames).registry.seat? 0).map
      (fun u => (u.terminal.connection.stdin.receiving, u.terminal.sizes.receiving,
        u.terminal.connection.outbound.receiving)) = some (true, true, true) := by decide +kernel
  have hon : ((Gateway.run {} attachedClient).run someFrames).shutdown = false := by decide +kernel
  have hend : (((Gateway.run {} attachedClient).run someFrames).socket? 0).map
      (fun s' => waiting s' []) = some [] := by decide +kernel
  have hsent : asked (someFrames.flatMap (arrived ({} : Settings).server.maxMessageBytes 0)) =
      [.keys "ls", .size ⟨30, 100⟩] := by decide +kernel
  obtain ⟨n, seat, hf, hruns, -⟩ := frames_are_routed_in_order {} attachedClient 0 _ "a" none hn hc
    rfl
  have hzero := hf.started
  rw [hstarted] at hzero
  cases hzero
  obtain ⟨u, hu, hheard⟩ := Option.map_eq_some_iff.mp hhearing
  obtain ⟨hk, hrest⟩ := Prod.mk.inj hheard
  obtain ⟨hz, ho⟩ := Prod.mk.inj hrest
  obtain ⟨-, hall⟩ := hruns someFrames hn'
  obtain ⟨s', hs', heq⟩ := hall u hu hon ⟨hk, hz, ho⟩
  rw [hs'] at hend
  rw [Option.map_some, Option.some.injEq] at hend
  rw [hend, List.append_nil] at heq
  exact ⟨hn, hn', heq.trans hsent⟩

end PodConsole.Proofs.Routing
