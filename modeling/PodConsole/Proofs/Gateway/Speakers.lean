import PodConsole.Proofs.Gateway.Listing

namespace PodConsole.Proofs.Speakers
open Gateway Session Lifecycle Pushing Roster Seats Turns Changes Listing

variable {g g₀ : Gateway} {e : Event} {n m : Nat} {s t u : Seat} {token : String}
  {client c c' : Nat} {sock sock' : Socket} {r : Registry} {past : List Event} {limit : Nat}

/-- A session that a client was let in to. -/
structure Joined (s : Seat) : Prop where
  taken : available s.session.signal = false
  keys : s.terminal.connection.stdin.sending = true
  sizes : s.terminal.sizes.sending = true
  isSealed : Sealed s.terminal.connection

/-- What a session is after a step. -/
inductive Became (g : Gateway) (n : Nat) (s : Seat) (e : Event) : Seat → Prop
  | touched {t : Seat} : Touch g n s e t → Became g n s e t
  | closed {t : Seat} : Touch g n s e t → Became g n s e (closedSeat t)

theorem Became.same_id (h : Became g n s e u) : u.session.id = s.session.id := by
  cases h with
  | touched ht => exact ht.keeps.token
  | closed ht => exact ht.keeps.token

theorem closed_quiet (s : Seat) : Quiet s (closedSeat s) :=
  .same_terminal rfl

/-- Only a client's own socket hands anything to its session, or lets go of it. -/
theorem touch_cases (h : Touch g n s e t) (ht : available s.session.signal = false) :
    Quiet s t ∨ Own g n s e ∧ ((∃ held, t = (push s held).2) ∨ t = cancelled s ∨
      t = s.mapConnection Connection.stopWriting) := by
  cases h with
  | none => exact .inl (.refl s)
  | bind hg =>
    have hp : s.session.phase ≠ .closed := by
      simpa [isClosed] using (get_iff.mp hg).2.2
    rw [bind_taken hp ht]
    exact .inl (.refl s)
  | push own ho => exact .inr ⟨own, .inl ⟨_, rfl⟩⟩
  | cancel own => exact .inr ⟨own, .inr (.inl rfl)⟩
  | stop own => exact .inr ⟨own, .inr (.inr rfl)⟩
  | said own hi => exact .inl (said_quiet s _)
  | attend => exact .inl (attend_quiet s _ _)
  | attempted => exact .inl (attempted_quiet s _)
  | act => exact .inl (perform_quiet s _)

theorem touch_ends (h : Touch g n s e t) (ht : available s.session.signal = false) : Ends s t := by
  rcases touch_cases h ht with hq | ⟨-, ⟨held, rfl⟩ | rfl | rfl⟩
  · exact hq.toEnds
  · exact push_ends s held
  · exact cancel_ends s
  · exact stop_writing_ends s

theorem Became.ends (h : Became g n s e u) (ht : available s.session.signal = false) :
    Ends s u := by
  cases h with
  | touched h => exact touch_ends h ht
  | closed h => exact (touch_ends h ht).trans (closed_quiet _).toEnds

theorem Became.quiet (h : Became g n s e u) (ht : available s.session.signal = false)
    (ho : ¬ Own g n s e) : Quiet s u := by
  have touched {t : Seat} (h : Touch g n s e t) : Quiet s t :=
    (touch_cases h ht).resolve_right fun hown => ho hown.1
  cases h with
  | touched h => exact touched h
  | closed h => exact (touched h).trans (closed_quiet _)

/-- The queues of a session that was bound grow at their ends only. -/
theorem Became.grown (h : Became g n s e u) (ht : available s.session.signal = false) :
    Grown s.terminal.connection.stdin u.terminal.connection.stdin ∧
      Grown s.terminal.sizes u.terminal.sizes := by
  have touched {t : Seat} (h : Touch g n s e t) :
      Grown s.terminal.connection.stdin t.terminal.connection.stdin ∧
        Grown s.terminal.sizes t.terminal.sizes := by
    rcases touch_cases h ht with hq | ⟨-, ⟨held, rfl⟩ | rfl | rfl⟩
    · exact ⟨grown_suffix hq.keysLeft, grown_suffix hq.sizesLeft⟩
    · exact push_grown s held
    · exact ⟨grown_suffix List.suffix_rfl, grown_suffix List.suffix_rfl⟩
    · exact ⟨grown_suffix List.suffix_rfl, grown_suffix List.suffix_rfl⟩
  cases h with
  | touched h => exact touched h
  | closed h =>
    have hg := touched h
    exact hg

theorem Became.taken (h : Became g n s e u) (ht : available s.session.signal = false) :
    available u.session.signal = false := by
  cases h with
  | touched hs => exact hs.keeps.taken ht
  | closed hs => exact taken_stop_sending _

theorem Became.joined (h : Became g n s e u) (hj : Joined s) : Joined u := by
  have he := h.ends hj.taken
  exact ⟨h.taken hj.taken, he.keysSending.trans hj.keys, he.sizesSending.trans hj.sizes,
    he.isSealed hj.isSealed⟩

theorem effect_seat (h : Effect g e r) (hs : g.registry.seat? n = some s) :
    ∃ u, r.seat? n = some u ∧ Became g n s e u := by
  cases h with
  | same => exact ⟨s, hs, .touched .none⟩
  | placed hm ht ho =>
    rename_i m v t
    rw [seat_set hm]
    split
    · rename_i hn
      subst hn
      rw [hs] at hm
      cases hm
      exact ⟨t, rfl, .touched ht⟩
    · exact ⟨s, hs, .touched .none⟩
  | closing hm ht hc ho =>
    rename_i m v t
    rw [closing_seat hm]
    split
    · rename_i hn
      subst hn
      rw [hs] at hm
      cases hm
      exact ⟨closedSeat t, rfl, .closed ht⟩
    · exact ⟨s, hs, .touched .none⟩
  | admitted he hr =>
    rw [admitted_seat, if_neg (Nat.ne_of_lt (List.getElem?_eq_some_iff.mp hs).1)]
    exact ⟨s, hs, .touched .none⟩

/-- Sessions come from starts only. -/
theorem effect_origin (h : Effect g e r) (hu : r.seat? n = some u) :
    (∃ s, g.registry.seat? n = some s ∧ Became g n s e u) ∨
    ∃ token target hint, u = newSeat g token target hint := by
  cases hs : g.registry.seat? n with
  | some s =>
    obtain ⟨v, hv, hb⟩ := effect_seat h hs
    rw [hu] at hv
    cases hv
    exact .inl ⟨s, rfl, hb⟩
  | none =>
    -- a number that had no session has one now
    right
    cases h with
    | same => rw [hs] at hu; cases hu
    | placed hm ht ho =>
      rename_i m v t
      have hne : n ≠ m := fun hn => by rw [hn, hm] at hs; cases hs
      rw [seat_set_other _ _ hne, hs] at hu
      cases hu
    | closing hm ht hc ho =>
      rename_i m v t
      have hne : n ≠ m := fun hn => by rw [hn, hm] at hs; cases hs
      rw [closing_seat hm, if_neg hne, hs] at hu
      cases hu
    | admitted he hr =>
      rename_i token target hint
      rw [admitted_seat, hs] at hu
      split at hu
      · cases hu
        exact ⟨token, target, hint, rfl⟩
      · cases hu

/-- With tokens that are used once, it is a session's own token that finds it. -/
theorem found_iff (hu : (ids g.registry).Nodup) :
    Found g token n s ↔ g.registry.seat? n = some s ∧ s.session.id = token := by
  constructor
  · intro h
    obtain ⟨t, ht, hid⟩ := (started_seat hu).mp h.started
    have hs := h.seat
    rw [ht] at hs
    cases hs
    exact ⟨ht, hid⟩
  · rintro ⟨hs, hid⟩
    exact ⟨(started_seat hu).mpr ⟨s, hs, hid⟩, hs⟩

/-- A session stays where it is under its token. -/
theorem found_step (h : Listed limit g.registry) (h' : (ids (g.step e).registry).Nodup)
    (hf : Found g token n s) : ∃ u, Found (g.step e) token n u ∧ Became g n s e u := by
  obtain ⟨hs, hid⟩ := (found_iff h.unique).mp hf
  obtain ⟨u, hu, hb⟩ := effect_seat (step_effect h) hs
  exact ⟨u, (found_iff h').mpr ⟨hu, hb.same_id.trans hid⟩, hb⟩

theorem speaks_same_stage (h : Speaks sock' token) (hs : sock'.stage = sock.stage) :
    Speaks sock token := by
  unfold Speaks at h ⊢
  rwa [← hs]

theorem mute_of_stage (hs : sock.stage = .greeting ∨ sock.stage = .listening ∨ sock.stage = .over) :
    ¬ Speaks sock token := by
  rintro (⟨held, h⟩ | h) <;> rcases hs with hs | hs | hs <;> simp [hs] at h

theorem emit_stage (sock : Socket) (out : Sent) : (sock.emit out).stage = sock.stage := by
  unfold Socket.emit
  split <;> rfl

theorem receive_stage (sock : Socket) (f : Frame) : (sock.receive f).stage = sock.stage := by
  unfold Socket.receive
  split <;> rfl

theorem answer_stage (sock : Socket) (f : Frame) : (answer sock f).stage = sock.stage := by
  cases f with
  | ping payload => exact emit_stage sock _
  | text | binary | pong | close | ended | broken => rfl

theorem finish_mute (sock : Socket) : ¬ Speaks sock.finish token :=
  mute_of_stage (.inr (.inr rfl))

/-- A socket for a log has no session, and never asks for one. -/
theorem log_stage (shutdown : Bool) (source : Option Log.Source) :
    (Socket.ofLog shutdown source).stage = .listening ∨
      (Socket.ofLog shutdown source).stage = .over := by
  unfold Socket.ofLog
  split
  · exact .inr rfl
  · split
    · exact .inr rfl
    · dsimp only
      split
      · exact .inl rfl
      · exact .inr rfl

/-- A client is let in to the session that it named. -/
structure Enters (g : Gateway) (client : Nat) (token : String) (e : Event) (r : Registry) (n : Nat)
    (s : Seat) : Prop where
  turn : e = .read client
  greeting : ∃ sock, g.socket? client = some sock ∧ sock.stage = .greeting
  named : g.registry.get? token = some (n, s)
  accepted : (s.bind client g.connection).1 = .ok ()
  after : r = g.registry.setSeat n (s.bind client g.connection).2

theorem speaks_attached {held : Option Held} (hs : sock.stage = .attached token held)
    {token' : String} : Speaks sock token' ↔ token' = token := by
  simp [Speaks, hs, eq_comm]

theorem speaks_draining (hs : sock.stage = .draining token) {token' : String} :
    Speaks sock token' ↔ token' = token := by
  simp [Speaks, hs, eq_comm]

theorem handed_speaks {held : Held} (h : Handed g sock token n s held r sock')
    {token' : String} (hs : Speaks sock' token') : token' = token := by
  cases h with
  | sent ho | full ho => exact (speaks_attached rfl).mp hs
  | closed ho => exact (speaks_draining rfl).mp hs

theorem routed_speaks {f : Frame} (h : Routed g sock token n s f r sock')
    (ha : Speaks sock token) {token' : String} (hs : Speaks sock' token') :
    Speaks sock token' := by
  cases h with
  | skipped hr hc => exact speaks_same_stage hs (answer_stage sock f)
  | handed hr hh => exact handed_speaks hh hs ▸ ha
  | left hc => exact (speaks_draining rfl).mp hs ▸ ha

theorem reading_speaks (hc : g.socket? client = some sock) (h : Reading g client sock r sock')
    (hs : Speaks sock' token) :
    Speaks sock token ∨ ∃ n s, Enters g client token (.read client) r n s := by
  cases h with
  | idle | done | lost => exact .inl hs
  | closed | leave => exact (finish_mute _ hs).elim
  | skip hw hd hi hc ht => exact .inl (speaks_same_stage hs (answer_stage _ _))
  | greet hg hd hi ho =>
    cases ho with
    | stranger | unknown | taken | refused => exact (finish_mute _ hs).elim
    | bound hp hn hb =>
      cases (speaks_attached rfl).mp hs
      exact .inr ⟨_, _, rfl, ⟨sock, hc, hg⟩, hn, hb, rfl⟩
  | dropped ha hf hc | shut ha hf hc hd =>
    exact .inl ((speaks_attached ha).mpr ((speaks_draining rfl).mp hs))
  | offered ha hf hc hh => exact .inl ((speaks_attached ha).mpr (handed_speaks hh hs))
  | routed ha hf hc hd hi hr => exact .inl (routed_speaks hr ((speaks_attached ha).mpr rfl) hs)

theorem writing_speaks (h : Writing g sock r sock') (hs : Speaks sock' token) :
    Speaks sock token := by
  cases h with
  | wait => exact hs
  | cut => exact (mute_of_stage (.inr (.inr rfl)) hs).elim
  | said => exact speaks_same_stage hs (emit_stage _ _)
  | ended => exact (finish_mute _ hs).elim

theorem stepped_speaks (hc : g.socket? c = some sock) (h : Stepped g c sock e sock')
    (hs : Speaks sock' token) :
    Speaks sock token ∨ ∃ n s, Enters g c token e (g.step e).registry n s := by
  cases h with
  | same hm => exact .inl hs
  | frame => exact .inl (speaks_same_stage hs (receive_stage _ _))
  | cut => exact .inl (speaks_same_stage hs (receive_stage sock .ended))
  | read hr hreg => exact hreg ▸ reading_speaks hc hr hs
  | write hw hreg => exact .inl (writing_speaks hw hs)

/-- A socket speaks for the session that it spoke for, or for the one that it was just let in to. -/
theorem step_speaks (hc : (g.step e).socket? c = some sock') (hs : Speaks sock' token) :
    (∃ sock, g.socket? c = some sock ∧ Speaks sock token) ∨
    ∃ n s, Enters g c token e (g.step e).registry n s := by
  cases ho : g.socket? c with
  | none =>
    rcases new_socket ho hc with rfl | ⟨source, rfl⟩
    · exact (mute_of_stage (.inl rfl) hs).elim
    · exact (mute_of_stage (.inr (log_stage _ _)) hs).elim
  | some sock =>
    obtain ⟨sock'', hc', hst⟩ := step_socket ho e
    rw [hc] at hc'
    cases hc'
    exact (stepped_speaks ho hst hs).imp (fun h => ⟨sock, rfl, h⟩) id

theorem bind_joined {conn : Connection} (hb : (s.bind client conn).1 = .ok ())
    (hk : conn.stdin.sending = true) (ho : conn.outbound.sending = true)
    (hz : s.terminal.sizes.sending = true) : Joined (s.bind client conn).2 := by
  obtain ⟨hp, hq⟩ := bind_accepted.mp hb
  rw [bind_first hp hq]
  refine ⟨?_, hk, hz, fun hn => ?_⟩
  · simp [welcomed, welcome_signal, available]
  · rw [show conn.outbound.sending = false from hn] at ho
    cases ho

theorem became_sizes (h : Became g n s e u) :
    u.terminal.sizes.sending = s.terminal.sizes.sending := by
  have touched {t : Seat} (ht : Touch g n s e t) :
      t.terminal.sizes.sending = s.terminal.sizes.sending := by
    cases ht with
    | bind hg =>
      rename_i client token
      obtain ⟨-, -, -, ht⟩ := bind_seat s client g.connection
      rw [ht]
      split <;> rfl
    | none => rfl
    | push ho hp => exact (push_ends s _).sizesSending
    | cancel | stop | said => rfl
    | attend => exact (attend_quiet s _ _).sizesSending
    | attempted => exact (attempted_quiet s _).sizesSending
    | act => exact (perform_quiet s _).sizesSending
  cases h with
  | touched ht => exact touched ht
  | closed ht =>
    have hz := touched ht
    exact hz

/-- One socket at most speaks for a session, and only for one that it was let in to. -/
structure Sound (g : Gateway) : Prop where
  sizes : ∀ n s, g.registry.seat? n = some s → s.terminal.sizes.sending = true
  joined : ∀ c sock token, g.socket? c = some sock → Speaks sock token →
    ∃ n s, Found g token n s ∧ Joined s
  alone : ∀ c c' sock sock' token, g.socket? c = some sock → g.socket? c' = some sock' →
    Speaks sock token → Speaks sock' token → c = c'

theorem Enters.found (h : Enters g client token e r n s) (hl : Listed limit g.registry) :
    Found g token n s := by
  obtain ⟨hent, hs, -⟩ := get_iff.mp h.named
  obtain ⟨t, ht, hid, -⟩ := (hl.entry token n).mp hent
  rw [hs] at ht
  cases ht
  exact (found_iff hl.unique).mpr ⟨hs, hid⟩

theorem Enters.lands (h : Enters g client token e (g.step e).registry n s)
    (hl : Listed limit g.registry) (hu : (ids (g.step e).registry).Nodup) :
    Found (g.step e) token n (s.bind client g.connection).2 := by
  obtain ⟨hseat, hid⟩ := (found_iff hl.unique).mp (h.found hl)
  refine (found_iff hu).mpr ⟨?_, (bind_keeps s client g.connection).token.trans hid⟩
  rw [h.after]
  exact seat_set_self hseat _

/-- A session whose signal was used lets nobody in. -/
theorem Enters.untaken (h : Enters g client token e r n s) (hl : Listed limit g.registry)
    (hf : Found g token m t) : available t.session.signal = true := by
  obtain ⟨rfl, rfl⟩ := hf.unique (h.found hl)
  rw [(bind_accepted.mp h.accepted).2]
  rfl

/-- Nobody is let in to a session that a socket speaks for. -/
theorem Sound.unspoken (h : Sound g) (hl : Listed limit g.registry)
    (he : Enters g client token e r n s) (hc : g.socket? c = some sock) :
    ¬ Speaks sock token := by
  intro hs
  obtain ⟨m, t, hf, hj⟩ := h.joined c sock token hc hs
  have ht := he.untaken hl hf
  rw [hj.taken] at ht
  cases ht

theorem Sound.step (h : Sound g) (hl : Listed limit g.registry)
    (hu : (ids (g.step e).registry).Nodup) : Sound (g.step e) where
  sizes := by
    intro n u hn
    rcases effect_origin (step_effect hl) hn with ⟨s, hs, hb⟩ | ⟨token, target, hint, rfl⟩
    · rw [became_sizes hb]
      exact h.sizes n s hs
    · rfl
  joined := by
    intro c sock' token hc hs
    rcases step_speaks hc hs with ⟨sock, ho, hso⟩ | ⟨n, s, he⟩
    · obtain ⟨n, s, hf, hj⟩ := h.joined c sock token ho hso
      obtain ⟨u, hfu, hb⟩ := found_step hl hu hf
      exact ⟨n, u, hfu, hb.joined hj⟩
    · exact ⟨n, _, he.lands hl hu,
        bind_joined he.accepted rfl rfl (h.sizes n s (he.found hl).seat)⟩
  alone := by
    intro c c' sock₁ sock₂ token hc hc' hs hs'
    rcases step_speaks hc hs with ⟨sock, ho, hso⟩ | ⟨n, s, he⟩
    · rcases step_speaks hc' hs' with ⟨sock', ho', hso'⟩ | ⟨n', s', he'⟩
      · exact h.alone c c' sock sock' token ho ho' hso hso'
      · exact (h.unspoken hl he' ho hso).elim
    · rcases step_speaks hc' hs' with ⟨sock', ho', hso'⟩ | ⟨n', s', he'⟩
      · exact (h.unspoken hl he ho' hso').elim
      · -- one turn lets in one client
        have ht := he.turn.symm.trans he'.turn
        exact Event.read.inj ht

theorem sound_start (settings : Settings) : Sound { settings } := by
  refine ⟨?_, ?_, ?_⟩
  · simp [Registry.seat?]
  · simp [socket?]
  · simp [socket?]

/-- What holds along every run. -/
structure Reached (settings : Settings) (past : List Event) (g : Gateway) : Prop where
  inStep : InStep { settings } past g
  sound : Sound g

theorem Reached.listed {settings : Settings} (h : Reached settings past g) :
    Listed settings.session.maxSessions g.registry :=
  h.inStep.tally.listed

theorem Reached.step {settings : Settings} (h : Reached settings past g)
    (hf : ∀ token, token? e = some token → token ∉ tokens past) :
    Reached settings (past ++ [e]) (g.step e) := by
  have hi := h.inStep.step hf
  exact ⟨hi, h.sound.step h.listed hi.tally.listed.unique⟩

theorem run_reached (settings : Settings) (events : List Event) (hn : (tokens events).Nodup) :
    Reached settings events (Gateway.run { settings } events) :=
  run_keeps ⟨in_step_start settings, sound_start settings⟩ (fun _ _ _ ih hf => ih.step hf) events hn

/-- The first step of the rest of a run. -/
theorem run_reached_cons {settings : Settings} {rest : List Event}
    (hn : (tokens (past ++ e :: rest)).Nodup) :
    Reached settings past (Gateway.run { settings } past) ∧
      Reached settings (past ++ [e]) ((Gateway.run { settings } past).step e) ∧
      (tokens (past ++ [e] ++ rest)).Nodup := by
  have happ : past ++ e :: rest = past ++ [e] ++ rest := by simp
  rw [happ] at hn
  have hnext := hn
  rw [tokens_append, List.nodup_append] at hnext
  have hpast := hnext.1
  rw [tokens_append, List.nodup_append] at hpast
  refine ⟨run_reached settings past hpast.1, ?_, hn⟩
  rw [← run_snoc]
  exact run_reached settings _ hnext.1

end PodConsole.Proofs.Speakers
