import PodConsole.Proofs.Gateway.Handshake
import PodConsole.Proofs.Gateway.Sameness

namespace PodConsole.Proofs.Isolation
open Gateway Session Pushing Roster Seats Turns Changes Listing Speakers Handshake Sparing
  Sameness

variable {g g' : Gateway} {e : Event} {client c : Nat} {sock s' : Socket} {token other : String}
  {limit limit' : Nat} {settings : Settings} {keep : Nat → Bool} {asked : List Nat}
  {past past' rest : List Event}

/-- Whether a step is about the session of `token`, one of the clients that are kept, or all. -/
def belongs (token : String) (keep : Nat → Bool) : Event → Bool
  | .start own _ _ | .attend own | .act own _ | .attempt own _ | .close own => own = token
  | .connect client | .follow client _ | .frame client _ | .cut client | .read client
  | .write client => keep client
  | .pass _ | .shutdown => true

/-- The clients that asked for a session. -/
def askers (token : String) : Gateway → List Event → List Nat :=
  along fun g e => (asker? token g e).toList

def shownPhase (token : String) (g : Gateway) (e : Event) : List Phase :=
  let before := seatOf g.registry token
  let after := seatOf (g.step e).registry token
  if after.map (·.session.changes) = before.map (·.session.changes) then []
  else (after.map (·.session.phase)).toList

/-- The phases of a session, one after the other. -/
def phases (token : String) : Gateway → List Event → List Phase :=
  along (shownPhase token)

/-- A client of which all steps were kept. If it asks for another session, it may find it in the
first of two gateways only; it has nothing to do with the session of `token` then. -/
inductive Parallel (token : String) (asked : Prop) : Option Socket → Option Socket → Prop
  | same {sock : Option Socket} : (asked → ∃ s, sock = some s ∧ s.stage ≠ .greeting) →
      Parallel token asked sock sock
  | astray {s s' : Socket} : ¬ asked → s.stage ≠ .greeting → ¬ Speaks s token → s'.stage = .over →
      Parallel token asked (some s) (some s')

/-- A gateway, and one that knows of the session of `token` alone. -/
structure Alike (token : String) (keep : Nat → Bool) (asked : List Nat) (g g' : Gateway) :
    Prop where
  settings : g'.settings = g.settings
  clock : g'.clock = g.clock
  shutdown : g'.shutdown = g.shutdown
  seat : seatOf g'.registry token = seatOf g.registry token
  alone : ∀ id ∈ ids g'.registry, id = token
  kept : ∀ c, keep c = true → Parallel token (c ∈ asked) (g.socket? c) (g'.socket? c)
  away : ∀ c, keep c = false → ∀ s, g.socket? c = some s → ¬ Speaks s token

/-- A socket that asks for a session is greeted in this turn. -/
theorem asks_greeted (hc : g.socket? client = some sock)
    (ha : asks g.shutdown sock = some other) : ∃ text rest r s',
      Wire.Command.parse text = .ok (.bind other) ∧
      Greeted g client { sock with inbox := rest } text r s' ∧
      (g.step (.read client)).socket? client = some s' := by
  obtain ⟨hs, hd, text, rest, hi, hp⟩ := asks_iff.mp ha
  obtain ⟨r, s', hr, hafter⟩ := read_reading hc
  rcases greeting_turn hr hs hd hi with ⟨hidle, -⟩ | ⟨hcl, -⟩ | ⟨text', ht, hg⟩
  · cases hidle
  · cases hcl
  · cases ht
    exact ⟨text, rest, r, s', hp, hg, hafter.socket⟩

theorem greeted_settled {text : String} {r : Registry} (h : Greeted g client sock text r s') :
    s'.stage ≠ .greeting := by
  cases h <;> exact nofun

/-- Nobody is let in to a session that is not there. -/
theorem greeted_unknown {text : String} {r : Registry} (hl : Listed limit g.registry)
    (hp : Wire.Command.parse text = .ok (.bind other)) (hn : other ∉ ids g.registry)
    (h : Greeted g client sock text r s') : s'.stage = .over := by
  cases h with
  | stranger | unknown | taken | refused => rfl
  | bound hp' hg =>
    rw [hp] at hp'
    cases hp'
    obtain ⟨hf, -⟩ := (get_found hl).mp hg
    exact (hn (mem_ids.mpr ⟨_, _, hf.seat, found_id hf⟩)).elim

theorem stepped_over (h : Stepped g c sock e s') (hs : sock.stage = .over) : s'.stage = .over := by
  cases h with
  | same => exact hs
  | frame => rw [receive_stage, hs]
  | cut =>
    have hr := receive_stage sock .ended
    rw [hs] at hr
    exact hr
  | read hr =>
    cases hr with
    | idle | done | lost => exact hs
    | closed | leave => rfl
    | skip hw | greet hw | dropped hw | offered hw | shut hw | routed hw => simp [hs] at hw
  | write hw =>
    cases hw with
    | wait => exact hs
    | cut hsp | said hsp | ended hsp => exact (mute_of_stage (.inr (.inr hs)) hsp).elim

/-- A socket that both have speaks for the session of `token`, if for any. -/
theorem Alike.devoted (h : Alike token keep asked g g') (hs : Sound g) (hs' : Sound g')
    (hc : g.socket? c = some sock) (hsame : g'.socket? c = g.socket? c) :
    Devoted token g sock := by
  refine ⟨fun other hsp => ?_, fun hsp => ?_⟩
  · obtain ⟨n, s, hf, -⟩ := hs'.joined c sock other (hsame.trans hc) hsp
    exact h.alone other (mem_ids.mpr ⟨n, s, hf.seat, found_id hf⟩)
  · obtain ⟨n, s, hf, -⟩ := hs.joined c sock token hc hsp
    exact ⟨n, s, hf⟩

/-- A kept client that asks for another session has nothing to do with this one. -/
theorem Alike.strays (h : Alike token keep asked g g') (hl : Listed limit g.registry)
    (hl' : Listed limit' g'.registry) (hc : g.socket? c = some sock)
    (hsame : g'.socket? c = g.socket? c) (ha : asks g.shutdown sock = some other)
    (hid : other ≠ token) :
    seatOf (g'.step (.read c)).registry token = seatOf (g.step (.read c)).registry token ∧
      ∃ s₁ s₂, (g.step (.read c)).socket? c = some s₁ ∧ (g'.step (.read c)).socket? c = some s₂ ∧
        s₁.stage ≠ .greeting ∧ ¬ Speaks s₁ token ∧ s₂.stage = .over := by
  have hc' : g'.socket? c = some sock := hsame.trans hc
  have ha' : asks g'.shutdown sock = some other := h.shutdown ▸ ha
  have hmute : ¬ Speaks sock token := mute_of_stage (.inl (asks_iff.mp ha).1)
  have hother : some other ≠ some token := by simpa using hid
  have hread : client? (.read c) = some c := rfl
  obtain ⟨hseat, hafter⟩ := socket_aside hl hread hc hmute (ha ▸ hother)
  obtain ⟨hseat', -⟩ := socket_aside hl' hread hc' hmute (ha' ▸ hother)
  obtain ⟨text, rest, r, s₁, hp, hg, hs₁⟩ := asks_greeted hc ha
  obtain ⟨text', rest', r', s₂, hp', hg', hs₂⟩ := asks_greeted hc' ha'
  have hn : other ∉ ids g'.registry := fun hm => hid (h.alone other hm)
  exact ⟨hseat'.trans (h.seat.trans hseat.symm), s₁, s₂, hs₁, hs₂, greeted_settled hg,
    hafter s₁ hs₁, greeted_unknown hl' hp' hn hg'⟩

theorem Parallel.weaken {p q : Prop} {o o' : Option Socket} (h : Parallel token p o o')
    (hqp : q → p) : Parallel token q o o' := by
  cases h with
  | same hset => exact .same fun hq => hset (hqp hq)
  | astray hp hg hm ho => exact .astray (fun hq => hp (hqp hq)) hg hm ho

/-- A kept client that has gone astray stays there. -/
theorem Alike.astray_step (h : Alike token keep asked g g') (hl : Listed limit g.registry)
    (hl' : Listed limit' g'.registry) (he : client? e = some c) (hc : g.socket? c = some sock)
    (hc' : g'.socket? c = some s') (hg : sock.stage ≠ .greeting) (hm : ¬ Speaks sock token)
    (hover : s'.stage = .over) :
    asker? token g e = none ∧
      seatOf (g'.step e).registry token = seatOf (g.step e).registry token ∧
      ∃ s₁ s₂, (g.step e).socket? c = some s₁ ∧ (g'.step e).socket? c = some s₂ ∧
        s₁.stage ≠ .greeting ∧ ¬ Speaks s₁ token ∧ s₂.stage = .over := by
  have hover' : s'.stage ≠ .greeting := by simp [hover]
  obtain ⟨hseat, hmute⟩ := socket_aside hl he hc hm (not_asks_of_settled hg)
  obtain ⟨hseat', -⟩ := socket_aside hl' he hc' (mute_of_stage (.inr (.inr hover)))
    (not_asks_of_settled hover')
  obtain ⟨s₁, hs₁, hst⟩ := step_socket hc e
  obtain ⟨s₂, hs₂, hst'⟩ := step_socket hc' e
  exact ⟨not_asker he hc (not_asks_of_settled hg), hseat'.trans (h.seat.trans hseat.symm), s₁, s₂,
    hs₁, hs₂, fun hg₁ => hg (stepped_greeting hst hg₁).1, hmute s₁ hs₁, stepped_over hst' hover⟩

/-- The step of a kept client. -/
theorem Alike.client_step (h : Alike token keep asked g g') (hr : Reached settings past g)
    (hr' : Reached settings past' g') (he : client? e = some c) (hk : keep c = true) :
    seatOf (g'.step e).registry token = seatOf (g.step e).registry token ∧
      Parallel token (c ∈ asked ++ (asker? token g e).toList) ((g.step e).socket? c)
        ((g'.step e).socket? c) := by
  have hp := h.kept c hk
  generalize ho : g.socket? c = o at hp
  generalize ho' : g'.socket? c = o' at hp
  cases hp with
  | astray hna hg hm hover =>
    obtain ⟨hask, hseat, s₁, s₂, hs₁, hs₂, hg₁, hm₁, hover₂⟩ :=
      h.astray_step hr.listed hr'.listed he ho ho' hg hm hover
    refine ⟨hseat, ?_⟩
    rw [hs₁, hs₂, hask]
    exact .astray (by simpa using hna) hg₁ hm₁ hover₂
  | same hset =>
    have hsame : Same token c g g' := ⟨h.settings, h.shutdown, h.seat, ho'.trans ho.symm⟩
    by_cases hstray : ∃ s other, e = .read c ∧ o = some s ∧ asks g.shutdown s = some other ∧
        other ≠ token
    · obtain ⟨s, other, rfl, rfl, ha, hid⟩ := hstray
      obtain ⟨hseat, s₁, s₂, hs₁, hs₂, hg, hm, hover⟩ :=
        h.strays hr.listed hr'.listed ho hsame.socket ha hid
      have hask : asker? token g (.read c) = none :=
        not_asker rfl ho (ha ▸ by simpa using hid)
      refine ⟨hseat, ?_⟩
      rw [hs₁, hs₂, hask]
      refine .astray (fun hasked => ?_) hg hm hover
      -- whoever asked before greets no more
      obtain ⟨t, ht, hset⟩ := hset (by simpa using hasked)
      cases ht
      exact hset (asks_iff.mp ha).1
    · have hnext := hsame.step hr.listed hr'.listed he
        (fun s hs => h.devoted hr.sound hr'.sound hs hsame.socket)
        (fun hread s other hs ha => by
          by_contra hid
          exact hstray ⟨s, other, hread, ho.symm.trans hs, ha, hid⟩)
      refine ⟨hnext.seat, ?_⟩
      rw [hnext.socket]
      refine .same fun hasked => ?_
      rcases List.mem_append.mp hasked with hold | hnew
      · obtain ⟨s, rfl, hg⟩ := hset hold
        obtain ⟨s₁, hs₁, hst⟩ := step_socket ho e
        exact ⟨s₁, hs₁, fun hg₁ => hg (stepped_greeting hst hg₁).1⟩
      · -- its session was named in this very turn
        obtain ⟨rfl, hask⟩ := asker_some (Option.mem_toList.mp hnew)
        obtain ⟨s, rfl, ha⟩ := Option.bind_eq_some_iff.mp (ho ▸ hask)
        obtain ⟨text, rest, r, s₁, -, hg, hs₁⟩ := asks_greeted ho ha
        exact ⟨s₁, hs₁, greeted_settled hg⟩

theorem belongs_client (token : String) (keep : Nat → Bool) (he : client? e = some c) :
    belongs token keep e = keep c := by
  cases e with
  | start | attend | act | attempt | close | pass | shutdown => cases he
  | connect | follow | frame | cut | read | write =>
    cases he
    rfl

theorem belongs_subject (token : String) (keep : Nat → Bool) (he : subject? e = some other) :
    belongs token keep e = decide (other = token) := by
  cases e with
  | start | connect | follow | frame | cut | read | write | pass | shutdown => cases he
  | attend | act | attempt | close =>
    cases he
    rfl

/-- A step that was taken out. -/
theorem Alike.dropped (h : Alike token keep asked g g') (hr : Reached settings past g)
    (hb : belongs token keep e = false) (hask : asker? token g e = none) :
    Alike token keep asked (g.step e) g' ∧
      seatOf (g.step e).registry token = seatOf g.registry token := by
  obtain ⟨hclock, hshutdown⟩ := step_time hr.sound e
  have still : elapsed e = 0 ∧ halts e = false := by
    cases e with
    | pass | shutdown => cases hb
    | start | connect | follow | frame | cut | read | write | attend | act | attempt | close =>
      exact ⟨rfl, rfl⟩
  have foreign {c : Nat} (hc : client? e = some c) : keep c = false :=
    (belongs_client token keep hc).symm.trans hb
  have aside {c : Nat} (hc : client? e = some c) :=
    client_aside hr.listed hc (h.away c (foreign hc)) hask
  have hseat : seatOf (g.step e).registry token = seatOf g.registry token := by
    cases hc : client? e with
    | some c => exact (aside hc).1
    | none =>
      cases hs : subject? e with
      | some other =>
        have hid : other ≠ token := by
          have ho := (belongs_subject token keep hs).symm.trans hb
          simpa using ho
        rw [subject_step hr.listed hs, if_neg hid]
      | none =>
        cases e with
        | connect | follow | frame | cut | read | write => cases hc
        | attend | act | attempt | close => cases hs
        | pass | shutdown => cases hb
        | start other =>
          have hid : other ≠ token := by simpa [belongs] using hb
          exact start_seat_of g hid
  refine ⟨⟨?_, ?_, ?_, h.seat.trans hseat.symm, h.alone, fun c hc => ?_, fun c hc s hs => ?_⟩, hseat⟩
  · rw [step_settings, h.settings]
  · rw [hclock, still.1, h.clock, Nat.add_zero]
  · rw [hshutdown, still.2, h.shutdown, Bool.or_false]
  · have hne : client? e ≠ some c := fun he => by
      rw [foreign he] at hc
      cases hc
    rw [other_socket hne]
    exact h.kept c hc
  · by_cases he : client? e = some c
    · exact (aside he).2 s hs
    · rw [other_socket he] at hs
      exact h.away c hc s hs

theorem roster_empty {r : Registry} (h : Listed limit r) (hn : ids r = []) : r.roster = [] := by
  cases hr : r.roster with
  | nil => rfl
  | cons entry rest =>
    have hent : r.entry? entry.1 = some entry.2 := by simp [Registry.entry?, hr]
    obtain ⟨s, hs, hid, -⟩ := (h.entry _ _).mp hent
    have hm : s.session.id ∈ ids r := mem_ids.mpr ⟨_, s, hs, rfl⟩
    rw [hn] at hm
    cases hm

/-- Where a session was started among others, it is started alone. -/
theorem Alike.start_step (h : Alike token keep asked g g') (hl' : Listed limit' g'.registry)
    {target : Exec.Target} {hint : Option String} (hnone : seatOf g.registry token = none)
    (hsome : (seatOf (g.step (.start token target hint)).registry token).isSome) :
    seatOf (g'.step (.start token target hint)).registry token =
      seatOf (g.step (.start token target hint)).registry token := by
  have hids : ids g'.registry = [] := by
    refine List.eq_nil_iff_forall_not_mem.mpr fun id hid => ?_
    have hfree := seat_of_none.mp (h.seat.trans hnone)
    exact hfree (h.alone id hid ▸ hid)
  have hroster := roster_empty hl' hids
  have hnew : newSeat g' token target hint = newSeat g token target hint := by
    simp [newSeat, bindDeadline, h.settings, h.clock]
  rw [Gateway.step, start_registry] at hsome
  split at hsome
  · rename_i hroom
    have hroom' : g'.registry.size < g'.settings.session.maxSessions ∧
        g'.registry.entry? token = none := by
      refine ⟨?_, by simp [Registry.entry?, hroster]⟩
      rw [h.settings, Registry.size, hroster]
      exact Nat.lt_of_le_of_lt (Nat.zero_le _) hroom.1
    rw [Gateway.step, Gateway.step, start_registry, start_registry, if_pos hroom, if_pos hroom',
      admitted_seat_of, admitted_seat_of, h.seat, hnew]
  · rw [hnone] at hsome
    cases hsome

/-- A step that was kept. -/
theorem Alike.kept_step (h : Alike token keep asked g g') (hr : Reached settings past g)
    (hr' : Reached settings past' g') (hb : belongs token keep e = true)
    (hstart : token? e = some token →
      seatOf g.registry token = none ∧ (seatOf (g.step e).registry token).isSome) :
    Alike token keep (asked ++ (asker? token g e).toList) (g.step e) (g'.step e) := by
  obtain ⟨hclock, hshutdown⟩ := step_time hr.sound e
  obtain ⟨hclock', hshutdown'⟩ := step_time hr'.sound e
  have own {c : Nat} (hc : client? e = some c) : keep c = true :=
    (belongs_client token keep hc).symm.trans hb
  have hseat : seatOf (g'.step e).registry token = seatOf (g.step e).registry token := by
    cases hc : client? e with
    | some c => exact (h.client_step hr hr' hc (own hc)).1
    | none =>
      cases hs : subject? e with
      | some other =>
        rw [subject_step hr.listed hs, subject_step hr'.listed hs, h.seat, h.clock, h.shutdown]
      | none =>
        cases e with
        | connect | follow | frame | cut | read | write => cases hc
        | attend | act | attempt | close => cases hs
        | pass | shutdown => exact h.seat
        | start other =>
          have hid : other = token := by simpa [belongs] using hb
          subst hid
          obtain ⟨hnone, hsome⟩ := hstart rfl
          exact h.start_step hr'.listed hnone hsome
  refine ⟨?_, ?_, ?_, hseat, fun id hid => ?_, fun c hc => ?_, fun c hc s hs => ?_⟩
  · rw [step_settings, step_settings, h.settings]
  · rw [hclock, hclock', h.clock]
  · rw [hshutdown, hshutdown', h.shutdown]
  · rcases ids_step hr'.listed hid with hid | hid
    · exact h.alone id hid
    · cases e with
      | connect | follow | frame | cut | read | write | attend | act | attempt | close | pass
      | shutdown => cases hid
      | start other =>
        cases hid
        simpa [belongs] using hb
  · by_cases he : client? e = some c
    · exact (h.client_step hr hr' he hc).2
    · rw [other_socket he, other_socket he]
      refine (h.kept c hc).weaken fun hm => ?_
      rcases List.mem_append.mp hm with hm | hm
      · exact hm
      · obtain ⟨rfl, -⟩ := asker_some (Option.mem_toList.mp hm)
        exact (he rfl).elim
  · have hne : client? e ≠ some c := fun he => by
      rw [own he] at hc
      cases hc
    rw [other_socket hne] at hs
    exact h.away c hc s hs

theorem Alike.shown_phase (h : Alike token keep asked g g')
    (hnext : seatOf (g'.step e).registry token = seatOf (g.step e).registry token) :
    shownPhase token g' e = shownPhase token g e := by
  simp only [shownPhase, h.seat, hnext]

theorem Alike.given_answer (h : Alike token keep asked g g') :
    givenAnswer token g' e = givenAnswer token g e := by
  cases e <;> simp only [givenAnswer, h.seat]

theorem unseen_phase (hs : seatOf (g.step e).registry token = seatOf g.registry token) :
    shownPhase token g e = [] := by
  simp [shownPhase, hs]

theorem unseen_answer (hb : belongs token keep e = false) : givenAnswer token g e = [] := by
  cases e with
  | act own a =>
    have hid : own ≠ token := by simpa [belongs] using hb
    simp [givenAnswer, hid]
  | start | connect | follow | frame | cut | read | write | attend | attempt | close | pass
  | shutdown => rfl

/-- A session that was refused does not come later. -/
theorem run_missing (hn : (tokens (past ++ rest)).Nodup)
    (hnone : seatOf (Gateway.run { settings } past).registry token = none)
    (hnew : token ∉ tokens rest) :
    seatOf (Gateway.run { settings } (past ++ rest)).registry token = none := by
  induction rest using List.reverseRecOn with
  | nil => rwa [List.append_nil]
  | append_singleton rest e ih =>
    rw [← List.append_assoc] at hn ⊢
    rw [tokens_append, List.nodup_append] at hn
    rw [tokens_snoc, List.mem_append, not_or] at hnew
    have hlast := ih hn.1 hnew.1
    rw [run_snoc]
    refine seat_of_none.mpr fun hid => ?_
    rcases ids_step (run_reached settings _ hn.1).listed hid with hid | hid
    · exact seat_of_none.mp hlast hid
    · exact hnew.2 (by simp [hid])

theorem still_there (hn : (tokens (past ++ rest)).Nodup)
    (hs : (seatOf (Gateway.run { settings } (past ++ rest)).registry token).isSome)
    (hm : token ∈ tokens past) :
    (seatOf (Gateway.run { settings } past).registry token).isSome := by
  have hnew : token ∉ tokens rest := fun hnew => by
    rw [tokens_append, List.nodup_append] at hn
    exact hn.2.2 token hm token hnew rfl
  rw [← Option.ne_none_iff_isSome] at hs ⊢
  exact fun hnone => hs (run_missing hn hnone hnew)

theorem own_nodup (token : String) (keep : Nat → Bool) (hn : (tokens past).Nodup) :
    (tokens (past.filter (belongs token keep))).Nodup :=
  hn.sublist (List.filter_sublist.filterMap _)

theorem run_alike (hn : (tokens past).Nodup)
    (hs : token ∈ tokens past → (seatOf (Gateway.run { settings } past).registry token).isSome)
    (hk : ∀ c ∈ askers token { settings } past, keep c = true) :
    let own := past.filter (belongs token keep)
    Alike token keep (askers token { settings } past) (Gateway.run { settings } past)
      (Gateway.run { settings } own) ∧
    phases token { settings } own = phases token { settings } past ∧
    answers token { settings } own = answers token { settings } past := by
  induction past using List.reverseRecOn with
  | nil =>
    refine ⟨⟨rfl, rfl, rfl, rfl, by simp [ids, Gateway.run], fun c hc => .same ?_, ?_⟩, rfl, rfl⟩
    · simp [askers, along]
    · simp [socket?, Gateway.run]
  | append_singleton past e ih =>
    have hnpast := hn
    rw [tokens_append, List.nodup_append] at hnpast
    have hr := run_reached settings past hnpast.1
    have hr' := run_reached settings _ (own_nodup token keep hnpast.1)
    have hfresh : token? e = some token → token ∉ tokens past := fun he hm =>
      hnpast.2.2 token hm token (by simp [tokens, he]) rfl
    unfold askers at hk ih ⊢
    unfold phases answers at ih ⊢
    simp only [along_snoc, List.mem_append] at hk ⊢
    have hbefore (hm : token ∈ tokens past) :=
      still_there hn (hs (by rw [tokens_append]; exact List.mem_append_left _ hm)) hm
    obtain ⟨hal, hphases, hanswers⟩ := ih hnpast.1 hbefore fun c hc => hk c (.inl hc)
    cases hb : belongs token keep e with
    | true =>
      have hnext := hal.kept_step hr hr' hb fun he => by
        refine ⟨seat_of_none.mpr fun hid => ?_, ?_⟩
        · exact hfresh he (hr.inStep.tally.known token hid)
        · rw [← run_snoc]
          exact hs (by simp [tokens_snoc, he])
      have hown : (past ++ [e]).filter (belongs token keep) =
          past.filter (belongs token keep) ++ [e] := by
        simp [List.filter_append, hb]
      simp only [hown, run_snoc, along_snoc, hphases, hanswers, hal.shown_phase hnext.seat,
        hal.given_answer, and_self, and_true]
      exact hnext
    | false =>
      have hask : asker? token (Gateway.run { settings } past) e = none := by
        rw [Option.eq_none_iff_forall_ne_some]
        intro c hc
        obtain ⟨rfl, -⟩ := asker_some hc
        have hkeep : keep c = true := hk c (.inr (by simp [hc]))
        rw [belongs, hkeep] at hb
        cases hb
      obtain ⟨hnext, hseat⟩ := hal.dropped hr hb hask
      have hown : (past ++ [e]).filter (belongs token keep) =
          past.filter (belongs token keep) := by
        simp [List.filter_append, hb]
      simp only [hown, run_snoc, hphases, hanswers, unseen_phase hseat, unseen_answer hb, hask,
        Option.toList_none, List.append_nil, and_self, and_true]
      exact hnext

/-- Whatever else goes on in a gateway, a session that was started in it, among sessions with other
tokens, lives through the same as without the others. Take out of the run all steps of other
sessions, and of as many clients as one likes among those that never ask for this session: it is
started all the same, and whenever one looks, it is in the same state, with the same in its queues
and the same outcome; it is found by its token or not, as before; it has gone through the same
phases, its process got the same keystrokes and sizes from its terminal, and whoever asked for it was
sent the same. -/
theorem sessions_do_not_interfere (settings : Settings) (events : List Event) (token : String)
    (keep : Nat → Bool) (hn : (tokens events).Nodup)
    (hs : (seatOf (Gateway.run { settings } events).registry token).isSome)
    (hk : ∀ c ∈ askers token { settings } events, keep c = true) (past : List Event)
    (hp : past <+: events) :
    let own := past.filter (belongs token keep)
    let g := Gateway.run { settings } past
    let g' := Gateway.run { settings } own
    seatOf g'.registry token = seatOf g.registry token ∧
    (g'.registry.get? token).map (·.2) = (g.registry.get? token).map (·.2) ∧
    phases token { settings } own = phases token { settings } past ∧
    answers token { settings } own = answers token { settings } past ∧
    ∀ c ∈ askers token { settings } past, g'.socket? c = g.socket? c := by
  intro own g g'
  obtain ⟨rest, rfl⟩ := hp
  have hnpast : (tokens past).Nodup := by
    rw [tokens_append, List.nodup_append] at hn
    exact hn.1
  have hask : ∀ c ∈ askers token { settings } past, keep c = true := fun c hc =>
    hk c (by rw [askers, along_append]; exact List.mem_append_left _ hc)
  obtain ⟨hal, hphases, hanswers⟩ := run_alike hnpast (still_there hn hs) hask
  have hl := (run_reached settings past hnpast).listed
  have hl' := (run_reached settings own (own_nodup token keep hnpast)).listed
  refine ⟨hal.seat, ?_, hphases, hanswers, fun c hc => ?_⟩
  · rw [get_seat_of hl, get_seat_of hl', hal.seat]
  · have hpar := hal.kept c (hask c hc)
    generalize g.socket? c = o at hpar ⊢
    generalize g'.socket? c = o' at hpar ⊢
    cases hpar with
    | same => rfl
    | astray hna => exact (hna hc).elim

/-- Two sessions at a time: one shell exits while the other one is typed to and answers. -/
def crowded : List Event :=
  [.start "a" ⟨none, "n", "p", "c"⟩ none, .connect 0, .start "b" ⟨none, "n", "q", "c"⟩ none,
    .connect 1, .frame 0 (.text (Wire.Envelope.bind "a").write),
    .frame 1 (.text (Wire.Envelope.bind "b").write), .read 0, .read 1, .attend "a", .attend "b",
    .frame 1 (.text (Wire.Envelope.stdin "ls").write), .read 1, .act "a" .read, .act "b" .read,
    .attempt "a" (.ok ()), .act "b" (.write [46]), .write 0, .write 1]

theorem one_of_two_sessions :
    let own := crowded.filter (belongs "b" (· == 1))
    (tokens crowded).Nodup ∧ askers "b" {} crowded = [1] ∧ own.length = 10 ∧
    phases "b" {} own = [.pending, .bound, .running] ∧
    answers "b" {} own = [.keys [108, 115], .done] ∧
    ((Gateway.run {} own).socket? 1).map (·.sent) =
      some [.text (Wire.Envelope.stdout ".").write] := by
  have hn : (tokens crowded).Nodup := by decide
  have hstarted : (seatOf (Gateway.run {} crowded).registry "b").isSome := by decide +kernel
  have hasked : askers "b" {} crowded = [1] := by decide +kernel
  have hphases : phases "b" {} crowded = [.pending, .bound, .running] := by decide +kernel
  have hanswers : answers "b" {} crowded = [.keys [108, 115], .done] := by decide +kernel
  have hsent : ((Gateway.run {} crowded).socket? 1).map (·.sent) =
      some [.text (Wire.Envelope.stdout ".").write] := by decide +kernel
  obtain ⟨-, -, hphases', hanswers', hsockets⟩ :=
    sessions_do_not_interfere {} crowded "b" (· == 1) hn hstarted (by simp [hasked]) crowded
      List.prefix_rfl
  refine ⟨hn, hasked, by decide, hphases'.trans hphases, hanswers'.trans hanswers, ?_⟩
  rw [hsockets 1 (by simp [hasked])]
  exact hsent

end PodConsole.Proofs.Isolation
