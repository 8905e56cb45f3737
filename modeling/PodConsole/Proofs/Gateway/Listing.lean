import PodConsole.Proofs.Gateway.Changes

namespace PodConsole.Proofs.Listing
open Gateway Session Roster Seats Changes

variable {g g₀ : Gateway} {e : Event} {n m : Nat} {s t : Seat} {token : String} {past : List Event}

/-- Whether a step takes a token off the roster. -/
def leaves (token : String) (before after : Registry) : Bool :=
  (before.entry? token).isSome && (after.entry? token).isNone

/-- How often a run takes a token off the roster. -/
def removals (token : String) (g : Gateway) : List Event → Nat
  | [] => 0
  | e :: rest =>
    (leaves token g.registry (g.step e).registry).toNat + removals token (g.step e) rest

theorem removals_snoc (token : String) (g : Gateway) (past : List Event) (e : Event) :
    removals token g (past ++ [e]) = removals token g past +
      (leaves token (g.run past).registry ((g.run past).step e).registry).toNat := by
  induction past generalizing g with
  | nil => simp [removals, Gateway.run]
  | cons d rest ih =>
    simp only [List.cons_append, removals, ih (g.step d), Nat.add_assoc]
    rfl

/-- The roster lists the sessions that are not closed, and what is over is closed. -/
structure Listed (limit : Nat) (r : Registry) : Prop where
  unique : (ids r).Nodup
  entry : ∀ id n, r.entry? id = some n ↔
    ∃ s, r.seat? n = some s ∧ s.session.id = id ∧ s.session.isClosed = false
  once : (r.roster.map (·.1)).Nodup
  finished : ∀ n s, r.seat? n = some s → s.isOver = true → s.session.isClosed = true
  heard : ∀ n s, r.seat? n = some s → s.isOver = false → s.session.signal ≠ .unheard
  room : r.size ≤ limit

variable {limit : Nat} {r : Registry}

theorem Listed.entry_self (h : Listed limit r) (hs : r.seat? n = some s)
    (hc : s.session.isClosed = false) : r.entry? s.session.id = some n :=
  (h.entry _ _).mpr ⟨s, hs, rfl, hc⟩

theorem Listed.entry_none (h : Listed limit r) (hs : r.seat? n = some s)
    (hc : s.session.isClosed = true) : r.entry? s.session.id = none := by
  cases he : r.entry? s.session.id with
  | none => rfl
  | some m =>
    obtain ⟨t, ht, hid, hto⟩ := (h.entry _ _).mp he
    have hm : n = m := seat_unique h.unique hs ht hid.symm
    subst hm
    rw [hs] at ht
    cases ht
    rw [hc] at hto
    cases hto

/-- A session that goes on where it is. -/
theorem Listed.placed (h : Listed limit r) (hs : r.seat? n = some s) (hk : Keeps s t)
    (ho : t.isOver = true → s.session.isClosed = true) : Listed limit (r.setSeat n t) := by
  have each {p : Seat → Prop} (ht : p t) (hr : ∀ m u, r.seat? m = some u → p u) :
      ∀ m u, (r.setSeat n t).seat? m = some u → p u := by
    intro m u hu
    rw [seat_set hs] at hu
    split at hu
    · cases hu
      exact ht
    · exact hr m u hu
  refine ⟨?_, ?_, h.once, ?_, ?_, h.room⟩
  · rw [ids_set hs hk.token]
    exact h.unique
  · intro id m
    rw [entry_set, h.entry, seat_set hs]
    by_cases hm : m = n
    · subst hm
      simp [hs, hk.token, hk.closed]
    · simp [hm]
  · exact each (p := fun u => u.isOver = true → u.session.isClosed = true)
      (fun hto => hk.closed.trans (ho hto)) h.finished
  · refine each (p := fun u => u.isOver = false → u.session.signal ≠ .unheard) ?_ h.heard
    intro hto hu
    refine h.heard n s hs ?_ (hk.unheard hto hu)
    cases hso : s.isOver with
    | false => rfl
    | true => exact (Bool.eq_false_iff.mp hto (hk.finished hso)).elim

/-- A session that was closed leaves the roster. -/
def closing (r : Registry) (n : Nat) (t : Seat) : Registry :=
  (strike r t.session.id).setSeat n (closedSeat t)

theorem closing_seat (hs : r.seat? n = some s) (t : Seat) (m : Nat) : (closing r n t).seat? m =
    if m = n then some (closedSeat t) else r.seat? m := by
  have hs' : (strike r t.session.id).seat? n = some s := hs
  rw [closing, seat_set hs', seat_strike]

theorem closing_entry (r : Registry) (n : Nat) (t : Seat) (id : String) :
    Registry.entry? (closing r n t) id = if id = t.session.id then none else r.entry? id :=
  entry_strike r _ _

theorem closing_ids (hs : r.seat? n = some s) (hk : Keeps s t) : ids (closing r n t) = ids r :=
  ids_set (r := strike r t.session.id) (t := closedSeat t) hs
    hk.token

theorem Listed.update_over (h : Listed limit r) (hs : r.seat? n = some s) (hk : Keeps s t)
    (hc : s.session.isClosed = false) (ht : t.isOver = true) :
    r.update n (fun _ => t) = closing r n t := by
  have ho : s.isOver = false := by
    cases hso : s.isOver with
    | false => rfl
    | true => exact (Bool.eq_false_iff.mp hc (h.finished n s hs hso)).elim
  have he : Registry.entry? (r.setSeat n t) t.session.id = some n := by
    rw [entry_set, hk.token]
    exact h.entry_self hs hc
  rw [Roster.update_over hs ho ht, close_known he (seat_set_self hs t)]
  exact set_set (strike r t.session.id) n t _

/-- A session that was closed from outside ends where it is. -/
theorem Listed.update_closed (h : Listed limit r) (hs : r.seat? n = some s) (hk : Keeps s t)
    (hc : s.session.isClosed = true) : r.update n (fun _ => t) = r.setSeat n t := by
  by_cases hso : t.isOver = true → s.isOver = true
  · exact update_on hs hso
  · obtain ⟨ht, ho⟩ := Classical.not_imp.mp hso
    have he : Registry.entry? (r.setSeat n t) t.session.id = none := by
      rw [entry_set, hk.token]
      exact h.entry_none hs hc
    rw [Roster.update_over hs (by simpa using ho) ht, close_unknown he]

theorem Listed.closing (h : Listed limit r) (hs : r.seat? n = some s) (hk : Keeps s t)
    (hc : s.session.isClosed = false) : Listed limit (closing r n t) := by
  have hself := h.entry_self hs hc
  have hclosed : (closedSeat t).session.isClosed = true := by
    simp [closedSeat, isClosed, markClosed, enter]
  refine ⟨?_, ?_, ?_, ?_, ?_, ?_⟩
  · rw [closing_ids hs hk]
    exact h.unique
  · intro id m
    rw [closing_entry, closing_seat hs]
    by_cases hid : id = t.session.id
    · -- the only session that had the token is the one that was closed
      rw [if_pos hid]
      refine ⟨by simp, ?_⟩
      rintro ⟨u, hu, huid, huc⟩
      split at hu
      · cases hu
        rw [hclosed] at huc
        cases huc
      · rename_i hm
        exact (hm (seat_unique h.unique hu hs (by rw [huid, hid, hk.token]))).elim
    · rw [if_neg hid, h.entry]
      by_cases hm : m = n
      · subst hm
        have hne : s.session.id ≠ id := fun hc => hid (by rw [← hc, hk.token])
        have hne' : (closedSeat t).session.id ≠ id := fun hc => hid hc.symm
        simp only [hs, if_true, Option.some.injEq]
        constructor
        · rintro ⟨u, rfl, huid, -⟩
          exact (hne huid).elim
        · rintro ⟨u, rfl, huid, -⟩
          exact (hne' huid).elim
      · simp [hm]
  · exact h.once.sublist (List.filter_sublist.map _)
  · intro m u hu huo
    rw [closing_seat hs] at hu
    split at hu
    · cases hu
      exact hclosed
    · exact h.finished m u hu huo
  · intro m u hu huo
    rw [closing_seat hs] at hu
    split at hu
    · cases hu
      simp only [closedSeat, markClosed]
      cases t.session.signal <;> simp [Signal.stopSending]
    · exact h.heard m u hu huo
  · exact Nat.le_trans (List.length_filter_le _ _) h.room

theorem admitted_seat (g : Gateway) (token : String) (target : Exec.Target)
    (hint : Option String) (m : Nat) : (admitted g token target hint).seat? m =
      if m = g.registry.seats.length then some (newSeat g token target hint)
      else g.registry.seat? m :=
  seat_add g.registry (newSeat g token target hint) m

theorem admitted_ids (g : Gateway) (token : String) (target : Exec.Target)
    (hint : Option String) : ids (admitted g token target hint) = ids g.registry ++ [token] := by
  simp [ids, admitted, Registry.enlist, newSeat, Seat.new]

theorem admitted_entry (g : Gateway) (token : String) (target : Exec.Target)
    (hint : Option String) (id : String) : Registry.entry? (admitted g token target hint) id =
      if id = token then some g.registry.seats.length else g.registry.entry? id :=
  entry_enlist _ _ _ _

theorem admitted_once (hn : (g.registry.roster.map (·.1)).Nodup) (target : Exec.Target)
    (hint : Option String) : ((admitted g token target hint).roster.map (·.1)).Nodup := by
  have hk : (admitted g token target hint).roster.map (·.1) =
      (g.registry.roster.filter fun e => e.1 ≠ token).map (·.1) ++ [token] := by
    simp [admitted, Registry.enlist]
  rw [hk, List.nodup_append]
  refine ⟨hn.sublist (List.filter_sublist.map _), by simp, ?_⟩
  intro id hid t ht he
  obtain ⟨entry, hentry, rfl⟩ := List.mem_map.mp hid
  have hne := of_decide_eq_true (List.mem_filter.mp hentry).2
  exact hne (he.trans (List.mem_singleton.mp ht))

/-- A new session is waited for, under a token that no session has had. -/
theorem Listed.admitted {target : Exec.Target} {hint : Option String}
    (h : Listed limit g.registry) (hr : g.registry.size < limit)
    (hn : token ∉ ids g.registry) : Listed limit (admitted g token target hint) := by
  have hnew : ∀ m u, g.registry.seat? m = some u → u.session.id ≠ token ∧
      m ≠ g.registry.seats.length := by
    intro m u hu
    refine ⟨fun hid => hn (mem_ids.mpr ⟨m, u, hu, hid⟩), ?_⟩
    exact Nat.ne_of_lt (List.getElem?_eq_some_iff.mp hu).1
  refine ⟨?_, ?_, admitted_once h.once target hint, ?_, ?_, ?_⟩
  · rw [admitted_ids]
    simpa [List.nodup_append] using ⟨h.unique, fun id hid he => hn (he ▸ hid)⟩
  · intro id m
    rw [admitted_entry, admitted_seat]
    by_cases hid : id = token
    · subst hid
      simp only [if_true, Option.some.injEq]
      constructor
      · rintro rfl
        exact ⟨newSeat g id target hint, by simp, rfl, rfl⟩
      · rintro ⟨u, hu, huid, -⟩
        split at hu
        · rename_i hm
          exact hm.symm
        · exact ((hnew m u hu).1 huid).elim
    · rw [if_neg hid, h.entry]
      by_cases hm : m = g.registry.seats.length
      · simp only [hm, if_true, Option.some.injEq]
        constructor
        · rintro ⟨u, hu, -, -⟩
          exact ((hnew _ u hu).2 rfl).elim
        · rintro ⟨u, rfl, huid, -⟩
          exact (hid huid.symm).elim
      · simp [hm]
  · intro m u hu huo
    rw [admitted_seat] at hu
    split at hu
    · cases hu
      cases huo
    · exact h.finished m u hu huo
  · intro m u hu huo
    rw [admitted_seat] at hu
    split at hu
    · cases hu
      exact nofun
    · exact h.heard m u hu huo
  · have hl : (Changes.admitted g token target hint).size ≤ g.registry.size + 1 := by
      simp only [Registry.size, Changes.admitted, Registry.enlist, List.length_append,
        List.length_singleton]
      exact Nat.succ_le_succ (List.length_filter_le _ _)
    exact Nat.le_trans hl hr

/-- Whether a session is closed by somebody who does not wait for it. -/
def outside : Event → Bool
  | .close _ => true
  | _ => false

/-- What a step amounts to for the roster. -/
inductive Effect (g : Gateway) (e : Event) : Registry → Prop
  | same : Effect g e g.registry
  | placed {n : Nat} {s t : Seat} : g.registry.seat? n = some s → Touch g n s e t →
      (t.isOver = true → s.session.isClosed = true) → Effect g e (g.registry.setSeat n t)
  | closing {n : Nat} {s t : Seat} : g.registry.seat? n = some s → Touch g n s e t →
      s.session.isClosed = false → (outside e = false → t.isOver = true) →
      Effect g e (closing g.registry n t)
  | admitted {token : String} {target : Exec.Target} {hint : Option String} :
      e = .start token target hint → g.registry.size < g.settings.session.maxSessions →
      Effect g e (admitted g token target hint)

theorem step_effect (h : Listed limit g.registry) : Effect g e (g.step e).registry := by
  have hch := step_change g e
  generalize (g.step e).registry = r' at hch
  cases hch with
  | same => exact .same
  | started he hr hn => exact .admitted he hr
  | touched hs ht =>
    rename_i n s t
    cases hc : s.session.isClosed with
    | true =>
      -- its token has left the roster before, and cannot leave again
      rw [h.update_closed hs ht.keeps hc]
      exact .placed hs ht fun _ => hc
    | false =>
      cases hto : t.isOver with
      | true =>
        rw [h.update_over hs ht.keeps hc hto]
        exact .closing hs ht hc fun _ => hto
      | false =>
        have hno {p : Prop} (hf : t.isOver = true) : p := by
          rw [hto] at hf
          cases hf
        rw [update_on hs hno]
        exact .placed hs ht hno
  | closed he =>
    rename_i token
    cases hn : g.registry.entry? token with
    | none =>
      rw [close_unknown hn]
      exact .same
    | some n =>
      obtain ⟨s, hs, rfl, hc⟩ := (h.entry token n).mp hn
      rw [close_known hn hs]
      exact .closing hs .none hc fun ho => by rw [he] at ho; cases ho

theorem leaves_kept {r' : Registry} (h : (r.entry? token).isSome → (r'.entry? token).isSome) :
    leaves token r r' = false := by
  unfold leaves
  cases hr : r.entry? token with
  | none => rfl
  | some n =>
    have hr' := h (by simp [hr])
    rw [Option.isSome_iff_exists] at hr'
    obtain ⟨m, hm⟩ := hr'
    simp [hm]

theorem leaves_closing (h : Listed limit r) (hs : r.seat? n = some s) (hk : Keeps s t)
    (hc : s.session.isClosed = false) :
    leaves token r (closing r n t) = decide (token = s.session.id) := by
  have hself := h.entry_self hs hc
  by_cases hid : token = s.session.id
  · simp [leaves, closing_entry, hk.token, hid, hself]
  · rw [leaves_kept]
    · simp [hid]
    · simp [closing_entry, hk.token, hid]

/-- The registry after starts with the tokens `known`, where each token has left the roster
`count` times. -/
structure Tally (limit : Nat) (known : List String) (count : String → Nat) (r : Registry) :
    Prop where
  listed : Listed limit r
  known : ∀ id ∈ ids r, id ∈ known
  removed : ∀ n s, r.seat? n = some s → count s.session.id = s.session.isClosed.toNat
  absent : ∀ id, id ∉ ids r → count id = 0

variable {known more : List String} {count count' : String → Nat}

theorem Tally.placed (h : Tally limit known count r) (hs : r.seat? n = some s) (hk : Keeps s t)
    (ho : t.isOver = true → s.session.isClosed = true) (hm : ∀ id ∈ known, id ∈ more) :
    Tally limit more count (r.setSeat n t) where
  listed := h.listed.placed hs hk ho
  known := by
    rw [ids_set hs hk.token]
    exact fun id hid => hm id (h.known id hid)
  removed m u hu := by
    rw [seat_set hs] at hu
    split at hu
    · cases hu
      rw [hk.token, hk.closed]
      exact h.removed n s hs
    · exact h.removed m u hu
  absent := by
    rw [ids_set hs hk.token]
    exact h.absent

theorem Tally.closing (h : Tally limit known count r) (hs : r.seat? n = some s) (hk : Keeps s t)
    (hcl : s.session.isClosed = false) (hm : ∀ id ∈ known, id ∈ more)
    (hc : ∀ id, count' id = count id + (decide (id = s.session.id)).toNat) :
    Tally limit more count' (closing r n t) := by
  refine ⟨h.listed.closing hs hk hcl, ?_, ?_, ?_⟩
  · rw [closing_ids hs hk]
    exact fun id hid => hm id (h.known id hid)
  · intro m u hu
    rw [closing_seat hs] at hu
    split at hu
    · cases hu
      have hz : count s.session.id = 0 := by simpa [hcl] using h.removed n s hs
      have hid : (closedSeat t).session.id = s.session.id := hk.token
      rw [hid, hc, hz]
      simp [closedSeat, isClosed, markClosed, enter]
    · rename_i hne
      have hid : u.session.id ≠ s.session.id := fun hid =>
        hne (seat_unique h.listed.unique hu hs hid)
      simp [hc, hid, h.removed m u hu]
  · rw [closing_ids hs hk]
    intro id hid
    have hne : id ≠ s.session.id := fun he => hid (he ▸ mem_ids.mpr ⟨n, s, hs, rfl⟩)
    simp [hc, hne, h.absent id hid]

theorem Tally.admitted {target : Exec.Target} {hint : Option String}
    (h : Tally limit known count g.registry) (hr : g.registry.size < limit)
    (hn : token ∉ known) (hm : ∀ id ∈ known, id ∈ more) (ht : token ∈ more) :
    Tally limit more count (admitted g token target hint) := by
  have hnew : token ∉ ids g.registry := fun hid => hn (h.known token hid)
  refine ⟨h.listed.admitted hr hnew, ?_, ?_, ?_⟩
  · rw [admitted_ids]
    intro id hid
    rcases List.mem_append.mp hid with hid | hid
    · exact hm id (h.known id hid)
    · exact List.mem_singleton.mp hid ▸ ht
  · intro m u hu
    rw [admitted_seat] at hu
    split at hu
    · cases hu
      exact h.absent token hnew
    · exact h.removed m u hu
  · rw [admitted_ids]
    exact fun id hid => h.absent id fun hi => hid (List.mem_append_left _ hi)

/-- A run of the gateway, with the tokens that it brought in. -/
structure InStep (g₀ : Gateway) (past : List Event) (g : Gateway) : Prop where
  reached : g = g₀.run past
  settings : g.settings = g₀.settings
  tally : Tally g₀.settings.session.maxSessions (tokens past) (fun id => removals id g₀ past)
    g.registry

theorem InStep.step (h : InStep g₀ past g)
    (hf : ∀ token, token? e = some token → token ∉ tokens past) :
    InStep g₀ (past ++ [e]) (g.step e) := by
  have hcount (token : String) : removals token g₀ (past ++ [e]) =
      removals token g₀ past + (leaves token g.registry (g.step e).registry).toNat := by
    rw [removals_snoc, ← h.reached]
  have hmore : ∀ id ∈ tokens past, id ∈ tokens (past ++ [e]) := by
    intro id hid
    rw [tokens_snoc]
    exact List.mem_append_left _ hid
  refine ⟨by rw [run_snoc, ← h.reached], (step_settings g e).trans h.settings, ?_⟩
  -- the counts mention the registry after the step, so they are unfolded before the cases
  have he : Effect g e (g.step e).registry := step_effect h.tally.listed
  simp only [hcount]
  generalize (g.step e).registry = r' at he
  cases he with
  | same =>
    have hq (id : String) : leaves id g.registry g.registry = false := leaves_kept fun hi => hi
    simp only [hq, Bool.toNat_false, Nat.add_zero]
    exact ⟨h.tally.listed, fun id hid => hmore id (h.tally.known id hid), h.tally.removed,
      h.tally.absent⟩
  | placed hs ht ho =>
    rename_i n s t
    have hq (id : String) : leaves id g.registry (g.registry.setSeat n t) = false :=
      leaves_kept fun hi => hi
    simp only [hq, Bool.toNat_false, Nat.add_zero]
    exact h.tally.placed hs ht.keeps ho hmore
  | closing hs ht hc ho =>
    exact h.tally.closing hs ht.keeps hc hmore fun id => by
      rw [leaves_closing h.tally.listed hs ht.keeps hc]
  | admitted he hr =>
    rename_i token target hint
    have hq (id : String) : leaves id g.registry (admitted g token target hint) = false := by
      refine leaves_kept fun hi => ?_
      rw [admitted_entry]
      split
      · rfl
      · exact hi
    simp only [hq, Bool.toNat_false, Nat.add_zero]
    have ht : token? e = some token := by rw [he, token?]
    refine h.tally.admitted (h.settings ▸ hr) (hf token ht) hmore ?_
    rw [tokens_snoc, ht]
    simp

theorem in_step_start (settings : Settings) : InStep { settings } [] { settings } := by
  refine ⟨rfl, rfl, ⟨?_, ?_, ?_, ?_⟩⟩
  · refine ⟨List.nodup_nil, ?_, List.nodup_nil, ?_, ?_, Nat.zero_le _⟩ <;>
      simp [Registry.entry?, Registry.seat?]
  · simp [ids]
  · simp [Registry.seat?]
  · exact fun _ _ => rfl

theorem run_in_step (settings : Settings) (events : List Event) (hn : (tokens events).Nodup) :
    InStep { settings } events (Gateway.run { settings } events) :=
  run_keeps (in_step_start settings) (fun _ _ _ ih hf => ih.step hf) events hn

/-- Where nobody closes a session from outside, only those that nobody waits for are closed. -/
def Waited (r : Registry) : Prop :=
  ∀ n s, r.seat? n = some s → s.isOver = s.session.isClosed

theorem Waited.step (h : Listed limit g.registry) (hw : Waited g.registry)
    (hc : outside e = false) : Waited (g.step e).registry := by
  have he : Effect g e (g.step e).registry := step_effect h
  generalize (g.step e).registry = r' at he
  intro m u hu
  cases he with
  | same => exact hw m u hu
  | placed hs ht ho =>
    rename_i n s t
    rw [seat_set hs] at hu
    split at hu
    · cases hu
      rw [ht.keeps.closed, ← hw n s hs]
      cases hso : s.isOver with
      | true => exact ht.keeps.finished hso
      | false =>
        cases huo : u.isOver with
        | false => rfl
        | true =>
          have hcl := ho huo
          rw [← hw n s hs, hso] at hcl
          cases hcl
    · exact hw m u hu
  | closing hs ht hcl ho =>
    rename_i n s t
    rw [closing_seat hs] at hu
    split at hu
    · cases hu
      rw [show (closedSeat t).isOver = true from ho hc]
      simp [closedSeat, isClosed, markClosed, enter]
    · exact hw m u hu
  | admitted he hr =>
    rw [admitted_seat] at hu
    split at hu
    · cases hu
      rfl
    · exact hw m u hu

theorem run_waited (settings : Settings) (events : List Event)
    (hc : ∀ e ∈ events, outside e = false) (hn : (tokens events).Nodup) :
    Waited (Gateway.run { settings } events).registry := by
  refine (run_keeps (p := fun past g => InStep { settings } past g ∧
    ((∀ e ∈ past, outside e = false) → Waited g.registry)) ⟨in_step_start settings, ?_⟩ ?_
    events hn).2 hc
  · intro _ n s hs
    simp [Registry.seat?] at hs
  · intro past g e ih hf
    refine ⟨ih.1.step hf, fun hp => ?_⟩
    have hpast := ih.2 fun d hd => hp d (List.mem_append_left _ hd)
    exact hpast.step ih.1.tally.listed (hp e (by simp))

/-- The step that brings a session to its end touches no other session and no other token. -/
theorem Listed.alone (h : Listed limit g.registry) (hs : g.registry.seat? n = some s)
    (ho : s.isOver = false) (ht : (g.step e).registry.seat? n = some t) (hto : t.isOver = true) :
    (∀ m, m ≠ n → (g.step e).registry.seat? m = g.registry.seat? m) ∧
    ∀ id, id ≠ s.session.id → (g.step e).registry.entry? id = g.registry.entry? id := by
  have hov {p : Prop} (hu : g.registry.seat? n = some t) : p := by
    rw [hs] at hu
    cases hu
    rw [ho] at hto
    cases hto
  have he : Effect g e (g.step e).registry := step_effect h
  generalize (g.step e).registry = r' at he ht
  cases he with
  | same => exact hov ht
  | placed hu hv huo =>
    rename_i m u v
    rw [seat_set hu] at ht
    split at ht
    · rename_i hn
      subst hn
      exact ⟨fun k hk' => by rw [seat_set_other _ _ hk'], fun id hid => rfl⟩
    · exact hov ht
  | closing hu hv huc huo =>
    rename_i m u v
    rw [closing_seat hu] at ht
    split at ht
    · rename_i hn
      subst hn
      rw [hs] at hu
      cases hu
      refine ⟨fun k hk' => by rw [closing_seat hs, if_neg hk'], fun id hid => ?_⟩
      rw [closing_entry, if_neg (by rwa [hv.keeps.token])]
    · exact hov ht
  | admitted he hr =>
    rw [admitted_seat] at ht
    split at ht
    · cases ht
      cases hto
    · exact hov ht

/-- The tokens on the roster are those of the sessions that are still waited for, each with its own
session, which is not closed; there are never more than the settings allow. A session whose waiter
is done is closed and has left the roster, once, and whenever that happens no other session and no
other entry is touched. -/
theorem roster_follows_waiters (settings : Settings) (events : List Event)
    (hc : ∀ e ∈ events, outside e = false) (hn : (tokens events).Nodup) :
    let g := Gateway.run { settings } events
    (∀ id, (g.registry.entry? id).isSome ↔
      ∃ n s, g.registry.seat? n = some s ∧ s.session.id = id ∧ s.isOver = false) ∧
    (∀ id n, g.registry.entry? id = some n →
      ∃ s, g.registry.seat? n = some s ∧ s.session.id = id ∧ s.session.isClosed = false) ∧
    (g.registry.roster.map (·.1)).Nodup ∧
    g.registry.size ≤ settings.session.maxSessions ∧
    (∀ n s, g.registry.seat? n = some s → s.isOver = true →
      s.session.phase = .closed ∧ g.registry.entry? s.session.id = none ∧
      removals s.session.id { settings } events = 1) ∧
    (∀ n s, g.registry.seat? n = some s → s.isOver = false →
      removals s.session.id { settings } events = 0) ∧
    (∀ e n s t, g.registry.seat? n = some s → s.isOver = false →
      (g.step e).registry.seat? n = some t → t.isOver = true →
      (∀ m, m ≠ n → (g.step e).registry.seat? m = g.registry.seat? m) ∧
      ∀ id, id ≠ s.session.id → (g.step e).registry.entry? id = g.registry.entry? id) := by
  intro g
  have hg : InStep { settings } events g := run_in_step settings events hn
  have hw : Waited g.registry := run_waited settings events hc hn
  have hl := hg.tally.listed
  refine ⟨?_, fun id n => (hl.entry id n).mp, hl.once, hl.room, ?_, ?_, ?_⟩
  · intro id
    rw [Option.isSome_iff_exists]
    simp only [hl.entry]
    constructor
    · rintro ⟨n, s, hs, hid, hcl⟩
      exact ⟨n, s, hs, hid, (hw n s hs).trans hcl⟩
    · rintro ⟨n, s, hs, hid, ho⟩
      exact ⟨n, s, hs, hid, (hw n s hs).symm.trans ho⟩
  · intro n s hs ho
    have hcl := hl.finished n s hs ho
    refine ⟨by simpa [isClosed] using hcl, hl.entry_none hs hcl, ?_⟩
    simpa [hcl] using hg.tally.removed n s hs
  · intro n s hs ho
    have hcl : s.session.isClosed = false := (hw n s hs).symm.trans ho
    simpa [hcl] using hg.tally.removed n s hs
  · exact fun e n s t hs ho ht hto => hl.alone hs ho ht hto

/-- Of two sessions, one gets a client, and its shell exits. -/
def twoSessions : List Event :=
  [.start "a" ⟨none, "n", "p", "c"⟩ none, .start "b" ⟨none, "n", "p", "c"⟩ none, .connect 0,
    .frame 0 (.text (Wire.Envelope.bind "a").write), .read 0, .attend "a", .attempt "a" (.ok ())]

theorem roster_follows_two_waiters :
    (∀ e ∈ twoSessions, outside e = false) ∧ (tokens twoSessions).Nodup ∧
    let g := Gateway.run {} twoSessions
    g.registry.entry? "a" = none ∧ removals "a" {} twoSessions = 1 ∧
    (g.registry.entry? "b").isSome ∧ removals "b" {} twoSessions = 0 := by
  have hc : ∀ e ∈ twoSessions, outside e = false := by decide
  have hn : (tokens twoSessions).Nodup := by decide
  obtain ⟨hlisted, -, -, -, hover, hwaiting, -⟩ := roster_follows_waiters {} twoSessions hc hn
  have ha : ((Gateway.run {} twoSessions).registry.seat? 0).map
      (fun s => (s.session.id, s.isOver)) = some ("a", true) := by decide +kernel
  have hb : ((Gateway.run {} twoSessions).registry.seat? 1).map
      (fun s => (s.session.id, s.isOver)) = some ("b", false) := by decide +kernel
  obtain ⟨s, hs, hsa⟩ := Option.map_eq_some_iff.mp ha
  obtain ⟨t, ht, htb⟩ := Option.map_eq_some_iff.mp hb
  obtain ⟨hsid, hso⟩ := Prod.mk.inj hsa
  obtain ⟨htid, hto⟩ := Prod.mk.inj htb
  obtain ⟨-, hnone, honce⟩ := hover 0 s hs hso
  rw [hsid] at hnone honce
  have hnever := hwaiting 1 t ht hto
  rw [htid] at hnever
  exact ⟨hc, hn, hnone, honce, (hlisted "b").mpr ⟨1, t, ht, htid, hto⟩, hnever⟩

end PodConsole.Proofs.Listing
