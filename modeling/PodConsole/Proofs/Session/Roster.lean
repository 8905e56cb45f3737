import PodConsole.Session.Registry

namespace PodConsole.Proofs.Roster
open Session

variable {r : Registry} {n m : Nat} {s t : Seat} {id : String}

theorem seat_set (h : r.seat? n = some s) (t : Seat) (m : Nat) :
    (r.setSeat n t).seat? m = if m = n then some t else r.seat? m := by
  have hn : n < r.seats.length := (List.getElem?_eq_some_iff.mp h).1
  simp only [Registry.seat?, Registry.setSeat, List.getElem?_set, hn, if_true, eq_comm (a := n)]

@[simp] theorem seat_set_self (h : r.seat? n = some s) (t : Seat) :
    (r.setSeat n t).seat? n = some t := by
  simp [seat_set h]

theorem seat_set_other (r : Registry) (t : Seat) (h : m ≠ n) :
    (r.setSeat n t).seat? m = r.seat? m := by
  simp [Registry.seat?, Registry.setSeat, h.symm]

/-- A new session has the next number. -/
theorem seat_add (r : Registry) (s : Seat) (m : Nat) :
    (r.add s).2.seat? m = if m = r.seats.length then some s else r.seat? m := by
  simp only [Registry.add, Registry.seat?, List.getElem?_append]
  by_cases hm : m < r.seats.length
  · simp [hm, Nat.ne_of_lt hm]
  · by_cases he : m = r.seats.length
    · simp [he]
    · simp only [hm, he, if_false]
      rw [List.getElem?_eq_none (by simp; omega), List.getElem?_eq_none (by omega)]

theorem set_seat_same (h : r.seat? n = some s) : r.setSeat n s = r := by
  obtain ⟨hn, hs⟩ := List.getElem?_eq_some_iff.mp h
  simp [Registry.setSeat, ← hs]

theorem set_set (r : Registry) (n : Nat) (s t : Seat) :
    (r.setSeat n s).setSeat n t = r.setSeat n t := by
  simp [Registry.setSeat]

@[simp] theorem entry_set (r : Registry) (n : Nat) (t : Seat) (id : String) :
    Registry.entry? (r.setSeat n t) id = r.entry? id := rfl

/-- The tokens of all sessions, by number. -/
def ids (r : Registry) : List String :=
  r.seats.map fun s => s.session.id

theorem mem_ids : id ∈ ids r ↔ ∃ n s, r.seat? n = some s ∧ s.session.id = id := by
  constructor
  · intro h
    obtain ⟨s, hs, hid⟩ := List.mem_map.mp h
    obtain ⟨n, hn⟩ := List.mem_iff_getElem?.mp hs
    exact ⟨n, s, hn, hid⟩
  · rintro ⟨n, s, hn, hid⟩
    exact List.mem_map.mpr ⟨s, List.mem_of_getElem? hn, hid⟩

theorem ids_set (h : r.seat? n = some s) (ht : t.session.id = s.session.id) :
    ids (r.setSeat n t) = ids r := by
  obtain ⟨hn, hs⟩ := List.getElem?_eq_some_iff.mp h
  apply List.ext_getElem?
  intro m
  simp only [ids, Registry.setSeat, List.getElem?_map, List.getElem?_set]
  by_cases hm : n = m
  · subst hm
    simp [hn, ← hs, ht]
  · simp [hm]

/-- With tokens that are used once, a token tells the session. -/
theorem seat_unique (hu : (ids r).Nodup) (hn : r.seat? n = some s) (hm : r.seat? m = some t)
    (h : s.session.id = t.session.id) : n = m := by
  have hn' : (ids r)[n]? = some s.session.id := by
    simpa [ids, Registry.seat?] using ⟨s, hn, rfl⟩
  have hm' : (ids r)[m]? = some s.session.id := by
    simpa [ids, Registry.seat?, h] using ⟨t, hm, rfl⟩
  have hlt : n < (ids r).length := (List.getElem?_eq_some_iff.mp hn').1
  exact (List.getElem?_inj hlt hu).mp (hn'.trans hm'.symm)

theorem started_seat (hu : (ids r).Nodup) :
    r.started? id = some n ↔ ∃ s, r.seat? n = some s ∧ s.session.id = id := by
  constructor
  · intro h
    obtain ⟨hn, hid, _⟩ := List.findIdx?_eq_some_iff_getElem.mp h
    exact ⟨_, List.getElem?_eq_getElem hn, by simpa using hid⟩
  · rintro ⟨s, hs, hid⟩
    cases h : r.started? id with
    | none =>
      have hm := List.mem_of_getElem? hs
      simpa [hid] using List.findIdx?_eq_none_iff.mp h s hm
    | some m =>
      obtain ⟨hm, hid', _⟩ := List.findIdx?_eq_some_iff_getElem.mp h
      have hn := seat_unique hu hs (List.getElem?_eq_getElem hm : r.seat? m = _)
        (by simpa [hid] using (of_decide_eq_true hid').symm)
      rw [hn]

/-- Takes a token off the roster. -/
def strike (r : Registry) (id : String) : Registry :=
  { r with roster := r.roster.filter fun e => e.1 ≠ id }

@[simp] theorem seat_strike (r : Registry) (id : String) (n : Nat) :
    (strike r id).seat? n = r.seat? n := rfl

theorem entry_strike (r : Registry) (id token : String) :
    Registry.entry? (strike r id) token = if token = id then none else r.entry? token := by
  simp only [Registry.entry?, strike, List.find?_filter]
  by_cases h : token = id
  · subst h
    simp
  · simp only [if_neg h]
    congr 2
    funext e
    by_cases he : e.1 = token
    · simp [he, h]
    · simp [he]

theorem entry_enlist (r : Registry) (id token : String) (n : Nat) :
    Registry.entry? (r.enlist id n) token = if token = id then some n else r.entry? token := by
  have hs : Registry.entry? (r.enlist id n) token =
      (Registry.entry? (strike r id) token).or (if token = id then some n else none) := by
    simp only [Registry.entry?, Registry.enlist, strike, List.find?_append, List.find?_singleton]
    cases List.find? (fun e => decide (e.1 = token)) (r.roster.filter fun e => e.1 ≠ id) with
    | some e => rfl
    | none =>
      by_cases h : token = id
      · simp [h]
      · simp [h, Ne.symm h]
  rw [hs, entry_strike]
  by_cases h : token = id
  · simp [h]
  · simp [h]

/-- A session that was closed where it is. -/
def closedSeat (s : Seat) : Seat :=
  { s with session := s.session.markClosed.2 }

theorem get_iff : r.get? id = some (n, s) ↔
    r.entry? id = some n ∧ r.seat? n = some s ∧ s.session.isClosed = false := by
  constructor
  · intro h
    unfold Registry.get? at h
    cases he : r.entry? id with
    | none => simp [he] at h
    | some k =>
      cases hk : r.seat? k with
      | none => simp [he, hk] at h
      | some u =>
        simp only [he, hk, Option.bind_eq_bind, Option.bind_some] at h
        split at h
        · cases h
        · rename_i hu
          cases h
          exact ⟨rfl, hk, by simpa using hu⟩
  · rintro ⟨he, hs, hc⟩
    simp [Registry.get?, he, hs, hc]

theorem close_unknown (h : r.entry? id = none) : (r.close id).2 = r := by
  simp [Registry.close, h]

theorem close_known (h : r.entry? id = some n) (hs : r.seat? n = some s) :
    (r.close id).2 = (strike r id).setSeat n (closedSeat s) := by
  have hs' : { r with roster := r.roster.filter fun e => e.1 ≠ id }.seat? n = some s := hs
  simp only [Registry.close, h, hs']
  rfl

/-- A session that goes on stays where it is. -/
theorem update_on (h : r.seat? n = some s) {f : Seat → Seat}
    (hf : (f s).isOver = true → s.isOver = true) : r.update n f = r.setSeat n (f s) := by
  simp only [Registry.update, h]
  cases ho : (f s).isOver with
  | false => simp
  | true => simp [hf ho]

theorem update_over (h : r.seat? n = some s) {f : Seat → Seat} (hs : s.isOver = false)
    (ho : (f s).isOver = true) :
    r.update n f = ((r.setSeat n (f s)).close (f s).session.id).2 := by
  simp [Registry.update, h, hs, ho]

end PodConsole.Proofs.Roster
