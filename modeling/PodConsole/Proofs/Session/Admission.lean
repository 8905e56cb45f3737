import Mathlib.Data.List.Nodup
import PodConsole.Proofs.Session.Replacing
import PodConsole.Proofs.Session.Seats

namespace PodConsole.Proofs.Admission
open Session Roster Lifecycle Seats
open Exec (Target)
open Replacing (closing closing_seat closing_entry closed_seat_closed get_none)

/-- What a new session is made of. -/
structure Newcomer where
  id : String
  target : Target
  hint : Option String
  room : Nat

def Newcomer.seat (x : Newcomer) : Seat :=
  .new x.id x.target x.hint x.room 0

/-- What a registry is asked. -/
inductive Request where
  /-- A new session is to be let in. -/
  | insert (x : Newcomer) (limit : Nat)
  | close (token : String)
  | get (token : String)
  | bind (token : String) (client : Nat) (c : Connection)

inductive Answer where
  | inserted (result : Except SessionError Unit)
  | closed (found : Bool)
  | found (session : Option Nat)
  /-- Nothing was bound if the token is not known. -/
  | bound (result : Option (Except SessionError Unit))

namespace Answer

def isInserted : Answer → Bool
  | .inserted (.ok ()) => true
  | _ => false

def isClosed : Answer → Bool
  | .closed true => true
  | _ => false

/-- The request came to nothing. -/
def isFailure : Answer → Bool
  | .inserted (.error _) | .closed false | .found none | .bound none | .bound (some (.error _)) =>
    true
  | .inserted (.ok ()) | .closed true | .found (some _) | .bound (some (.ok ())) => false

end Answer

def Request.limit? : Request → Option Nat
  | .insert _ limit => some limit
  | .close _ | .get _ | .bind _ _ _ => none

/-- The largest limit among some requests. -/
def highest (requests : List Request) : Nat :=
  (requests.filterMap Request.limit?).foldl max 0

def serve (r : Registry) : Request → Answer × Registry
  | .insert x limit =>
    let (n, r) := r.add x.seat
    let (result, r) := r.enroll n limit
    (.inserted result, r)
  | .close token => (.closed (r.close token).1, (r.close token).2)
  | .get token => (.found ((r.get? token).map (·.1)), r)
  | .bind token client c =>
    match r.get? token with
    | none => (.bound none, r)
    | some (n, s) => (.bound (some (s.bind client c).1), r.setSeat n (s.bind client c).2)

/-- The session that a request has let in, by the number that it got. -/
def entering (r : Registry) : Request → Answer → List (Nat × Newcomer)
  | .insert x _, .inserted (.ok ()) => [(r.seats.length, x)]
  | _, _ => []

/-- The session that a request has closed. -/
def leaving (r : Registry) : Request → Answer → List Nat
  | .close token, .closed true => (r.entry? token).toList
  | _, _ => []

/-- A registry with all that it was asked for so far. -/
structure Ledger where
  registry : Registry := {}
  answers : List Answer := []
  inserted : List (Nat × Newcomer) := []
  closed : List Nat := []

namespace Ledger

def step (l : Ledger) (q : Request) : Ledger where
  registry := (serve l.registry q).2
  answers := l.answers ++ [(serve l.registry q).1]
  inserted := l.inserted ++ entering l.registry q (serve l.registry q).1
  closed := l.closed ++ leaving l.registry q (serve l.registry q).1

def run (l : Ledger) (requests : List Request) : Ledger :=
  requests.foldl step l

end Ledger

variable {r r' : Registry} {l : Ledger} {q : Request} {a : Answer} {n : Nat} {s t : Seat}
  {x : Newcomer} {token : String}

theorem entry_none : r.entry? token = none ↔ token ∉ r.roster.map (·.1) := by
  simp only [Registry.entry?, Option.map_eq_none_iff, List.find?_eq_none, decide_eq_true_eq,
    List.mem_map, not_exists, not_and]

theorem entry_mem (h : r.entry? token = some n) : token ∈ r.roster.map (·.1) := by
  by_contra hn
  rw [entry_none.mpr hn] at h
  cases h

theorem roster_enlist (h : r.entry? token = none) (n : Nat) :
    (r.enlist token n).roster = r.roster ++ [(token, n)] := by
  have hf : (r.roster.filter fun e => e.1 ≠ token) = r.roster := by
    rw [List.filter_eq_self]
    intro e he
    simp only [decide_eq_true_eq]
    rintro rfl
    exact entry_none.mp h (List.mem_map.mpr ⟨e, he, rfl⟩)
  rw [Registry.enlist, hf]

/-- Of tokens that are there once, one that is struck leaves the others. -/
theorem size_strike (hn : (r.roster.map (·.1)).Nodup) (h : r.entry? token = some n) :
    (strike r token).size + 1 = r.size := by
  have hc : (r.roster.map (·.1)).count token = 1 := List.count_eq_one_of_mem hn (entry_mem h)
  have hp : r.roster.countP (fun e => e.1 = token) = 1 := by
    rw [← hc, List.count, List.countP_map]
    rfl
  have hs := List.length_eq_countP_add_countP (fun e : String × Nat => decide (e.1 = token))
    (l := r.roster)
  have hr : (strike r token).size =
      r.roster.countP (fun e => decide ¬decide (e.1 = token) = true) := by
    simp [strike, Registry.size, List.countP_eq_length_filter]
  rw [hr, Registry.size, hs, hp, Nat.add_comm]

/-- A registry in which a new session waits to be let in. -/
def arrived (r : Registry) (x : Newcomer) : Registry :=
  (r.add x.seat).2

theorem arrived_seat (r : Registry) (x : Newcomer) (m : Nat) :
    (arrived r x).seat? m = if m = r.seats.length then some x.seat else r.seat? m :=
  seat_add r x.seat m

theorem admitted_roster (hx : x.id ∉ r.roster.map (·.1)) :
    ((arrived r x).enlist x.id r.seats.length).roster = r.roster ++ [(x.id, r.seats.length)] :=
  roster_enlist (r := arrived r x) (entry_none.mpr hx) r.seats.length

/-- All that a request can come to. -/
inductive Served (r : Registry) : Request → Answer × Registry → Prop
  | full {x : Newcomer} {limit : Nat} : limit ≤ r.size →
      Served r (.insert x limit) (.inserted (.error (.capacityExceeded limit)), arrived r x)
  | taken {x : Newcomer} {limit : Nat} : r.size < limit → x.id ∈ r.roster.map (·.1) →
      Served r (.insert x limit) (.inserted (.error (.alreadyBound x.id)), arrived r x)
  | admitted {x : Newcomer} {limit : Nat} : r.size < limit → x.id ∉ r.roster.map (·.1) →
      Served r (.insert x limit)
        (.inserted (.ok ()), (arrived r x).enlist x.id r.seats.length)
  | unknown {token : String} : r.entry? token = none →
      Served r (.close token) (.closed false, r)
  | closed {n : Nat} {s : Seat} : r.entry? s.session.id = some n → r.seat? n = some s →
      Served r (.close s.session.id) (.closed true, closing r n s)
  | looked {token : String} : Served r (.get token) (.found ((r.get? token).map (·.1)), r)
  | nobody {token : String} {client : Nat} {c : Connection} : r.get? token = none →
      Served r (.bind token client c) (.bound none, r)
  | tried {token : String} {client n : Nat} {c : Connection} {s : Seat} :
      r.get? token = some (n, s) → Served r (.bind token client c)
        (.bound (some (s.bind client c).1), r.setSeat n (s.bind client c).2)

theorem insert_served (r : Registry) (x : Newcomer) (limit : Nat) :
    Served r (.insert x limit) (serve r (.insert x limit)) := by
  have hseat : (arrived r x).seat? r.seats.length = some x.seat := by simp [arrived_seat]
  have hs : serve r (.insert x limit) =
      (.inserted ((arrived r x).enroll r.seats.length limit).1,
        ((arrived r x).enroll r.seats.length limit).2) := rfl
  have hentry : Registry.entry? (arrived r x) x.seat.session.id = r.entry? x.id := rfl
  have hsize : (arrived r x).size = r.size := rfl
  rw [hs, Registry.enroll, hseat]
  simp only [hsize, hentry]
  by_cases hl : limit ≤ r.size
  · rw [if_pos hl]
    exact .full hl
  · rw [if_neg hl]
    cases he : r.entry? x.id with
    | some k => exact .taken (Nat.lt_of_not_le hl) (entry_mem he)
    | none => exact .admitted (Nat.lt_of_not_le hl) (entry_none.mp he)

theorem close_served (h : Replacing.Rooted r) (token : String) :
    Served r (.close token) (serve r (.close token)) := by
  cases he : r.entry? token with
  | none =>
    have hs : serve r (.close token) = (.closed false, r) := by simp [serve, Registry.close, he]
    rw [hs]
    exact .unknown he
  | some n =>
    obtain ⟨s, hs, rfl⟩ := h token n he
    have hc : serve r (.close s.session.id) = (.closed true, closing r n s) := by
      rw [serve, close_known he hs]
      simp [Registry.close, he, closing]
      split <;> rfl
    rw [hc]
    exact .closed he hs

theorem serve_served (h : Replacing.Rooted r) (q : Request) : Served r q (serve r q) := by
  cases q with
  | insert x limit => exact insert_served r x limit
  | close token => exact close_served h token
  | get token => exact .looked
  | bind token client c =>
    cases hg : r.get? token with
    | none =>
      rw [serve, hg]
      exact .nobody hg
    | some found =>
      rw [serve, hg]
      exact .tried hg

/-- What stays of a newcomer, whoever binds it or closes it. -/
structure Stems (x : Newcomer) (s : Seat) : Prop where
  id : s.session.id = x.id
  target : s.session.target = x.target
  hint : s.session.hint = x.hint
  heard : s.session.signal ≠ .unheard

theorem stems_new (x : Newcomer) : Stems x x.seat :=
  ⟨rfl, rfl, rfl, nofun⟩

theorem Stems.closed (h : Stems x s) : Stems x (closedSeat s) := by
  refine ⟨h.id, h.target, h.hint, ?_⟩
  simp only [closedSeat, markClosed]
  cases s.session.signal <;> simp [Signal.stopSending]

theorem Stems.bind (h : Stems x s) (client : Nat) (c : Connection)
    (ho : s.session.isClosed = false) :
    (∃ e, s.bind client c = (.error e, s)) ∨
      (s.bind client c).1 = .ok () ∧ Stems x (s.bind client c).2 ∧
        (s.bind client c).2.session.isClosed = false := by
  have hp : s.session.phase ≠ .closed := by simpa [isClosed] using ho
  cases ha : available s.session.signal with
  | false => exact .inl ⟨_, bind_taken hp ha⟩
  | true =>
    have hs : s.session.signal = .open := by
      cases hs : s.session.signal with
      | «open» => rfl
      | unheard => exact (h.heard hs).elim
      | carrying | «over» => simp [hs, available] at ha
    have hc := (bind_keeps s client c).closed
    rw [bind_first hp hs] at hc ⊢
    refine .inr ⟨rfl, ⟨?_, ?_, ?_, ?_⟩, hc.trans ho⟩
    · exact (welcome_id _ _).trans h.id
    · simp only [welcomed, welcome]
      split <;> exact h.target
    · simp only [welcomed, welcome]
      split <;> exact h.hint
    · simp [welcomed, welcome_signal]

/-- The roster holds those who were let in and not closed since, and nobody else. -/
structure Kept (l : Ledger) : Prop where
  entry : ∀ token n, l.registry.entry? token = some n ↔
    ∃ x, (n, x) ∈ l.inserted ∧ x.id = token ∧ n ∉ l.closed
  once : (l.registry.roster.map (·.1)).Nodup
  seat : ∀ n x, (n, x) ∈ l.inserted → ∃ s, l.registry.seat? n = some s ∧ Stems x s ∧
    (s.session.isClosed = true ↔ n ∈ l.closed)
  numbers : (l.inserted.map (·.1)).Nodup
  closedOnce : l.closed.Nodup
  closedListed : ∀ n ∈ l.closed, ∃ x, (n, x) ∈ l.inserted
  balance : l.registry.size + l.closed.length = l.inserted.length
  insertions : l.answers.countP Answer.isInserted = l.inserted.length
  closings : l.answers.countP Answer.isClosed = l.closed.length

theorem kept_start : Kept {} where
  entry token n := by simp [Registry.entry?]
  once := by simp
  seat n x h := by cases h
  numbers := by simp
  closedOnce := by simp
  closedListed n h := by cases h
  balance := rfl
  insertions := rfl
  closings := rfl

theorem Kept.rooted (h : Kept l) : Replacing.Rooted l.registry := by
  intro token n he
  obtain ⟨x, hx, rfl, -⟩ := (h.entry token n).mp he
  obtain ⟨s, hs, hst, -⟩ := h.seat n x hx
  exact ⟨s, hs, hst.id⟩

/-- The number of a newcomer tells who it is. -/
theorem Kept.newcomer (h : Kept l) {y : Newcomer} (hx : (n, x) ∈ l.inserted)
    (hy : (n, y) ∈ l.inserted) : x = y := by
  have hi := List.inj_on_of_nodup_map h.numbers hx hy rfl
  cases hi
  rfl

/-- Neither the roster nor the account changes, and a session no more than a client may change it. -/
theorem Kept.aside (h : Kept l) (hr : r.roster = l.registry.roster)
    (hs : ∀ n x s, (n, x) ∈ l.inserted → l.registry.seat? n = some s → Stems x s →
      ∃ t, r.seat? n = some t ∧ Stems x t ∧ t.session.isClosed = s.session.isClosed)
    (hi : a.isInserted = false) (hc : a.isClosed = false) :
    Kept ⟨r, l.answers ++ [a], l.inserted, l.closed⟩ := by
  refine ⟨?_, by rw [hr]; exact h.once, ?_, h.numbers, h.closedOnce, h.closedListed, ?_, ?_, ?_⟩
  · intro token n
    rw [Registry.entry?, hr]
    exact h.entry token n
  · intro n x hx
    obtain ⟨s, hseat, hst, hcl⟩ := h.seat n x hx
    obtain ⟨t, ht, htx, htc⟩ := hs n x s hx hseat hst
    exact ⟨t, ht, htx, by rw [htc]; exact hcl⟩
  · rw [Registry.size, hr]
    exact h.balance
  · simpa [hi] using h.insertions
  · simpa [hc] using h.closings

theorem Kept.unchanged (h : Kept l) (hi : a.isInserted = false) (hc : a.isClosed = false) :
    Kept ⟨l.registry, l.answers ++ [a], l.inserted, l.closed⟩ :=
  h.aside rfl (fun _ _ s _ hs hst => ⟨s, hs, hst, rfl⟩) hi hc

/-- The numbers in use are those of sessions that there are. -/
theorem Kept.number_lt (h : Kept l) (hx : (n, x) ∈ l.inserted) : n < l.registry.seats.length := by
  obtain ⟨s, hs, -⟩ := h.seat n x hx
  exact (List.getElem?_eq_some_iff.mp hs).1

theorem Kept.arrived (h : Kept l) (x : Newcomer) (hi : a.isInserted = false)
    (hc : a.isClosed = false) :
    Kept ⟨Admission.arrived l.registry x, l.answers ++ [a], l.inserted, l.closed⟩ := by
  refine h.aside rfl ?_ hi hc
  intro n y s hy hs hst
  refine ⟨s, ?_, hst, rfl⟩
  rw [arrived_seat, if_neg (Nat.ne_of_lt (h.number_lt hy)), hs]

theorem Kept.admitted (h : Kept l) (x : Newcomer) (hx : x.id ∉ l.registry.roster.map (·.1)) :
    Kept ⟨(Admission.arrived l.registry x).enlist x.id l.registry.seats.length,
      l.answers ++ [.inserted (.ok ())], l.inserted ++ [(l.registry.seats.length, x)],
      l.closed⟩ := by
  have hfresh (y : Newcomer) : (l.registry.seats.length, y) ∉ l.inserted := fun hy =>
    Nat.lt_irrefl _ (h.number_lt hy)
  have hopen : l.registry.seats.length ∉ l.closed := fun hc => by
    obtain ⟨y, hy⟩ := h.closedListed _ hc
    exact hfresh y hy
  have hroster := admitted_roster hx
  refine ⟨?_, ?_, ?_, ?_, h.closedOnce, ?_, ?_, ?_, ?_⟩
  · intro token n
    rw [entry_enlist]
    by_cases ht : token = x.id
    · subst ht
      rw [if_pos rfl]
      constructor
      · intro he
        cases he
        exact ⟨x, by simp, rfl, hopen⟩
      · rintro ⟨y, hy, hid, hc⟩
        rcases List.mem_append.mp hy with hy | hy
        · have he := (h.entry x.id n).mpr ⟨y, hy, hid, hc⟩
          exact (hx (entry_mem he)).elim
        · cases List.mem_singleton.mp hy
          rfl
    · rw [if_neg ht]
      refine (h.entry token n).trans ⟨?_, ?_⟩
      · rintro ⟨y, hy, hid, hc⟩
        exact ⟨y, List.mem_append_left _ hy, hid, hc⟩
      · rintro ⟨y, hy, hid, hc⟩
        rcases List.mem_append.mp hy with hy | hy
        · exact ⟨y, hy, hid, hc⟩
        · cases List.mem_singleton.mp hy
          exact (ht hid.symm).elim
  · rw [hroster, List.map_append, List.nodup_append]
    refine ⟨h.once, by simp, ?_⟩
    rintro id hid _ ht rfl
    cases List.mem_singleton.mp ht
    exact hx hid
  · intro n y hy
    have hseat : Registry.seat? ((Admission.arrived l.registry x).enlist x.id
        l.registry.seats.length) n = if n = l.registry.seats.length then some x.seat
          else l.registry.seat? n := arrived_seat _ _ _
    rcases List.mem_append.mp hy with hy | hy
    · rw [hseat, if_neg (Nat.ne_of_lt (h.number_lt hy))]
      exact h.seat n y hy
    · cases List.mem_singleton.mp hy
      refine ⟨x.seat, by rw [hseat, if_pos rfl], stems_new x, iff_of_false nofun hopen⟩
  · rw [List.map_append, List.nodup_append]
    refine ⟨h.numbers, by simp, ?_⟩
    rintro n hn _ ht rfl
    cases List.mem_singleton.mp ht
    obtain ⟨⟨_, y⟩, hy, rfl⟩ := List.mem_map.mp hn
    exact hfresh y hy
  · intro n hn
    obtain ⟨y, hy⟩ := h.closedListed n hn
    exact ⟨y, List.mem_append_left _ hy⟩
  · have hb := h.balance
    simp only [Registry.size] at hb ⊢
    rw [hroster, List.length_append, List.length_append, ← hb]
    simp only [List.length_singleton]
    omega
  · simp [h.insertions, Answer.isInserted]
  · simpa [Answer.isClosed] using h.closings

theorem Kept.closing (h : Kept l) (he : l.registry.entry? s.session.id = some n)
    (hs : l.registry.seat? n = some s) :
    Kept ⟨Replacing.closing l.registry n s, l.answers ++ [.closed true], l.inserted,
      l.closed ++ [n]⟩ := by
  obtain ⟨x, hx, hid, hc⟩ := (h.entry _ n).mp he
  refine ⟨?_, ?_, ?_, h.numbers, ?_, ?_, ?_, ?_, ?_⟩
  · intro token m
    rw [closing_entry]
    by_cases ht : token = s.session.id
    · -- the one session that had the token is the one that was closed
      rw [if_pos ht]
      refine iff_of_false nofun ?_
      rintro ⟨y, hy, hyid, hyc⟩
      have hm := (h.entry token m).mpr ⟨y, hy, hyid, fun hc => hyc (List.mem_append_left _ hc)⟩
      rw [ht, he] at hm
      cases hm
      exact hyc (by simp)
    · rw [if_neg ht]
      refine (h.entry token m).trans (exists_congr fun y => ?_)
      constructor
      · rintro ⟨hy, hyid, hyc⟩
        refine ⟨hy, hyid, fun hm => ?_⟩
        rcases List.mem_append.mp hm with hm | hm
        · exact hyc hm
        · cases List.mem_singleton.mp hm
          rw [h.newcomer hy hx] at hyid
          exact ht (hyid.symm.trans hid)
      · rintro ⟨hy, hyid, hyc⟩
        exact ⟨hy, hyid, fun hm => hyc (List.mem_append_left _ hm)⟩
  · exact h.once.sublist (List.filter_sublist.map _)
  · intro m y hy
    rw [closing_seat hs]
    by_cases hm : m = n
    · subst hm
      obtain ⟨u, hu, hst, -⟩ := h.seat m y hy
      rw [hs] at hu
      cases hu
      rw [if_pos rfl]
      exact ⟨_, rfl, hst.closed, iff_of_true (closed_seat_closed s) (by simp)⟩
    · rw [if_neg hm]
      obtain ⟨u, hu, hst, hcl⟩ := h.seat m y hy
      exact ⟨u, hu, hst, by simp [hcl, hm]⟩
  · rw [List.nodup_append]
    refine ⟨h.closedOnce, by simp, ?_⟩
    rintro m hm _ ht rfl
    cases List.mem_singleton.mp ht
    exact hc hm
  · intro m hm
    rcases List.mem_append.mp hm with hm | hm
    · exact h.closedListed m hm
    · cases List.mem_singleton.mp hm
      exact ⟨x, hx⟩
  · have hstrike := size_strike h.once he
    have hsize : (Replacing.closing l.registry n s).size = (strike l.registry s.session.id).size :=
      rfl
    rw [hsize, ← h.balance, ← hstrike, List.length_append, List.length_singleton]
    omega
  · simpa [Answer.isInserted] using h.insertions
  · simp [h.closings, Answer.isClosed]

theorem Kept.open_seat (h : Kept l) (hg : l.registry.get? token = some (n, s)) :
    ∃ x, (n, x) ∈ l.inserted ∧ x.id = token ∧ n ∉ l.closed ∧ Stems x s := by
  obtain ⟨he, hs, -⟩ := get_iff.mp hg
  obtain ⟨x, hx, hid, hc⟩ := (h.entry token n).mp he
  obtain ⟨t, ht, hst, -⟩ := h.seat n x hx
  rw [hs] at ht
  cases ht
  exact ⟨x, hx, hid, hc, hst⟩

theorem Kept.bound (h : Kept l) (hg : l.registry.get? token = some (n, s)) (client : Nat)
    (c : Connection) :
    Kept ⟨l.registry.setSeat n (s.bind client c).2,
      l.answers ++ [.bound (some (s.bind client c).1)], l.inserted, l.closed⟩ := by
  obtain ⟨-, hs, ho⟩ := get_iff.mp hg
  obtain ⟨x, hx, -, -, hst⟩ := h.open_seat hg
  refine h.aside rfl ?_ rfl rfl
  intro m y u hy hu huy
  rw [seat_set hs]
  by_cases hm : m = n
  · subst hm
    rw [hs] at hu
    cases hu
    rw [if_pos rfl]
    refine ⟨_, rfl, ?_, (bind_keeps s client c).closed⟩
    rcases huy.bind client c ho with ⟨e, hb⟩ | ⟨-, hb, -⟩
    · rw [hb]
      exact huy
    · exact hb
  · rw [if_neg hm]
    exact ⟨u, hu, huy, rfl⟩

theorem Kept.step (h : Kept l) (q : Request) : Kept (l.step q) := by
  have hserved := serve_served h.rooted q
  unfold Ledger.step
  generalize serve l.registry q = after at hserved
  cases hserved with
  | full hl | taken hl ht =>
    simpa only [entering, leaving, List.append_nil] using h.arrived _ rfl rfl
  | admitted hl hx =>
    simpa only [entering, leaving, List.append_nil] using h.admitted _ hx
  | unknown he | looked | nobody hg =>
    simpa only [entering, leaving, List.append_nil] using h.unchanged rfl rfl
  | closed he hs =>
    simpa only [entering, leaving, List.append_nil, he, Option.toList_some] using h.closing he hs
  | tried hg =>
    simpa only [entering, leaving, List.append_nil] using h.bound hg _ _

theorem run_snoc (l : Ledger) (requests : List Request) (q : Request) :
    l.run (requests ++ [q]) = (l.run requests).step q := by
  simp [Ledger.run]

theorem run_kept (requests : List Request) : Kept (Ledger.run {} requests) := by
  induction requests using List.reverseRecOn with
  | nil => exact kept_start
  | append_singleton requests q ih =>
    rw [run_snoc]
    exact ih.step q

theorem highest_snoc (requests : List Request) (q : Request) :
    highest (requests ++ [q]) = max (highest requests) (q.limit?.getD 0) := by
  cases h : q.limit? <;> simp [highest, h]

/-- A request makes the roster longer only within its own limit. -/
theorem Served.size {after : Answer × Registry} (h : Served r q after) :
    after.2.size ≤ max r.size (q.limit?.getD 0) := by
  cases h with
  | full hl | taken hl ht | unknown he | looked | nobody hg | tried hg => exact Nat.le_max_left _ _
  | closed he hs => exact Nat.le_trans (List.length_filter_le _ _) (Nat.le_max_left _ _)
  | admitted hl hx =>
    rw [Registry.size, admitted_roster hx, List.length_append]
    exact Nat.le_trans hl (Nat.le_max_right _ _)

theorem run_room (requests : List Request) :
    (Ledger.run {} requests).registry.size ≤ highest requests := by
  induction requests using List.reverseRecOn with
  | nil => exact Nat.le_refl 0
  | append_singleton requests q ih =>
    rw [run_snoc, highest_snoc]
    have hs : ((Ledger.run {} requests).step q).registry.size ≤ _ :=
      (serve_served (run_kept requests).rooted q).size
    omega

/-- A request that comes to nothing leaves the roster and all sessions as they were. -/
theorem Kept.failed (h : Kept l) (hf : (serve l.registry q).1.isFailure = true) :
    (serve l.registry q).2.roster = l.registry.roster ∧
      l.registry.seats <+: (serve l.registry q).2.seats := by
  have hserved := serve_served h.rooted q
  generalize serve l.registry q = after at hserved hf
  cases hserved with
  | full hl | taken hl ht => exact ⟨rfl, List.prefix_append _ _⟩
  | unknown he | looked | nobody hg => exact ⟨rfl, List.prefix_rfl⟩
  | admitted hl hx | closed he hs => cases hf
  | tried hg =>
    obtain ⟨x, -, -, -, hst⟩ := h.open_seat hg
    obtain ⟨-, hs, ho⟩ := get_iff.mp hg
    rename_i client n c s
    rcases hst.bind client c ho with ⟨e, hb⟩ | ⟨hb, -⟩
    · rw [hb, set_seat_same hs]
      exact ⟨rfl, List.prefix_rfl⟩
    · simp [Answer.isFailure, hb] at hf

/-- After any requests a newcomer is refused for want of room exactly if the roster is as long as
the limit, and otherwise exactly if its token is taken; else it is on the roster, and nothing else
has changed. A request that comes to nothing changes nobody. The roster is never longer than the
largest limit, and as long as those who were let in without those who were closed. Nobody is closed
twice, and a token finds those who were let in with it from then on until they are closed. -/
theorem admissions_are_accounted (requests : List Request) :
    let l := Ledger.run {} requests
    let r := l.registry
    let tokens := r.roster.map (·.1)
    (∀ x limit, let after := serve r (.insert x limit)
      (after.1 = .inserted (.error (.capacityExceeded limit)) ↔ limit ≤ r.size) ∧
      (after.1 = .inserted (.error (.alreadyBound x.id)) ↔ r.size < limit ∧ x.id ∈ tokens) ∧
      (after.1 = .inserted (.ok ()) ↔ r.size < limit ∧ x.id ∉ tokens) ∧
      (after.1 = .inserted (.ok ()) → after.2.roster = r.roster ++ [(x.id, r.seats.length)] ∧
        after.2.seats = r.seats ++ [x.seat])) ∧
    (∀ q, (serve r q).1.isFailure = true →
      (serve r q).2.roster = r.roster ∧ r.seats <+: (serve r q).2.seats) ∧
    r.size ≤ highest requests ∧
    r.size + l.answers.countP Answer.isClosed = l.answers.countP Answer.isInserted ∧
    (l.inserted.map (·.1)).Nodup ∧ l.closed.Nodup ∧ (∀ n ∈ l.closed, ∃ x, (n, x) ∈ l.inserted) ∧
    (∀ token n s, r.get? token = some (n, s) → ∃ x, (n, x) ∈ l.inserted ∧ x.id = token) ∧
    (∀ n x, (n, x) ∈ l.inserted →
      ((∃ s, r.get? x.id = some (n, s) ∧ Stems x s) ↔ n ∉ l.closed)) := by
  intro l r tokens
  have h : Kept l := run_kept requests
  refine ⟨?_, fun q => h.failed, run_room requests, ?_, h.numbers, h.closedOnce, h.closedListed,
    ?_, ?_⟩
  · intro x limit after
    have hserved : Served r (.insert x limit) after := insert_served r x limit
    clear_value after
    cases hserved with
    | full hl => simp [hl, Nat.not_lt.mpr hl]
    | taken hl ht => simp [hl, tokens, ht]
    | admitted hl hx =>
      simp only [hl, tokens, hx, admitted_roster hx, Nat.not_le.mpr hl]
      simp [arrived, Registry.add, Registry.enlist]
  · rw [h.closings, h.insertions]
    exact h.balance
  · intro token n s hg
    obtain ⟨x, hx, hid, -⟩ := h.open_seat hg
    exact ⟨x, hx, hid⟩
  · intro n x hx
    constructor
    · rintro ⟨s, hg, -⟩
      obtain ⟨y, hy, -, hc, -⟩ := h.open_seat hg
      exact hc
    · intro hc
      obtain ⟨s, hs, hst, hcl⟩ := h.seat n x hx
      refine ⟨s, get_iff.mpr ⟨(h.entry _ _).mpr ⟨x, hx, rfl, hc⟩, hs, ?_⟩, hst⟩
      exact Bool.eq_false_iff.mpr fun ho => hc (hcl.mp ho)

end PodConsole.Proofs.Admission
