import PodConsole.Proofs.Session.Roster
import Mathlib.Data.List.Induction

namespace PodConsole.Proofs.Replacing
open Session Roster

/-- What a registry is asked to do. -/
inductive Request where
  | set (n : Nat)
  | enroll (n limit : Nat)
  | close (token : String)
  deriving DecidableEq, Repr

def apply (r : Registry) : Request → Registry
  | .set n => (r.replace n).2
  | .enroll n limit => (r.enroll n limit).2
  | .close token => (r.close token).2

/-- The session that a request puts on the roster. -/
def enters (r : Registry) : Request → Option Nat
  | .set n => (r.seat? n).map fun _ => n
  | .enroll n limit =>
    match (r.enroll n limit).1 with
    | .ok () => (r.seat? n).map fun _ => n
    | .error _ => none
  | .close _ => none

/-- The open session whose place on the roster a request gives away. -/
def unseats (r : Registry) : Request → Option Nat
  | .set n => (r.seat? n).bind fun s => (r.get? s.session.id).map (·.1)
  | .enroll _ _ | .close _ => none

/-- A registry, with the sessions that were ever on its roster. -/
structure Book where
  registry : Registry
  listed : List Nat := []
  /-- Those that were open when their place was given away, and did not come back. -/
  displaced : List Nat := []

namespace Book

def step (b : Book) (q : Request) : Book where
  registry := apply b.registry q
  listed := b.listed ++ (enters b.registry q).toList
  displaced := (b.displaced ++ (unseats b.registry q).toList).filter fun n =>
    enters b.registry q ≠ some n

def run (b : Book) (requests : List Request) : Book :=
  requests.foldl step b

end Book

variable {b : Book} {q : Request} {r : Registry} {n m : Nat} {s t : Seat} {token : String}

/-- The roster names sessions that there are, each under its own token. -/
def Rooted (r : Registry) : Prop :=
  ∀ token n, r.entry? token = some n → ∃ s, r.seat? n = some s ∧ s.session.id = token

theorem Rooted.enlist (h : Rooted r) (hs : r.seat? n = some s) :
    Rooted (r.enlist s.session.id n) := by
  intro token k hk
  rw [entry_enlist] at hk
  split at hk
  · rename_i ht
    cases hk
    exact ⟨s, hs, ht.symm⟩
  · exact h token k hk

/-- A session that was taken off the roster, and closed. -/
def closing (r : Registry) (n : Nat) (s : Seat) : Registry :=
  (strike r s.session.id).setSeat n (closedSeat s)

theorem closing_seat (hs : r.seat? n = some s) (k : Nat) :
    (closing r n s).seat? k = if k = n then some (closedSeat s) else r.seat? k := by
  rw [closing, seat_set (r := strike r s.session.id) hs, seat_strike]

theorem closing_entry (r : Registry) (n : Nat) (s : Seat) (token : String) :
    Registry.entry? (closing r n s) token = if token = s.session.id then none else r.entry? token := by
  rw [closing, entry_set, entry_strike]

theorem Rooted.closing (h : Rooted r) (hs : r.seat? n = some s) :
    Rooted (Replacing.closing r n s) := by
  intro token k hk
  rw [closing_entry] at hk
  split at hk
  · cases hk
  · rename_i ht
    obtain ⟨t, hseat, hid⟩ := h token k hk
    refine ⟨t, ?_, hid⟩
    rw [closing_seat hs, if_neg, hseat]
    -- the session that was closed had another token
    rintro rfl
    rw [hs] at hseat
    cases hseat
    exact ht hid.symm

/-- All that a request can do to a registry. -/
inductive Applied (r : Registry) (q : Request) : Registry → Prop
  | refused : enters r q = none → unseats r q = none → Applied r q r
  | listed {n : Nat} {s : Seat} : r.seat? n = some s → enters r q = some n →
      unseats r q = (r.get? s.session.id).map (·.1) → Applied r q (r.enlist s.session.id n)
  | closed {n : Nat} {s : Seat} : r.entry? s.session.id = some n → r.seat? n = some s →
      enters r q = none → unseats r q = none →
      Applied r q (closing r n s)

theorem get_none (h : r.entry? token = none) : r.get? token = none := by
  simp [Registry.get?, h]

theorem set_applied (r : Registry) (n : Nat) : Applied r (.set n) (apply r (.set n)) := by
  cases hs : r.seat? n with
  | none =>
    have hr : apply r (.set n) = r := by simp [apply, Registry.replace, hs]
    rw [hr]
    exact .refused (by simp [enters, hs]) (by simp [unseats, hs])
  | some s =>
    have hr : apply r (.set n) = r.enlist s.session.id n := by simp [apply, Registry.replace, hs]
    rw [hr]
    exact .listed hs (by simp [enters, hs]) (by simp [unseats, hs])

theorem enroll_applied (r : Registry) (n limit : Nat) :
    Applied r (.enroll n limit) (apply r (.enroll n limit)) := by
  have kept (h : (r.enroll n limit).2 = r) (he : enters r (.enroll n limit) = none) :
      Applied r (.enroll n limit) (apply r (.enroll n limit)) := by
    rw [apply, h]
    exact .refused he rfl
  cases hs : r.seat? n with
  | none => exact kept (by simp [Registry.enroll, hs]) (by simp [enters, Registry.enroll, hs])
  | some s =>
    by_cases hl : limit ≤ r.size
    · exact kept (by simp [Registry.enroll, hs, hl]) (by simp [enters, Registry.enroll, hs, hl])
    · cases he : r.entry? s.session.id with
      | some k =>
        exact kept (by simp [Registry.enroll, hs, hl, he])
          (by simp [enters, Registry.enroll, hs, hl, he])
      | none =>
        -- the token is free, so nobody's place is given away
        have hr : apply r (.enroll n limit) = r.enlist s.session.id n := by
          simp [apply, Registry.enroll, hs, hl, he]
        rw [hr]
        exact .listed hs (by simp [enters, Registry.enroll, hs, hl, he])
          (by simp [unseats, get_none he])

theorem close_applied (h : Rooted r) (token : String) :
    Applied r (.close token) (apply r (.close token)) := by
  cases he : r.entry? token with
  | none =>
    rw [apply, close_unknown he]
    exact .refused rfl rfl
  | some n =>
    obtain ⟨s, hs, rfl⟩ := h token n he
    rw [apply, close_known he hs]
    exact .closed he hs rfl rfl

theorem apply_applied (h : Rooted r) (q : Request) : Applied r q (apply r q) := by
  cases q with
  | set n => exact set_applied r n
  | enroll n limit => exact enroll_applied r n limit
  | close token => exact close_applied h token

theorem closed_seat_closed (s : Seat) : (closedSeat s).session.isClosed = true := by
  simp [closedSeat, isClosed, markClosed, enter]

/-- The sessions of a book: an open one is on the roster or was displaced. -/
structure Kept (b : Book) : Prop where
  rooted : Rooted b.registry
  entry : ∀ token n, b.registry.entry? token = some n → n ∈ b.listed
  placed : ∀ n s, n ∈ b.listed → b.registry.seat? n = some s → s.session.isClosed = false →
    b.registry.entry? s.session.id = some n ∨ n ∈ b.displaced
  away : ∀ n, n ∈ b.displaced → ∃ s, b.registry.seat? n = some s ∧ s.session.isClosed = false ∧
    b.registry.entry? s.session.id ≠ some n ∧ n ∈ b.listed

theorem kept_start (seats : List Seat) : Kept { registry := { seats } } where
  rooted token n h := by simp [Registry.entry?] at h
  entry token n h := by simp [Registry.entry?] at h
  placed n s h := by simp at h
  away n h := by simp at h

theorem mem_step_displaced : m ∈ (b.step q).displaced ↔
    (m ∈ b.displaced ∨ unseats b.registry q = some m) ∧ enters b.registry q ≠ some m := by
  simp [Book.step, or_and_right]

theorem step_refused (he : enters b.registry q = none) (hu : unseats b.registry q = none)
    (hr : apply b.registry q = b.registry) : b.step q = b := by
  obtain ⟨registry, listed, displaced⟩ := b
  simp only [Book.step, he, hu, hr] at *
  simp

theorem unseats_iff (hu : unseats r q = (r.get? token).map (·.1)) : unseats r q = some m ↔
    ∃ t, r.entry? token = some m ∧ r.seat? m = some t ∧ t.session.isClosed = false := by
  simp [hu, ← get_iff]

/-- Of two sessions with one token, the one that was on the roster makes way for the other. -/
theorem Kept.listed (h : Kept b) (hs : b.registry.seat? n = some s)
    (he : enters b.registry q = some n)
    (hu : unseats b.registry q = (b.registry.get? s.session.id).map (·.1))
    (hr : apply b.registry q = b.registry.enlist s.session.id n) : Kept (b.step q) := by
  have hreg : (b.step q).registry = b.registry.enlist s.session.id n := hr
  have hseat (k : Nat) : (b.step q).registry.seat? k = b.registry.seat? k := by rw [hreg]; rfl
  have hentry (token : String) : (b.step q).registry.entry? token =
      if token = s.session.id then some n else b.registry.entry? token := by
    rw [hreg, entry_enlist]
  have hlisted (k : Nat) : k ∈ (b.step q).listed ↔ k ∈ b.listed ∨ k = n := by
    simp [Book.step, he]
  refine ⟨by rw [hreg]; exact h.rooted.enlist hs, ?_, ?_, ?_⟩
  · intro token k hk
    rw [hentry] at hk
    rw [hlisted]
    split at hk
    · cases hk
      exact .inr rfl
    · exact .inl (h.entry token k hk)
  · intro k t hk ht hc
    rw [hseat] at ht
    rw [hlisted] at hk
    rw [hentry, mem_step_displaced]
    by_cases hkn : k = n
    · subst hkn
      rw [hs] at ht
      cases ht
      simp
    · have hne : enters b.registry q ≠ some k := fun hen => by
        rw [he] at hen
        cases hen
        exact hkn rfl
      rcases h.placed k t (hk.resolve_right hkn) ht hc with hen | hd
      · by_cases hid : t.session.id = s.session.id
        · exact .inr ⟨.inr ((unseats_iff hu).mpr ⟨t, hid ▸ hen, ht, hc⟩), hne⟩
        · exact .inl (by rw [if_neg hid, hen])
      · exact .inr ⟨.inl hd, hne⟩
  · intro k hk
    rw [mem_step_displaced] at hk
    obtain ⟨hk, hne⟩ := hk
    have hkn : k ≠ n := fun hkn => hne (hkn ▸ he)
    rcases hk with hd | hun
    · obtain ⟨t, ht, hc, hen, hl⟩ := h.away k hd
      refine ⟨t, by rw [hseat, ht], hc, ?_, by rw [hlisted]; exact .inl hl⟩
      rw [hentry]
      split
      · simpa using hkn.symm
      · exact hen
    · obtain ⟨t, hen, ht, hc⟩ := (unseats_iff hu).mp hun
      obtain ⟨t', ht', hid⟩ := h.rooted _ k hen
      rw [ht] at ht'
      cases ht'
      refine ⟨t, by rw [hseat, ht], hc, ?_, by rw [hlisted]; exact .inl (h.entry _ k hen)⟩
      rw [hentry, if_pos hid]
      simpa using hkn.symm

theorem Kept.closed (h : Kept b) (hn : b.registry.entry? s.session.id = some n)
    (hs : b.registry.seat? n = some s) (he : enters b.registry q = none)
    (hu : unseats b.registry q = none)
    (hr : apply b.registry q = closing b.registry n s) : Kept (b.step q) := by
  have hreg : (b.step q).registry = closing b.registry n s := hr
  have hseat (k : Nat) : (b.step q).registry.seat? k =
      if k = n then some (closedSeat s) else b.registry.seat? k := by
    rw [hreg, closing_seat hs]
  have hentry (token : String) : (b.step q).registry.entry? token =
      if token = s.session.id then none else b.registry.entry? token := by
    rw [hreg, closing_entry]
  have hlisted : (b.step q).listed = b.listed := by simp [Book.step, he]
  have hdisplaced : (b.step q).displaced = b.displaced := by simp [Book.step, he, hu]
  refine ⟨by rw [hreg]; exact h.rooted.closing hs, ?_, ?_, ?_⟩
  · intro token k hk
    rw [hentry] at hk
    rw [hlisted]
    split at hk
    · cases hk
    · exact h.entry token k hk
  · intro k t hk ht hc
    rw [hlisted] at hk
    rw [hseat] at ht
    rw [hentry, hdisplaced]
    split at ht
    · cases ht
      rw [closed_seat_closed] at hc
      cases hc
    · rename_i hkn
      rcases h.placed k t hk ht hc with hen | hd
      · left
        rw [if_neg, hen]
        intro hid
        rw [hid, hn] at hen
        cases hen
        exact hkn rfl
      · exact .inr hd
  · intro k hk
    rw [hdisplaced] at hk
    obtain ⟨t, ht, hc, hen, hl⟩ := h.away k hk
    have hkn : k ≠ n := by
      rintro rfl
      rw [hs] at ht
      cases ht
      exact hen hn
    refine ⟨t, by rw [hseat, if_neg hkn, ht], hc, ?_, by rwa [hlisted]⟩
    rw [hentry]
    split
    · simp
    · exact hen

theorem Kept.step (h : Kept b) (q : Request) : Kept (b.step q) := by
  have ha := apply_applied h.rooted q
  generalize hr : apply b.registry q = r at ha
  cases ha with
  | refused he hu =>
    rw [step_refused he hu hr]
    exact h
  | listed hs he hu => exact h.listed hs he hu hr
  | closed hn hs he hu => exact h.closed hn hs he hu hr

theorem run_snoc (b : Book) (requests : List Request) (q : Request) :
    b.run (requests ++ [q]) = (b.run requests).step q := by
  simp [Book.run]

theorem run_kept (seats : List Seat) (requests : List Request) :
    Kept (Book.run { registry := { seats } } requests) := by
  induction requests using List.reverseRecOn with
  | nil => exact kept_start seats
  | append_singleton requests q ih =>
    rw [run_snoc]
    exact ih.step q

theorem Kept.found_or_displaced (h : Kept b) (hl : n ∈ b.listed)
    (hs : b.registry.seat? n = some s) : s.session.isClosed = false ↔
      b.registry.get? s.session.id = some (n, s) ∨ n ∈ b.displaced := by
  constructor
  · intro hc
    exact (h.placed n s hl hs hc).imp_left fun he => get_iff.mpr ⟨he, hs, hc⟩
  · rintro (hg | hd)
    · exact (get_iff.mp hg).2.2
    · obtain ⟨t, ht, hc, -⟩ := h.away n hd
      rw [hs] at ht
      cases ht
      exact hc

/-- Nobody is displaced where no session is set. -/
theorem run_displaced (seats : List Seat) (requests : List Request)
    (h : ∀ n, .set n ∉ requests) :
    (Book.run { registry := { seats } } requests).displaced = [] := by
  induction requests using List.reverseRecOn with
  | nil => rfl
  | append_singleton requests q ih =>
    have hd := ih fun n hn => h n (List.mem_append_left _ hn)
    have hu : unseats (Book.run { registry := { seats } } requests).registry q = none := by
      cases q with
      | set n => exact (h n (by simp)).elim
      | enroll | close => rfl
    simp [run_snoc, Book.step, hd, hu]

/-- Of the sessions that were ever on the roster, those are open that are found by their token, and
those that were displaced: another session with the same token was set while they were open, which
does not close them. So each open session is the one that its token finds, and a token has one at
most, exactly as long as none is displaced; enrolling and closing displace none. -/
theorem open_sessions_are_found_or_displaced (seats : List Seat) (requests : List Request) :
    let b := Book.run { registry := { seats } } requests
    (∀ n s, n ∈ b.listed → b.registry.seat? n = some s → (s.session.isClosed = false ↔
      b.registry.get? s.session.id = some (n, s) ∨ n ∈ b.displaced)) ∧
    (b.displaced = [] ↔ ∀ n s, n ∈ b.listed → b.registry.seat? n = some s →
      s.session.isClosed = false → b.registry.get? s.session.id = some (n, s)) ∧
    ((∀ n, .set n ∉ requests) → b.displaced = []) := by
  intro b
  have h : Kept b := run_kept seats requests
  refine ⟨fun n s => h.found_or_displaced, ⟨fun hd n s hl hs hc => ?_, fun hall => ?_⟩,
    run_displaced seats requests⟩
  · refine ((h.found_or_displaced hl hs).mp hc).resolve_right fun hn => ?_
    rw [hd] at hn
    cases hn
  · refine List.eq_nil_iff_forall_not_mem.mpr fun n hn => ?_
    obtain ⟨s, hs, hc, he, hl⟩ := h.away n hn
    exact he (get_iff.mp (hall n s hl hs hc)).1

/-- A session that is set takes the place of another one, and both are open. -/
theorem two_open_sessions_of_one_token :
    let target : Exec.Target := ⟨none, "team-a", "web-0", "app"⟩
    let b := Book.run { registry := { seats := [.new "t" target none 4 0, .new "t" target none 4 0] } }
      [.set 0, .set 1]
    b.listed = [0, 1] ∧ b.displaced = [0] ∧
    (b.registry.get? "t").map (·.1) = some 1 ∧
    b.registry.seats.map (fun s => (s.session.id, s.session.phase)) =
      [("t", .pending), ("t", .pending)] := by
  decide

end PodConsole.Proofs.Replacing
