import PodConsole.Gateway.Socket
import PodConsole.Session.Seat

namespace PodConsole.Proofs.Pushing
open Session
open Gateway (Held)

inductive Offered {α : Type} (q : Queue α) (a : α) : Offer × Queue α → Prop
  | closed : (q.sending && q.receiving) = false → Offered q a (.closed, q)
  | full : (q.sending && q.receiving) = true → q.capacity ≤ q.items.length →
      Offered q a (.full, q)
  | sent : (q.sending && q.receiving) = true → q.items.length < q.capacity →
      Offered q a (.sent, { q with items := q.items ++ [a] })

theorem offer_offered {α : Type} (q : Queue α) (a : α) : Offered q a (q.offer a) := by
  unfold Queue.offer
  split
  · rename_i h
    exact .closed (by rwa [Bool.not_eq_true'] at h)
  · rename_i h
    split
    · rename_i hc
      exact .full (by simpa using h) hc
    · rename_i hc
      exact .sent (by simpa using h) (Nat.lt_of_not_le hc)

theorem offer_room {α : Type} (q : Queue α) (a : α) : (q.offer a).2.capacity = q.capacity := by
  have ho := offer_offered q a
  generalize q.offer a = after at ho
  cases ho <;> rfl

/-- What one step has added to a queue. A step that adds nothing may take or clear. -/
def fresh {α : Type} (before after : Queue α) : List α :=
  after.items.drop before.items.length

theorem fresh_suffix {α : Type} {before after : Queue α} (h : after.items <:+ before.items) :
    fresh before after = [] :=
  List.drop_eq_nil_of_le h.length_le

/-- A queue of which the front was taken, with what is new behind the rest. -/
def Grown {α : Type} (before after : Queue α) : Prop :=
  ∃ left, left <:+ before.items ∧ after.items = left ++ fresh before after

theorem grown_suffix {α : Type} {before after : Queue α} (h : after.items <:+ before.items) :
    Grown before after :=
  ⟨after.items, h, by rw [fresh_suffix h, List.append_nil]⟩

theorem grown_offer {α : Type} (q : Queue α) (a : α) : Grown q (q.offer a).2 := by
  have ho := offer_offered q a
  generalize q.offer a = after at ho
  cases ho with
  | closed h => exact grown_suffix List.suffix_rfl
  | full h hc => exact grown_suffix List.suffix_rfl
  | sent h hc => exact ⟨q.items, List.suffix_rfl, by simp [fresh]⟩

/-- What one step has handed to a session. -/
def entries (before after : Seat) : List Held :=
  (fresh before.terminal.connection.stdin after.terminal.connection.stdin).map .keys ++
    (fresh before.terminal.sizes after.terminal.sizes).map .size

theorem entries_suffix {s t : Seat}
    (hk : t.terminal.connection.stdin.items <:+ s.terminal.connection.stdin.items)
    (hz : t.terminal.sizes.items <:+ s.terminal.sizes.items) : entries s t = [] := by
  simp [entries, fresh_suffix hk, fresh_suffix hz]

def push (s : Seat) : Held → Offer × Seat
  | .keys text => s.pushKeys text
  | .size size => s.pushSize size

/-- The queue for it has both its ends. -/
def takes (s : Seat) : Held → Bool
  | .keys _ => s.terminal.connection.stdin.sending && s.terminal.connection.stdin.receiving
  | .size _ => s.terminal.sizes.sending && s.terminal.sizes.receiving

/-- There is room in the queue for it. -/
def Roomy (s : Seat) : Held → Prop
  | .keys _ => s.terminal.connection.stdin.items.length < s.terminal.connection.stdin.capacity
  | .size _ => s.terminal.sizes.items.length < s.terminal.sizes.capacity

inductive Pushed (s : Seat) (held : Held) : Offer × Seat → Prop
  | closed : takes s held = false → Pushed s held (.closed, s)
  | full : takes s held = true → ¬ Roomy s held → Pushed s held (.full, s)
  | sent {t : Seat} : takes s held = true → Roomy s held → entries s t = [held] →
      t.session = s.session → t.lifetime = s.lifetime →
      t.terminal.connection.cancelled = s.terminal.connection.cancelled →
      Pushed s held (.sent, t)

theorem push_pushed (s : Seat) (held : Held) : Pushed s held (push s held) := by
  cases held with
  | keys text =>
    have ho := offer_offered s.terminal.connection.stdin text
    simp only [push, Seat.pushKeys]
    generalize s.terminal.connection.stdin.offer text = after at ho
    cases ho with
    | closed h => exact .closed h
    | full h hc => exact .full h (Nat.not_lt.mpr hc)
    | sent h hc =>
      refine .sent h hc ?_ rfl rfl rfl
      simp [entries, fresh, Seat.mapConnection, Terminal.mapConnection]
  | size size =>
    have ho := offer_offered s.terminal.sizes size
    simp only [push, Seat.pushSize]
    generalize s.terminal.sizes.offer size = after at ho
    cases ho with
    | closed h => exact .closed h
    | full h hc => exact .full h (Nat.not_lt.mpr hc)
    | sent h hc =>
      refine .sent h hc ?_ rfl rfl rfl
      simp [entries, fresh]

theorem push_unsent {s : Seat} {held : Held} (h : (push s held).1 ≠ .sent) :
    (push s held).2 = s := by
  have hp := push_pushed s held
  generalize push s held = after at hp h
  cases hp with
  | closed | full => rfl
  | sent => exact (h rfl).elim

end PodConsole.Proofs.Pushing
