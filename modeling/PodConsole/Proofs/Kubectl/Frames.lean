import PodConsole.Proofs.Kubectl.Exchanges

namespace PodConsole.Proofs.Frames
open Kubectl Exchange Exchanges Sending
open Session (Act)
open Wire (Envelope)

/-- What was seen and what can still be taken is what there was and what was sent, in order. A
client that takes no more frames has seen a beginning of it. -/
structure Flowing (base before : List Envelope) (x : Exchange) : Prop where
  shown : before ++ x.seen ++ x.terminal.connection.outbound.items <+: base ++ x.sent
  all : x.terminal.connection.outbound.receiving = true →
    before ++ x.seen ++ x.terminal.connection.outbound.items = base ++ x.sent

variable {base before : List Envelope} {x y : Exchange}

theorem Flowing.still (h : Flowing base before x)
    (ho : y.terminal.connection.outbound = x.terminal.connection.outbound)
    (hs : y.seen = x.seen) (hn : y.sent = x.sent) : Flowing base before y where
  shown := by rw [ho, hs, hn]; exact h.shown
  all := by rw [ho, hs, hn]; exact h.all

theorem Flowing.tell (h : Flowing base before x) (e : Attempt.Event) :
    Flowing base before (x.tell e) := by
  unfold Exchange.tell
  split
  · exact h.still rfl rfl rfl
  · exact h

theorem Flowing.turned {act : Act} (h : Flowing base before x) (ht : Turned x act y) :
    Flowing base before y := by
  cases ht with
  | full => exact h.still rfl rfl rfl
  | refused =>
    have hu : Flowing base before { x with terminal := decoded x.terminal act } :=
      h.still rfl rfl rfl
    exact hu.tell .refused
  | silent =>
    have hu : Flowing base before
        { x with terminal := decoded x.terminal act, waiting := none } :=
      h.still rfl rfl rfl
    exact hu.tell .taken
  | @done frame _ hr =>
    apply Flowing.tell
    have he : before ++ x.seen ++ (x.terminal.connection.outbound.items ++ [frame]) =
        base ++ (x.sent ++ [frame]) := by
      rw [← List.append_assoc, h.all hr, List.append_assoc]
    exact ⟨he ▸ List.prefix_rfl, fun _ => he⟩

theorem Flowing.change (h : Flowing base before x) (hc : Change x y) :
    Flowing base before y := by
  cases hc with
  | nothing => exact h
  | served hs => exact h.still hs.2 rfl rfl
  | @told t e hs =>
    have hu : Flowing base before { x with terminal := t } := h.still hs.2 rfl rfl
    exact hu.tell e
  | @took frame rest hi =>
    have he : before ++ (x.seen ++ [frame]) ++ rest =
        before ++ x.seen ++ x.terminal.connection.outbound.items := by
      simp [hi]
    exact ⟨he ▸ h.shown, fun hr => he ▸ h.all hr⟩
  | stopped =>
    refine ⟨?_, fun hr => by cases hr⟩
    have hp : before ++ x.seen <+: before ++ x.seen ++ x.terminal.connection.outbound.items :=
      List.prefix_append _ _
    have hs := hp.trans h.shown
    rw [← List.append_nil (before ++ x.seen)] at hs
    exact hs
  | waited _ ht => exact h.turned ht
  | @asked act _ _ _ ht =>
    have hu : Flowing base before { x with calls := x.calls ++ [act] } := h.still rfl rfl rfl
    exact hu.turned ht

end PodConsole.Proofs.Frames
