import PodConsole.Proofs.Kubectl.Delivery
import PodConsole.Proofs.Kubectl.Frames
import PodConsole.Proofs.Kubectl.Launching

namespace PodConsole.Proofs.Fallback
open Exec Kubectl Exchange Moves Output Exchanges Delivery Frames Sending Choosing Launching
open Session (Terminal)
open Wire (Envelope)

/-- The attempt has ended, judged by its exit. -/
def Failed (x : Exchange) : Prop :=
  ∃ failure, x.attempt.stage = .over (.error failure) ∧ isVerdict failure = true

structure Sound (x : Exchange) : Prop where
  kept : Kept (received x.heard) x.attempt
  delivering : ∃ d, Delivering d x
  unheard : x.heard = [] → x.attempt.warmup.live = false

theorem sound_start (shell : String) (t : Terminal) : Sound (.start shell t) where
  kept := kept_start shell t.size
  delivering := ⟨t.decoder, delivering_start shell t⟩
  unheard _ := rfl

variable {x y : Exchange}

theorem Sound.change (h : Sound x) (hc : Change x y) : Sound y := by
  obtain ⟨d, hd⟩ := h.delivering
  rcases change_told hc with ⟨hh, ha⟩ | ⟨e, he, hh, ha⟩
  · refine ⟨?_, ⟨d, hd.change hc⟩, ?_⟩
    · rw [hh, ha]
      exact h.kept
    · rw [hh, ha]
      exact h.unheard
  · refine ⟨?_, ⟨d, hd.change hc⟩, ?_⟩
    · rw [hh, ha, received_snoc]
      exact h.kept.move (step_move he)
    · intro hn
      simp [hh] at hn

/-- What has asked nothing of its terminal has put nothing out. -/
theorem Sound.mute (h : Sound x) (ha : asked x.attempt = []) : x.calls = [] ∧ x.sent = [] := by
  obtain ⟨d, hd⟩ := h.delivering
  have hc := hd.called.1
  rw [ha, List.sublist_nil, List.append_eq_nil_iff] at hc
  have hf := hd.frames.1
  simp only [hc.1, speech, List.map_nil, List.sublist_nil, List.append_eq_nil_iff] at hf
  exact ⟨hc.1, hf.1⟩

theorem Sound.failed (h : Sound x) (hf : Failed x) :
    x.attempt.warmup.live = false ∧ x.calls = [] ∧ x.sent = [] := by
  obtain ⟨failure, hs, hv⟩ := hf
  obtain ⟨hl, hw⟩ := h.kept.failed failure hs hv
  exact ⟨hl, h.mute (by simp [asked, hs, hw])⟩

theorem move_live {a b : Attempt} {e : Attempt.Event} (h : Move a e b)
    (hl : a.warmup.live = true) : b.warmup.live = true := by
  have concluded {a b : Attempt} (hb : Concluded a b) (hl : a.warmup.live = true) :
      b.warmup.live = true := by
    cases hb <;> exact hl
  cases h with
  | judged _ _ hb => exact concluded hb hl
  | drained _ _ hb => exact concluded hb hl
  | cut _ _ hb => exact concluded hb hl
  | speak | speakLate | settle => rfl
  | _ => exact hl

theorem change_live (hc : Change x y) (hl : x.attempt.warmup.live = true) :
    y.attempt.warmup.live = true := by
  rcases change_told hc with ⟨_, ha⟩ | ⟨e, he, _, ha⟩
  · rw [ha]
    exact hl
  · rw [ha]
    exact move_live (step_move he) hl

theorem unavailable_verdict {failure : Failure} (h : failure.isShellUnavailable = true) :
    isVerdict failure = true := by
  cases failure with
  | shellUnavailable | establish => rfl
  | noShellAvailable | stream | disconnected => cases h

/-- The current attempt at its terminal, and all that were given up before it. -/
structure Attaching (base : List Envelope) (l : Launch) : Prop where
  past : ∀ x ∈ l.past, Sound x ∧ Failed x
  current : Sound l.current
  flowing : Flowing base (l.past.flatMap Exchange.seen) l.current

theorem attaching_start (hint : Option String) (t : Terminal) :
    Attaching t.connection.outbound.items (.start hint t) where
  past := by simp [Launch.start]
  current := sound_start _ t
  flowing := by
    constructor <;> simp [Launch.start, Exchange.start]

variable {base : List Envelope} {l : Launch}

/-- A process that could not be started is a failure of an attempt that has shown nothing. -/
theorem Sound.unable (h : Sound x) (hh : x.heard = []) (hs : x.attempt.stage = .forwarding)
    (reason : String) :
    Sound { x with attempt := x.attempt.finish (.error (.establish reason)) } where
  kept := h.kept.concluded (not_closing_of_forwarding hs) (.failed (h.unheard hh) rfl)
  delivering := by
    obtain ⟨d, hd⟩ := h.delivering
    have hw := (hd.idle (by rw [hs]; rfl)).2
    have hc := hd.called
    have ha : asked (x.attempt.finish (.error (.establish reason))) = asked x.attempt := by
      simp [asked, Attempt.finish, hs]
    simp only [due, hw, Attempt.act?, hs] at hc
    refine ⟨d, ?_, fun hn => (hn hw).elim, hd.decoder, hd.frames⟩
    rw [ha]
    simpa [due, hw, Attempt.act?, Attempt.finish] using hc
  unheard := h.unheard

theorem Attaching.unable (h : Attaching base l) (reason : String) :
    Attaching base (l.unable reason) := by
  unfold Launch.unable
  split
  · rename_i hg
    simp only [Bool.and_eq_true, List.isEmpty_iff] at hg
    have hs : l.current.attempt.stage = .forwarding := by
      cases hc : l.current.attempt.stage <;> simp_all [Stage.isForwarding]
    exact ⟨h.past, h.current.unable hg.1 hs reason, h.flowing.still rfl rfl rfl⟩
  · exact h

theorem Attaching.conclude (h : Attaching base l) : Attaching base l.conclude := by
  unfold Launch.conclude
  split
  · rename_i result hs
    split
    · exact ⟨h.past, h.current, h.flowing⟩
    · rename_i next hn
      obtain ⟨failure, hr, hv⟩ := (conclude_again hn).1
      have hf : Failed l.current := ⟨failure, by rw [hs, hr], unavailable_verdict hv⟩
      refine ⟨?_, sound_start _ _, ?_⟩
      · intro x hx
        rcases List.mem_append.mp hx with hx | hx
        · exact h.past x hx
        · rw [List.mem_singleton.mp hx]
          exact ⟨h.current, hf⟩
      · -- what was given up has sent nothing, so only what was there before is still to be seen
        have hn := (h.current.failed hf).2.2
        have hw := h.flowing
        refine ⟨?_, fun hr => ?_⟩
        · simpa [Launch.attempts, Exchange.start, hn] using hw.shown
        · simpa [Launch.attempts, Exchange.start, hn] using hw.all hr
  · exact h

theorem Attaching.step (h : Attaching base l) (e : Launch.Event) : Attaching base (l.step e) := by
  cases e with
  | exchange e =>
    have hc := step_change l.current e
    exact ⟨h.past, h.current.change hc, h.flowing.change hc⟩
  | unable reason => exact h.unable reason
  | conclude => exact h.conclude

theorem Attaching.run (h : Attaching base l) (events : List Launch.Event) :
    Attaching base (l.run events) :=
  launch_keeps (p := Attaching base) (fun e h => h.step e) h events

/-- No other shell is tried once one counts as up. -/
theorem Attaching.live_step (h : Attaching base l) (hl : l.current.attempt.warmup.live = true)
    (e : Launch.Event) :
    (l.step e).past = l.past ∧ (l.step e).current.attempt.warmup.live = true := by
  cases e with
  | exchange e => exact ⟨rfl, change_live (step_change l.current e) hl⟩
  | unable reason =>
    simp only [Launch.step, Launch.unable]
    split
    · exact ⟨rfl, hl⟩
    · exact ⟨rfl, hl⟩
  | conclude =>
    simp only [Launch.step, Launch.conclude]
    split
    · rename_i result hs
      split
      · exact ⟨rfl, hl⟩
      · rename_i next hn
        obtain ⟨failure, hr, hv⟩ := (conclude_again hn).1
        have hf := (h.current.failed ⟨failure, by rw [hs, hr], unavailable_verdict hv⟩).1
        rw [hl] at hf
        cases hf
    · exact ⟨rfl, hl⟩

theorem Attaching.live_run (h : Attaching base l) (hl : l.current.attempt.warmup.live = true)
    (events : List Launch.Event) :
    (l.run events).past = l.past ∧ (l.run events).current.attempt.warmup.live = true := by
  have keeps {m : Launch} (e : Launch.Event)
      (hm : Attaching base m ∧ m.past = l.past ∧ m.current.attempt.warmup.live = true) :
      Attaching base (m.step e) ∧ (m.step e).past = l.past ∧
        (m.step e).current.attempt.warmup.live = true := by
    obtain ⟨ha, hp, hl⟩ := hm
    obtain ⟨hq, hr⟩ := ha.live_step hl e
    exact ⟨ha.step e, hq.trans hp, hr⟩
  have hk := launch_keeps (p := fun m => Attaching base m ∧ m.past = l.past ∧
    m.current.attempt.warmup.live = true) keeps ⟨h, rfl, hl⟩ events
  exact hk.2

theorem Attaching.attempts_sound (h : Attaching base l) {x : Exchange} (hx : x ∈ l.attempts) :
    Sound x := by
  rcases List.mem_append.mp hx with hx | hx
  · exact (h.past x hx).1
  · rw [List.mem_singleton.mp hx]
    exact h.current

theorem Attaching.live_alone (h : Attaching base l) :
    (l.attempts.filter fun x => x.attempt.warmup.live).length ≤ 1 := by
  have hp : l.past.filter (fun x => x.attempt.warmup.live) = [] := by
    apply List.filter_eq_nil_iff.mpr
    intro x hx
    obtain ⟨hs, hf⟩ := h.past x hx
    simp [(hs.failed hf).1]
  rw [Launch.attempts, List.filter_append, hp, List.nil_append]
  exact List.length_filter_le _ _

/-- An attempt that is judged a failure was asked to show nothing and did not count as up. Once one
counts as up it stays the last, and is never judged a failure; what the client has seen is what was
there before and what the last attempt has sent. -/
theorem failed_attempts_are_invisible (hint : Option String) (t : Terminal)
    (events : List Launch.Event) :
    let l := (Launch.start hint t).run events
    (∀ x ∈ l.attempts, Failed x → x.calls = [] ∧ x.sent = [] ∧ x.attempt.warmup.live = false) ∧
    (∀ x ∈ l.past, Failed x) ∧
    (l.attempts.filter fun x => x.attempt.warmup.live).length ≤ 1 ∧
    (l.current.attempt.warmup.live = true → ∀ more, (l.run more).past = l.past ∧
      (l.run more).current.attempt.warmup.live = true ∧ ¬ Failed (l.run more).current) ∧
    l.attempts.flatMap Exchange.seen <+: t.connection.outbound.items ++ l.current.sent := by
  intro l
  have h : Attaching t.connection.outbound.items l := (attaching_start hint t).run events
  refine ⟨?_, fun x hx => (h.past x hx).2, h.live_alone, ?_, ?_⟩
  · intro x hx hf
    obtain ⟨hl, hc, hs⟩ := (h.attempts_sound hx).failed hf
    exact ⟨hc, hs, hl⟩
  · intro hl more
    obtain ⟨hp, hm⟩ := h.live_run hl more
    refine ⟨hp, hm, fun hf => ?_⟩
    rw [((h.run more).current.failed hf).1] at hm
    cases hm
  · have hs := (List.prefix_append _ _).trans h.flowing.shown
    simpa [Launch.attempts] using hs

example :
    let t : Terminal := ⟨"t", ⟨⟨4, [], true, true⟩, ⟨4, [], true, true⟩, false⟩, .unused, {}, {}⟩
    let l := (Launch.start none t).run ([.process .outputEnd, .process (.exit 127)].map .exchange ++
      [.conclude] ++ [.process (.output [0x24]), .process .settle, .turn,
        .client .take].map .exchange)
    l.past.map (·.attempt.stage) = [.over (.error (.shellUnavailable "bash"))] ∧
      l.current.attempt.warmup.live = true ∧ l.current.seen = [.stdout "$"] :=
  ⟨by rfl, by rfl, by rfl⟩

end PodConsole.Proofs.Fallback
