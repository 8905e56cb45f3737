import PodConsole.Log.Relay
import PodConsole.Proofs.Text.Streaming

namespace PodConsole.Proofs.Pumping
open Log Text Utf8 Boundary Streaming

/-- A sink with what it was given, a frame or nothing but a flush, and why it refused it if it
did. -/
structure Tap (σ : Type) where
  sink : σ
  answers : List (Option String × Option String) := []

namespace Tap

variable {σ : Type}

def offered (t : Tap σ) : List String :=
  t.answers.filterMap (·.1)

/-- The frames that the sink did not refuse. -/
def taken (t : Tap σ) : List String :=
  (t.answers.filter fun a => a.2.isNone).filterMap (·.1)

instance [Sink σ] : Sink (Tap σ) where
  send t frame :=
    let (refusal, sink) := Sink.send t.sink frame
    (refusal, { sink, answers := t.answers ++ [(some frame, refusal)] })
  flush t :=
    let (refusal, sink) := Sink.flush t.sink
    (refusal, { sink, answers := t.answers ++ [(none, refusal)] })

/-- Nothing was refused. -/
def Open (t : Tap σ) : Prop :=
  ∀ a ∈ t.answers, a.2 = none

/-- What came last was refused, and nothing before it. -/
def Stuck (t : Tap σ) (cause : String) : Prop :=
  ∃ before given, t.answers = before ++ [(given, some cause)] ∧ ∀ a ∈ before, a.2 = none

theorem Open.add {t : Tap σ} (h : t.Open) (given : Option String) (o : σ) :
    Open ⟨o, t.answers ++ [(given, none)]⟩ := by
  intro a ha
  rcases List.mem_append.mp ha with ha | ha
  · exact h a ha
  · cases List.mem_singleton.mp ha
    rfl

theorem Open.taken_eq {t : Tap σ} (h : t.Open) : t.taken = t.offered := by
  rw [taken, List.filter_eq_self.mpr fun a ha => by rw [h a ha]; rfl]
  rfl

theorem Stuck.offered_eq {t : Tap σ} {cause : String} (h : t.Stuck cause) :
    ∃ given : Option String, t.offered = t.taken ++ given.toList := by
  obtain ⟨before, given, ha, hn⟩ := h
  have hb : before.filter (fun a => a.2.isNone) = before :=
    List.filter_eq_self.mpr fun a ha => by rw [hn a ha]; rfl
  refine ⟨given, ?_⟩
  cases given <;> simp [offered, taken, ha, hb]

theorem Stuck.refusal_eq {t : Tap σ} {cause : String} (h : t.Stuck cause)
    {a : Option String × Option String} (ha : a ∈ t.answers) {cause' : String}
    (hc : a.2 = some cause') : cause' = cause := by
  obtain ⟨before, given, hb, hn⟩ := h
  rw [hb] at ha
  rcases List.mem_append.mp ha with ha | ha
  · rw [hn a ha] at hc
    cases hc
  · cases List.mem_singleton.mp ha
    exact (Option.some.inj hc).symm

theorem Stuck.refusal_last {t : Tap σ} {cause : String} (h : t.Stuck cause)
    {before after : List (Option String × Option String)} {given : Option String}
    {cause' : String} (ha : t.answers = before ++ (given, some cause') :: after) :
    after = [] := by
  obtain ⟨before', given', hb, hn⟩ := h
  rcases List.eq_nil_or_concat after with hnil | ⟨rest, last, rfl⟩
  · exact hnil
  · have hin : (given, some cause') ∈ before' := by
      rw [hb, List.concat_eq_append, ← List.cons_append, ← List.append_assoc] at ha
      rw [List.append_inj_left' ha rfl]
      simp
    cases hn _ hin

end Tap

variable {σ : Type} {r r' : Relay} {t : Tap σ} {seen : Bytes} {text : String}

/-- The frames make up a text, none of them is empty, and those that were taken are counted. -/
structure Account (text : String) (r : Relay) (t : Tap σ) : Prop where
  text : String.join t.offered = text
  full : ∀ frame ∈ t.offered, frame ≠ ""
  frames : r.frames = t.taken.length

theorem Account.same (h : Account text r t) (hf : r'.frames = r.frames) : Account text r' t :=
  ⟨h.text, h.full, hf.trans h.frames⟩

theorem Account.add (h : Account text r t) {frame : String} (hn : frame ≠ "")
    {refusal : Option String} (hf : r'.frames = r.frames + if refusal.isNone then 1 else 0)
    (o : σ) : Account (text ++ frame) r' ⟨o, t.answers ++ [(some frame, refusal)]⟩ := by
  refine ⟨?_, ?_, ?_⟩
  · simp [Tap.offered, String.join_append, ← h.text]
  · intro f hf
    simp only [Tap.offered, List.filterMap_append, List.mem_append] at hf
    rcases hf with hf | hf
    · exact h.full f hf
    · cases List.mem_singleton.mp hf
      exact hn
  · rw [hf, h.frames]
    cases refusal <;> simp [Tap.taken]

theorem Account.flushed (h : Account text r t) (refusal : Option String) (o : σ) :
    Account text r ⟨o, t.answers ++ [(none, refusal)]⟩ := by
  refine ⟨?_, ?_, ?_⟩
  · simpa [Tap.offered] using h.text
  · simpa [Tap.offered] using h.full
  · rw [h.frames]
    cases refusal <;> simp [Tap.taken]

/-- All that was read is sent, but for an unfinished character. -/
structure Flowing (seen : Bytes) (r : Relay) (t : Tap σ) : Prop where
  stands : Stands r.decoder seen
  bytes : r.bytes = seen.length
  account : Account (ready seen) r t
  isOpen : t.Open

theorem flowing_start (o : σ) : Flowing [] {} ⟨o, []⟩ where
  stands := stands_new
  bytes := rfl
  account := ⟨rfl, nofun, rfl⟩
  isOpen := nofun

section

variable [Sink σ]

theorem send_tap (r : Relay) (t : Tap σ) (text : Option String) :
    r.send t text = ((r.send t.sink text).1, (r.send t.sink text).2.1,
      ⟨(r.send t.sink text).2.2,
        t.answers ++ text.toList.map fun frame => (some frame, (r.send t.sink text).1)⟩) := by
  cases text with
  | none => simp [Relay.send]
  | some frame =>
    simp only [Relay.send, Sink.send, Option.toList_some, List.map_cons, List.map_nil]
    generalize Sink.send t.sink frame = after
    obtain ⟨refusal, sink⟩ := after
    cases refusal <;> rfl

/-- What a tap notes down makes no difference. -/
theorem pump_reads_tap (ending : Ending) (reads : List Bytes) (r : Relay) (t : Tap σ) :
    Relay.pumpReads ending reads r t.sink =
      ((Relay.pumpReads ending reads r t).1, (Relay.pumpReads ending reads r t).2.1,
        (Relay.pumpReads ending reads r t).2.2.sink) := by
  induction reads generalizing r t with
  | nil =>
    cases ending with
    | silent | broken cause => rfl
    | ended =>
      simp only [Relay.pumpReads, Relay.close, send_tap]
      generalize Relay.send _ t.sink r.decoder.finish.1 = after
      obtain ⟨refusal, r', sink⟩ := after
      cases refusal <;> rfl
  | cons chunk rest ih =>
    simp only [Relay.pumpReads, send_tap]
    generalize Relay.send _ t.sink (r.decoder.push chunk).1 = after
    obtain ⟨refusal, r', sink⟩ := after
    cases refusal with
    | some cause => rfl
    | none => exact ih r' ⟨sink, _⟩

/-- A source that broke off is read on in the next one. -/
theorem pump_reads_append {reads : List Bytes} {r' : Relay} {o o' : σ}
    (h : Relay.pumpReads (.broken cause) reads r o = (some (.error (.read cause)), r', o'))
    (ending : Ending) (more : List Bytes) :
    Relay.pumpReads ending (reads ++ more) r o = Relay.pumpReads ending more r' o' := by
  induction reads generalizing r o with
  | nil =>
    cases h
    rfl
  | cons chunk rest ih =>
    simp only [Relay.pumpReads, List.cons_append] at h ⊢
    generalize Relay.send _ o (r.decoder.push chunk).1 = after at h
    obtain ⟨refusal, r₁, o₁⟩ := after
    cases refusal with
    | some cause' => cases h
    | none => exact ih h

/-- A frame that there is to send is taken, or refused for a reason. -/
inductive Sent (text : String) (r : Relay) : Option String × Relay × Tap σ → Prop
  | taken {r' : Relay} {t : Tap σ} : r'.decoder = r.decoder → r'.bytes = r.bytes →
      Account text r' t → t.Open → Sent text r (none, r', t)
  | refused {t : Tap σ} {cause : String} : Account text r t → t.Stuck cause →
      Sent text r (some cause, r, t)

theorem send_sent (h : Account text r t) (ho : t.Open) {said : Option String}
    (hn : ∀ frame ∈ said.toList, frame ≠ "") :
    Sent (text ++ said.getD "") r (r.send t said) := by
  cases said with
  | none =>
    refine .taken rfl rfl ?_ ho
    simpa using h
  | some frame =>
    have hf : frame ≠ "" := hn frame (by simp)
    rw [send_tap]
    simp only [Relay.send]
    generalize Sink.send t.sink frame = after
    obtain ⟨refusal, sink⟩ := after
    cases refusal with
    | some cause => exact .refused (h.add hf rfl sink) ⟨t.answers, some frame, rfl, ho⟩
    | none => exact .taken rfl rfl (h.add hf rfl sink) (ho.add _ sink)

/-- Where a relay stands when it is done with a source, before which it had seen some octets. A
refusal finds it with the text of the reads so far, which at the end is all of it. -/
inductive Pumped (seen : Bytes) (ending : Ending) (reads : List Bytes) :
    Option (Except RelayError Unit) × Relay × Tap σ → Prop
  | silent {r : Relay} {t : Tap σ} : ending = .silent → Flowing (seen ++ reads.flatten) r t →
      Pumped seen ending reads (none, r, t)
  | broken {r : Relay} {t : Tap σ} {cause : String} : ending = .broken cause →
      Flowing (seen ++ reads.flatten) r t →
      Pumped seen ending reads (some (.error (.read cause)), r, t)
  | ended {r : Relay} {t : Tap σ} : ending = .ended →
      Account (lossy (seen ++ reads.flatten)) r t → t.Open →
      r.bytes = (seen ++ reads.flatten).length →
      Pumped seen ending reads (some (.ok ()), r, t)
  | refused {r : Relay} {t : Tap σ} {cause text : String} (count : Nat) :
      Account text r t → t.Stuck cause →
      r.bytes = (seen ++ (reads.take count).flatten).length →
      text = ready (seen ++ (reads.take count).flatten) ∨
        ending = .ended ∧ count = reads.length ∧ text = lossy (seen ++ reads.flatten) →
      Pumped seen ending reads (some (.error (.send cause)), r, t)

theorem close_pumped (h : Flowing seen r t) :
    Pumped seen .ended [] (some (r.close t).1, (r.close t).2) := by
  have hs := send_sent (r := { r with decoder := r.decoder.finish.2 }) (h.account.same rfl)
    h.isOpen (finish_ne_empty r.decoder)
  rw [h.stands.finish] at hs
  have hseen : seen ++ ([] : List Bytes).flatten = seen := List.append_nil seen
  unfold Relay.close
  dsimp only
  generalize Relay.send { r with decoder := r.decoder.finish.2 } t r.decoder.finish.1 = after at hs
  cases hs with
  | @taken r' t' hd hb account isOpen =>
    have hbytes : r'.bytes = seen.length := hb.trans h.bytes
    simp only [Sink.flush]
    generalize Sink.flush t'.sink = after
    obtain ⟨refusal, sink⟩ := after
    cases refusal with
    | none =>
      exact .ended rfl (by rw [hseen]; exact account.flushed none sink) (isOpen.add _ sink)
        (by rwa [hseen])
    | some cause =>
      exact .refused 0 (account.flushed (some cause) sink)
        ⟨t'.answers, none, rfl, isOpen⟩ (by simpa using hbytes) (.inr ⟨rfl, rfl, by rw [hseen]⟩)
  | refused account stuck =>
    exact .refused 0 account stuck (by simpa using h.bytes)
      (.inr ⟨rfl, rfl, by rw [hseen]⟩)

theorem pump_reads_pumped (ending : Ending) (reads : List Bytes) (h : Flowing seen r t) :
    Pumped seen ending reads (Relay.pumpReads ending reads r t) := by
  induction reads generalizing seen r t with
  | nil =>
    have hseen : seen ++ ([] : List Bytes).flatten = seen := List.append_nil seen
    cases ending with
    | silent => exact .silent rfl (by rwa [hseen])
    | broken cause => exact .broken rfl (by rwa [hseen])
    | ended => exact close_pumped h
  | cons chunk rest ih =>
    obtain ⟨stands, htext⟩ := h.stands.push chunk
    have hs := send_sent (r := { r with
        decoder := (r.decoder.push chunk).2, bytes := r.bytes + chunk.length })
      (h.account.same rfl) h.isOpen (push_ne_empty r.decoder chunk)
    rw [htext] at hs
    have hseen (reads : List Bytes) :
        seen ++ (chunk :: reads).flatten = seen ++ chunk ++ reads.flatten := by simp
    unfold Relay.pumpReads
    dsimp only
    generalize Relay.send { r with
      decoder := (r.decoder.push chunk).2, bytes := r.bytes + chunk.length } t
        (r.decoder.push chunk).1 = after at hs
    cases hs with
    | @taken r' t' hd hb account isOpen =>
      have hflow : Flowing (seen ++ chunk) r' t' :=
        ⟨by rw [hd]; exact stands, by simp [hb, h.bytes], account, isOpen⟩
      dsimp only
      have hp := ih hflow
      generalize Relay.pumpReads ending rest r' t' = result at hp
      cases hp with
      | silent he hf => exact .silent he (by rwa [hseen])
      | broken he hf => exact .broken he (by rwa [hseen])
      | ended he account isOpen bytes => exact .ended he (by rwa [hseen]) isOpen (by rwa [hseen])
      | refused count account stuck bytes ht =>
        refine .refused (count + 1) account stuck ?_ ?_
        · rwa [List.take_succ_cons, hseen]
        · rw [List.take_succ_cons, hseen, hseen, List.length_cons, Nat.succ_inj]
          exact ht
    | refused account stuck =>
      dsimp only
      have hone : seen ++ ((chunk :: rest).take 1).flatten = seen ++ chunk := by simp
      exact .refused 1 account stuck (by simp [h.bytes]) (.inl (by rw [hone]))

end

/-- What was ready stays at the front of the text, whatever comes behind it. -/
theorem ready_front (seen more : Bytes) : ∃ rest, ready seen ++ rest = lossy (seen ++ more) :=
  ⟨ready (Streaming.rest seen ++ more) ++ lossy (Streaming.rest (seen ++ more)), by
    rw [← String.append_assoc, ← ready_push, ready_rest]⟩

/-- The text of the reads so far stays at the front of the text of them all. -/
theorem ready_take (reads : List Bytes) (count : Nat) :
    ∃ rest, ready (reads.take count).flatten ++ rest = lossy reads.flatten := by
  obtain ⟨rest, hr⟩ := ready_front (reads.take count).flatten (reads.drop count).flatten
  exact ⟨rest, by rw [hr, ← List.flatten_append, List.take_append_drop]⟩

/-- What a refusal leaves taken is the front of the text of the reads. -/
theorem taken_front {cause : String} {reads : List Bytes} {count : Nat} (h : Account text r t)
    (hs : t.Stuck cause)
    (ht : text = ready (reads.take count).flatten ∨ text = lossy reads.flatten) :
    ∃ rest, String.join t.taken ++ rest = lossy reads.flatten := by
  have ⟨more, hm⟩ : ∃ more, text ++ more = lossy reads.flatten := by
    rcases ht with rfl | rfl
    · exact ready_take reads count
    · exact ⟨"", String.append_empty⟩
  obtain ⟨given, ho⟩ := hs.offered_eq
  refine ⟨given.getD "" ++ more, ?_⟩
  rw [← hm, ← h.text, ho, String.join_append, join_to_list, String.append_assoc]

theorem Pumped.account {ending : Ending} {reads : List Bytes}
    {result : Option (Except RelayError Unit)} (h : Pumped seen ending reads (result, r, t)) :
    ∃ text, Account text r t := by
  cases h with
  | silent _ flowing | broken _ flowing => exact ⟨_, flowing.account⟩
  | ended _ account => exact ⟨_, account⟩
  | refused _ account => exact ⟨_, account⟩

/-- What a source that the sink takes entirely comes to. -/
def conclusion : Ending → Option (Except RelayError Unit)
  | .ended => some (.ok ())
  | .broken cause => some (.error (.read cause))
  | .silent => none

theorem Pumped.outcome {ending : Ending} {reads : List Bytes}
    {result : Option (Except RelayError Unit)} (h : Pumped seen ending reads (result, r, t)) :
    (t.Open ∧ result = conclusion ending) ∨
      ∃ cause, t.Stuck cause ∧ result = some (.error (.send cause)) := by
  cases h with
  | silent he flowing | broken he flowing => exact .inl ⟨flowing.isOpen, by rw [he]; rfl⟩
  | ended he _ isOpen => exact .inl ⟨isOpen, by rw [he]; rfl⟩
  | refused _ _ stuck => exact .inr ⟨_, stuck, rfl⟩

/-- A source pumped into any sink, watched by a tap. A relay that comes to the end has sent the
text of all octets; one whose source broke off has sent it up to the boundary and goes on with the
next source as if it were one; one whose sink refused has stopped there. No frame is empty, and the
counts are right. -/
theorem pump_is_exact {σ : Type} [Sink σ] (s : Source) (o : σ) :
    let total := s.reads.flatten
    let watched := ({} : Relay).pump s (Tap.mk o [])
    let result := watched.1
    let relay := watched.2.1
    let tap := watched.2.2
    ({} : Relay).pump s o = (result, relay, tap.sink) ∧
    (∀ frame ∈ tap.offered, frame ≠ "") ∧
    relay.frames = tap.taken.length ∧
    (result = some (.ok ()) → tap.taken = tap.offered ∧
      String.join tap.taken = lossy total ∧ relay.bytes = total.length) ∧
    (∀ cause, result = some (.error (.read cause)) → tap.taken = tap.offered ∧
      String.join tap.taken = lossy (total.take (boundary total)) ∧ relay.bytes = total.length ∧
      ∀ further : Source, relay.pump further tap =
        ({} : Relay).pump ⟨s.reads ++ further.reads, further.ending⟩ (Tap.mk o [])) ∧
    (∀ cause, result = some (.error (.send cause)) →
      (∃ count, relay.bytes = (s.reads.take count).flatten.length ∧
        (String.join tap.offered = ready (s.reads.take count).flatten ∨
          s.ending = .ended ∧ count = s.reads.length ∧ String.join tap.offered = lossy total)) ∧
      ∃ rest, String.join tap.taken ++ rest = lossy total) ∧
    (∀ cause, result = some (.error (.send cause)) ↔ ∃ a ∈ tap.answers, a.2 = some cause) ∧
    (∀ before after given cause, tap.answers = before ++ (given, some cause) :: after →
      after = []) ∧
    ((∀ a ∈ tap.answers, a.2 = none) → result = conclusion s.ending) := by
  intro total watched result relay tap
  have h : Pumped [] s.ending s.reads (result, relay, tap) :=
    pump_reads_pumped s.ending s.reads (flowing_start o)
  obtain ⟨text, account⟩ := h.account
  refine ⟨pump_reads_tap s.ending s.reads {} ⟨o, []⟩, account.full, account.frames,
    fun hr => ?_, fun cause hr => ?_, fun cause hr => ?_, fun cause => ?_,
    fun before after given cause ha => ?_, fun ho => ?_⟩
  · rw [hr] at h
    cases h with
    | ended _ account isOpen bytes =>
      exact ⟨isOpen.taken_eq, by rw [isOpen.taken_eq]; exact account.text, bytes⟩
  · rw [hr] at h
    cases h with
    | broken he flowing =>
      refine ⟨flowing.isOpen.taken_eq, ?_, flowing.bytes, fun further => ?_⟩
      · rw [flowing.isOpen.taken_eq]
        exact flowing.account.text
      · have hrun : Relay.pumpReads (.broken cause) s.reads {} (Tap.mk o []) =
            (some (.error (.read cause)), relay, tap) := by
          rw [← he, ← hr]
          rfl
        exact (pump_reads_append hrun further.ending further.reads).symm
  · rw [hr] at h
    cases h with
    | refused count account stuck bytes ht =>
      rw [account.text]
      exact ⟨⟨count, bytes, ht⟩, taken_front account stuck (ht.imp_right (·.2.2))⟩
  · constructor
    · intro hr
      rw [hr] at h
      cases h with
      | refused _ _ stuck =>
        obtain ⟨before, given, ha, -⟩ := stuck
        exact ⟨(given, some cause), by simp [ha], rfl⟩
    · rintro ⟨a, ha, hc⟩
      rcases h.outcome with ⟨isOpen, -⟩ | ⟨cause', stuck, hr⟩
      · rw [isOpen a ha] at hc
        cases hc
      · rw [stuck.refusal_eq ha hc]
        exact hr
  · rcases h.outcome with ⟨isOpen, -⟩ | ⟨cause', stuck, -⟩
    · cases isOpen (given, some cause) (by simp [ha])
    · exact stuck.refusal_last ha
  · rcases h.outcome with ⟨-, hr⟩ | ⟨cause, ⟨before, given, hb, -⟩, -⟩
    · exact hr
    · cases ho (given, some cause) (by simp [hb])

end PodConsole.Proofs.Pumping
