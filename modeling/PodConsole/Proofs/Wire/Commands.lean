import PodConsole.Proofs.Wire.Envelopes
import PodConsole.Wire.Command

namespace PodConsole.Proofs.Commands
open Json Wire Grammar EnvelopeMembers Envelopes

/-- What an envelope asks for, if it asks for something. -/
inductive Asks (e : Envelope) : Command → Prop
  | bind {id : String} : e.op = .bind → e.sessionId = some id → Asks e (.bind id)
  | stdin : e.op = .stdin → Asks e (.stdin (e.data.getD ""))
  | resize {rows cols : Nat} : e.op = .resize → e.rows = some rows → e.cols = some cols →
      rows ≠ 0 → cols ≠ 0 → Asks e (.resize ⟨rows, cols⟩)

/-- The optional fields that matter where a client sends the operation. -/
def uses : Op → List String
  | .bind => ["sessionId"]
  | .stdin => ["data"]
  | .resize => ["rows", "cols"]
  | .stdout | .toast => []

/-- Envelopes that differ in fields without use alone. -/
structure Agree (e e' : Envelope) : Prop where
  op : e'.op = e.op
  sessionId : "sessionId" ∈ uses e.op → e'.sessionId = e.sessionId
  data : "data" ∈ uses e.op → e'.data = e.data
  rows : "rows" ∈ uses e.op → e'.rows = e.rows
  cols : "cols" ∈ uses e.op → e'.cols = e.cols

/-- Each optional field is bound once at most, to null or to what it may hold. -/
structure Legible (members : Members) : Prop where
  named : Named members
  data : ∃ s, Holds IsText (valuesOf "data" members) s
  sessionId : ∃ s, Holds IsText (valuesOf "sessionId" members) s
  rows : ∃ n, Holds IsCount (valuesOf "rows" members) n
  cols : ∃ n, Holds IsCount (valuesOf "cols" members) n

/-- The envelope that a client sends for a command. -/
def frame : Command → Envelope
  | .bind id => .bind id
  | .stdin data => .stdin data
  | .resize size => .resize size

variable {text text' : String} {members members' : Members} {e e' : Envelope} {c : Command}

theorem of_envelope_iff : Command.ofEnvelope e = .ok c ↔ Asks e c := by
  constructor
  · intro h
    unfold Command.ofEnvelope at h
    split at h
    · cases h
    · cases h
    · rename_i ho
      split at h
      · rename_i hs
        cases h
        exact .bind ho hs
      · cases h
    · rename_i ho
      cases h
      exact .stdin ho
    · rename_i ho
      split at h
      · cases h
      · cases h
      · rename_i rows cols hr hc
        split at h
        · cases h
        · rename_i hz
          cases h
          exact .resize ho hr hc (fun h => hz (.inl h)) (fun h => hz (.inr h))
  · rintro (⟨ho, hs⟩ | ho | ⟨ho, hr, hc, hrz, hcz⟩)
    · simp [Command.ofEnvelope, ho, hs]
    · simp [Command.ofEnvelope, ho]
    · simp [Command.ofEnvelope, ho, hr, hc, hrz, hcz]

theorem parse_of_read (h : Envelope.read text = .ok e) :
    Command.parse text = Command.ofEnvelope e := by
  rw [Command.parse, h]

theorem parse_iff : Command.parse text = .ok c ↔ ∃ e, Envelope.read text = .ok e ∧ Asks e c := by
  cases h : Envelope.read text with
  | error fault => simp [Command.parse, h]
  | ok e => simp [parse_of_read h, of_envelope_iff]

/-- Only the operation and the fields that it uses are looked at. -/
theorem Agree.same_command (h : Agree e e') : Command.ofEnvelope e' = Command.ofEnvelope e := by
  unfold Command.ofEnvelope
  rw [h.op]
  cases ho : e.op with
  | stdout | toast => rfl
  | bind => simp only [h.sessionId (by simp [ho, uses])]
  | stdin => simp only [h.data (by simp [ho, uses])]
  | resize => simp only [h.rows (by simp [ho, uses]), h.cols (by simp [ho, uses])]

theorem holds_unique {α : Type} {Says : Value → α → Prop} {vs : List Value} {a b : Option α}
    (said : ∀ {v a b}, Says v a → Says v b → a = b) (ha : Holds Says vs a)
    (hb : Holds Says vs b) (hn : ∀ a, ¬Says .null a) : a = b := by
  cases ha with
  | missing =>
    cases hb
    rfl
  | null =>
    cases hb with
    | null => rfl
    | present meant => exact (hn _ meant).elim
  | present meant =>
    cases hb with
    | null => exact (hn _ meant).elim
    | present meant' => rw [said meant meant']

theorem text_unique {vs : List Value} {s t : Option String} (hs : Holds IsText vs s)
    (ht : Holds IsText vs t) : s = t :=
  holds_unique (fun h h' => by cases h; cases h'; rfl) hs ht nofun

theorem count_unique {vs : List Value} {n m : Option Nat} (hn : Holds IsCount vs n)
    (hm : Holds IsCount vs m) : n = m := by
  refine holds_unique ?_ hn hm nofun
  rintro v a b ⟨ds, rfl, rfl, -⟩ ⟨ds', hv, rfl, -⟩
  cases hv
  rfl

/-- Members without use may change as they like, as long as the whole is an envelope still. -/
theorem agree_of_members (h : WritesObject text.toList members)
    (h' : WritesObject text'.toList members') (hr : Envelope.read text = .ok e)
    (legible : Legible members') (op : valuesOf "op" members' = valuesOf "op" members)
    (used : ∀ field ∈ uses e.op, valuesOf field members' = valuesOf field members) :
    ∃ e', Envelope.read text' = .ok e' ∧ Agree e e' := by
  obtain ⟨-, hf⟩ := (read_iff h).mp hr
  obtain ⟨hn, ⟨data, hdata⟩, ⟨sessionId, hsession⟩, ⟨rows, hrows⟩, ⟨cols, hcols⟩⟩ := legible
  refine ⟨⟨e.op, data, sessionId, rows, cols⟩, (read_iff h').mpr ⟨hn, ?_⟩, ?_⟩
  · exact ⟨by rw [op]; exact hf.op, hdata, hsession, hrows, hcols⟩
  · refine ⟨rfl, fun hu => ?_, fun hu => ?_, fun hu => ?_, fun hu => ?_⟩
    · exact text_unique hsession (by rw [used _ hu]; exact hf.sessionId)
    · exact text_unique hdata (by rw [used _ hu]; exact hf.data)
    · exact count_unique hrows (by rw [used _ hu]; exact hf.rows)
    · exact count_unique hcols (by rw [used _ hu]; exact hf.cols)

/-- A dimension that fits 16 bits, if there is one. -/
def Fitting (n : Option Nat) : Prop :=
  ∀ k ∈ n, k ≤ maxDimension

theorem fitting_of_holds {vs : List Value} {n : Option Nat} (h : Holds IsCount vs n) :
    Fitting n := by
  cases h with
  | missing | null => simp [Fitting]
  | present meant =>
    obtain ⟨ds, -, -, hle⟩ := meant
    simpa [Fitting] using hle

theorem optional_fitting {items rest : Items} {n : Option Nat}
    (h : optionalItem readDimension items = .ok (n, rest)) : Fitting n := by
  rw [optionalItem, bind_ok_iff] at h
  obtain ⟨next, -, h⟩ := h
  cases next with
  | none =>
    cases h
    simp [Fitting]
  | some entry =>
    obtain ⟨m, hm, he⟩ := map_ok_iff.mp h
    cases he
    exact fitting_of_holds (read_dimension_iff.mp hm)

theorem items_fitting {items : Items} (h : ofItems items = .ok e) :
    Fitting e.rows ∧ Fitting e.cols := by
  rw [ofItems, bind_ok_iff] at h
  obtain ⟨next, -, h⟩ := h
  cases next with
  | none => cases h
  | some entry =>
    simp only [bind_ok_iff] at h
    obtain ⟨op, -, ⟨data, _⟩, -, ⟨sessionId, _⟩, -, ⟨rows, _⟩, hrows, ⟨cols, last⟩, hcols, h⟩ := h
    have hr := optional_fitting hrows
    have hc := optional_fitting hcols
    cases last with
    | closed =>
      cases h
      exact ⟨hr, hc⟩
    | broken | cons => cases h

theorem read_fitting (h : Envelope.read text = .ok e) : Fitting e.rows ∧ Fitting e.cols := by
  obtain ⟨hv, -⟩ := value_of_read h
  cases hj : (Json.read text).value with
  | object members =>
    rw [hj, object_iff] at hv
    exact ⟨fitting_of_holds hv.2.2.rows, fitting_of_holds hv.2.2.cols⟩
  | array items =>
    rw [hj] at hv
    exact items_fitting hv
  | null | bool | number | string | broken =>
    rw [hj] at hv
    simp [Envelope.ofValue, refuse_ne_ok] at hv

theorem parse_frame (h : Asks e c) (hrows : Fitting e.rows) (hcols : Fitting e.cols) :
    Command.parse (frame c).write = .ok c := by
  have again (hr : Fitting (frame c).rows) (hc : Fitting (frame c).cols)
      (asks : Asks (frame c) c) : Command.parse (frame c).write = .ok c :=
    parse_iff.mpr ⟨frame c, envelope_reads_back _ hr hc, asks⟩
  cases h with
  | bind => exact again nofun nofun (.bind rfl rfl)
  | stdin => exact again nofun nofun (.stdin rfl)
  | resize ho hr hc hrz hcz =>
    rw [hr] at hrows
    rw [hc] at hcols
    exact again hrows hcols (.resize rfl rfl rfl hrz hcz)

/-- A text is a command exactly if it is an envelope that asks for it. Fields that the operation
does not use make no difference to the command or the error, and neither do unknown members. A
command that was read is read again from its own frame. What only the gateway sends is refused, and
so is a size without extent. -/
theorem commands_follow_frames (text : String) :
    (∀ c, Command.parse text = .ok c ↔ ∃ e, Envelope.read text = .ok e ∧ Asks e c) ∧
    (∀ text' e e', Envelope.read text = .ok e → Envelope.read text' = .ok e' → Agree e e' →
      Command.parse text' = Command.parse text) ∧
    (∀ text' members members' e, WritesObject text.toList members →
      WritesObject text'.toList members' → Envelope.read text = .ok e → Legible members' →
      valuesOf "op" members' = valuesOf "op" members →
      (∀ field ∈ uses e.op, valuesOf field members' = valuesOf field members) →
      Command.parse text' = Command.parse text) ∧
    (∀ c, Command.parse text = .ok c → Command.parse (frame c).write = .ok c) ∧
    (∀ data, Command.parse (Envelope.stdout data).write = .error (.wrongDirection .stdout) ∧
      Command.parse (Envelope.toast data).write = .error (.wrongDirection .toast)) ∧
    (∀ size : Size, size.rows ≤ maxDimension → size.cols ≤ maxDimension →
      (size.rows = 0 ∨ size.cols = 0) →
      Command.parse (Envelope.resize size).write = .error (.invalidSize size.rows size.cols)) := by
  have same {text' : String} {e e' : Envelope} (hr : Envelope.read text = .ok e)
      (hr' : Envelope.read text' = .ok e') (ha : Agree e e') :
      Command.parse text' = Command.parse text := by
    rw [parse_of_read hr, parse_of_read hr', ha.same_command]
  refine ⟨fun c => parse_iff, fun text' e e' => same, ?_, ?_, fun data => ⟨?_, ?_⟩, ?_⟩
  · intro text' members members' e h h' hr legible op used
    obtain ⟨e', hr', ha⟩ := agree_of_members h h' hr legible op used
    exact same hr hr' ha
  · intro c h
    obtain ⟨e, hr, asks⟩ := parse_iff.mp h
    exact parse_frame asks (read_fitting hr).1 (read_fitting hr).2
  · exact parse_of_read (envelope_reads_back (.stdout data) nofun nofun)
  · exact parse_of_read (envelope_reads_back (.toast data) nofun nofun)
  · intro size hrows hcols hz
    have hr : Envelope.read (Envelope.resize size).write = .ok (.resize size) :=
      envelope_reads_back _ (by simpa [Envelope.resize]) (by simpa [Envelope.resize])
    rw [parse_of_read hr]
    simp [Command.ofEnvelope, Envelope.resize, hz]

end PodConsole.Proofs.Commands
